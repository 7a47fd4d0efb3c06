import Mathlib.Data.List.Forall2
import AlLint.Proofs.Reading.Seen
import AlLint.Proofs.Reading.Spared

/-!
# Reading what looks the same

Tokens that look the same are read in the same way: readers that are given them come as far, complain of the
same at places that match, and what they make of the tokens looks the same again. So a reader sees no more of
a text than a `Likeness` must show. Two tokens may be alike and stand at different places, as long as tokens
keep their order.

`Cursor.Like` relates the cursors of two readings. A `Watch` says what else is known of them: the first may
have noted issues before the second began, the second may have more tokens behind those of the first, and
something may stay true of the first along the way. What readers do with the issues is to add more, so both
readings note issues that match from there on. With the same tokens on both sides, what stays true is all that
is left of the comparison (`Likeness.exact`).
-/

namespace AlLint

open List

theorem getD_eq_of_map {α β : Type} {f : α → β} {o o' : Option α} (h : o.map f = o'.map f) (d : α) :
    f (o.getD d) = f (o'.getD d) := by
  rw [← Option.getD_map f d o, h, Option.getD_map]

/-- Lists that look the same are lists of things that look the same. -/
theorem forall₂_of_map_eq {α β : Type} {f : α → β} {xs ys : List α} (h : xs.map f = ys.map f) :
    List.Forall₂ (fun x y => f x = f y) xs ys := by
  rw [← forall₂_eq_eq_eq, forall₂_map_left_iff, forall₂_map_right_iff] at h
  exact h

theorem map_eq_of_forall₂ {α β γ : Type} {R : α → β → Prop} {f : α → γ} {g : β → γ}
    (h : ∀ x y, R x y → f x = g y)
    {xs : List α} {ys : List β} (hxs : List.Forall₂ R xs ys) : xs.map f = ys.map g := by
  induction hxs with
  | nil => rfl
  | cons hx _ ih => rw [map_cons, map_cons, h _ _ hx, ih]

theorem rel_of_eq {α : Type} {o o' : Option α} (h : o = o') : Option.Rel Eq o o' := by
  subst h
  cases o with
  | none => exact .none
  | some a => exact .some rfl

theorem cases_of_option_map_eq {α β : Type} {f : α → β} {o o' : Option α} (h : o.map f = o'.map f) :
    o = none ∧ o' = none ∨ ∃ a a', o = some a ∧ o' = some a' ∧ f a = f a' := by
  cases o with
  | none =>
    cases o' with
    | none => exact .inl ⟨rfl, rfl⟩
    | some a' => cases h
  | some a =>
    cases o' with
    | none => cases h
    | some a' => exact .inr ⟨a, a', rfl, rfl, Option.some.inj h⟩

/-! ## Tokens that are alike -/

/-- What is known of two readings but for their tokens. `Inner` is what the tokens have in common that are not
the ends of the texts. The first reading has noted the issues `earlier` before the second noted any, and the
second has the tokens `behind` left where the first has none. What `Keeps` says of the first stays true if a
token is taken that neither ends a statement nor opens or closes a part of code, and if a name is read behind
a dot or a double colon. -/
structure Watch where
  Inner : Token → Prop
  earlier : List Issue
  behind : List Token
  Keeps : Reading.Cursor → Prop
  semicolon : ∀ t ∈ behind.head?, t.isOp ";" = true
  keeps_past : ∀ {c t ts}, Keeps c → c.rest = t :: ts → t.isOpIn [";", "\x7d"] = false →
    t.isWordIn Reading.blockWords = false →
    Keeps (c.past t ts)
  keeps_name : ∀ {c t u ts}, Keeps c → c.rest = t :: u :: ts → t.isOpIn [".", "::"] = true → u.kind ≠ .op →
    Keeps ((c.past t (u :: ts)).past u ts)

/-- Nothing but the tokens is known. -/
def Watch.none : Watch where
  Inner _ := True
  earlier := []
  behind := []
  Keeps _ := True
  semicolon := by simp
  keeps_past _ _ _ _ := trivial
  keeps_name _ _ _ _ := trivial

/-- Tokens of two texts that are alike, places in the two texts that match, and what a complaint says of a
token if one does not see more than the view. -/
structure Likeness extends View, Watch where
  Like : Token → Token → Prop
  At : Span → Span → Prop
  remark : Complaint → Complaint
  seen_eq : ∀ {t t'}, Like t t' → t.seen toView = t'.seen toView
  docs_eq : ∀ {t t'}, Like t t' → notes t.docs = notes t'.docs
  start_lt_iff : ∀ {t t' u u'}, Like t t' → Like u u' → (t.start < u.start ↔ t'.start < u'.start)
  at_covering : ∀ {t t' u u'}, Like t t' → Like u u' →
    At (Span.covering t.span u.span) (Span.covering t'.span u'.span)
  place_eq : ∀ {s s'}, At s s' → place s = place s'
  remark_eq : ∀ {t t'}, Like t t' → ∀ complaint : Token → Complaint, remark (complaint t) =
    remark (complaint t')

namespace Likeness

instance : Coe Likeness View := ⟨Likeness.toView⟩

/-- Only the same tokens are alike. -/
def exact (w : Watch) : Likeness where
  toView := .plain
  toWatch := w
  Like := Eq
  At := Eq
  remark complaint := complaint
  seen_eq := by rintro _ _ rfl; rfl
  docs_eq := by rintro _ _ rfl; rfl
  start_lt_iff := by rintro _ _ _ _ rfl rfl; rfl
  at_covering := by rintro _ _ _ _ rfl rfl; rfl
  place_eq := id
  remark_eq := by rintro _ _ rfl _; rfl

variable (v : Likeness)

/-- What is kept is kept by readers of statements. If there are tokens behind, no list of statements starts
before. -/
class ForStatements : Prop where
  keeps_past : ∀ {c t ts}, v.Keeps c → c.rest = t :: ts → t.isOp "\x7d" = false → v.Keeps (c.past t ts)
  keeps_report : ∀ {c complaint span}, v.Keeps c → v.Keeps (c.report complaint span)
  keeps_collected : ∀ {c stops}, v.Keeps c → c.last.isOpIn [":", "="] = true →
    (∀ t : Token, t.isOp ";" = true → stops t = true) →
    v.Keeps (Reading.collected stops c).next
  keeps_resume : ∀ {c d t ts}, v.Keeps c → v.Keeps d → c.rest = t :: ts → t.isOp "\x7d" = false →
    d.size = c.size →
    v.Keeps (d.past t ts)
  behind_eq_or : v.behind = [] ∨ ∀ t, v.Inner t → t.isWordIn ["begin", "case", "repeat"] = false

/-- What is kept is kept by readers of code, and there is nothing behind. -/
class ForCode : Prop extends v.ForStatements where
  behind_eq : v.behind = []

/-- Nothing is to be kept, and there is nothing behind. -/
class ForFiles : Prop where
  keeps : ∀ c, v.Keeps c
  behind_eq : v.behind = []

instance [h : v.ForFiles] : v.ForCode where
  keeps_past _ _ _ := h.keeps _
  keeps_report _ := h.keeps _
  keeps_collected _ _ _ := h.keeps _
  keeps_resume _ _ _ _ _ := h.keeps _
  behind_eq_or := .inl h.behind_eq
  behind_eq := h.behind_eq

end Likeness

namespace Token

/-- Tokens that are alike. -/
structure Like (v : Likeness) (t t' : Token) : Prop where
  alike : v.Like t t'

/-- Tokens that are alike and are not the ends of the texts. -/
structure Same (v : Likeness) (t t' : Token) : Prop extends Like v t t' where
  inner : v.Inner t

namespace Like

variable {v : Likeness} {t t' u u' : Token}

theorem exact {w : Watch} (t : Token) : t.Like (.exact w) t := ⟨rfl⟩

theorem seen_eq (h : t.Like v t') : t.seen v = t'.seen v := v.seen_eq h.alike

theorem kind_eq (h : t.Like v t') : t.kind = t'.kind := (congrArg Token.kind h.seen_eq :)

theorem at_covering (h : t.Like v t') (hu : u.Like v u') :
    v.At (Span.covering t.span u.span) (Span.covering t'.span u'.span) :=
  v.at_covering h.alike hu.alike

theorem at_span (h : t.Like v t') : v.At t.span t'.span := h.at_covering h

theorem span_eq (h : t.Like v t') : v.place t.span = v.place t'.span := v.place_eq h.at_span

theorem covering_eq (h : t.Like v t') (hu : u.Like v u') :
    v.place (Span.covering t.span u.span) = v.place (Span.covering t'.span u'.span) :=
      v.place_eq (h.at_covering hu)

theorem start_eq (h : t.Like v t') : v.offset t.start = v.offset t'.start :=
  (congrArg Token.start h.seen_eq :)

theorem see_value (h : t.Like v t') : v.see t.value = v.see t'.value := (congrArg Token.value h.seen_eq :)

theorem docs_eq (h : t.Like v t') : v.notes t.docs = v.notes t'.docs := v.docs_eq h.alike

theorem remark_eq (h : t.Like v t') (complaint : Token → Complaint) :
    v.remark (complaint t) = v.remark (complaint t') :=
  v.remark_eq h.alike complaint

theorem text_eq (h : t.Like v t') (hop : t.kind = .op) : t.text = t'.text := by
  have htext : (t.seen v).text = (t'.seen v).text := congrArg Token.text h.seen_eq
  simpa only [seen, hop, h.kind_eq ▸ hop, if_true] using htext

theorem see_text (h : t.Like v t') : v.see t.text = v.see t'.text := by
  by_cases hop : t.kind = .op
  · rw [h.text_eq hop]
  · have htext : (t.seen v).text = (t'.seen v).text := congrArg Token.text h.seen_eq
    simpa only [seen, hop, h.kind_eq ▸ hop, if_false] using htext

theorem isWordIn_eq (h : t.Like v t') (words : List String) : t.isWordIn words = t'.isWordIn words := by
  rw [isWordIn, isWordIn, h.kind_eq, View.lower_eq h.see_value]

theorem isWord_eq (h : t.Like v t') (word : String) : t.isWord word = t'.isWord word := h.isWordIn_eq [word]

theorem isOpIn_eq (h : t.Like v t') (ops : List String) : t.isOpIn ops = t'.isOpIn ops := by
  by_cases hop : t.kind = .op
  · rw [isOpIn, isOpIn, ← h.kind_eq, h.text_eq hop]
  · have hop' : t'.kind ≠ .op := h.kind_eq ▸ hop
    rw [isOpIn, isOpIn, beq_eq_false_iff_ne.2 hop, beq_eq_false_iff_ne.2 hop', Bool.false_and, Bool.false_and]

theorem isOp_eq (h : t.Like v t') (op : String) : t.isOp op = t'.isOp op := h.isOpIn_eq [op]

theorem isName_eq (h : t.Like v t') : t.isName = t'.isName := by rw [isName, isName, h.kind_eq]

theorem isQuoted_eq (h : t.Like v t') : t.isQuoted = t'.isQuoted := by rw [isQuoted, isQuoted, h.kind_eq]

theorem lower_eq (h : t.Like v t') : t.lower = t'.lower := by
  rw [lower, lower, h.kind_eq, View.lower_eq h.see_value]

end Like

variable {v : Likeness} {t t' : Token} {ts ts' : List Token} {p p' : Token → Bool}

/-! ## Lists of tokens -/

abbrev Likes (v : Likeness) : List Token → List Token → Prop := List.Forall₂ (Token.Same v)

namespace Likes

theorem map_eq {α : Type} (h : Likes v ts ts') {f f' : Token → α} (hf : ∀ t t', t.Like v t' → f t = f' t') :
    ts.map f = ts'.map f' :=
  map_eq_of_forall₂ (fun t t' ht => hf t t' ht.toLike) h

theorem map_seen (h : Likes v ts ts') : ts.map (seen v) = ts'.map (seen v) :=
  h.map_eq fun _ _ ht => ht.seen_eq

theorem getLastD (h : Likes v ts ts') (ht : t.Like v t') :
    (ts.getLast?.getD t).Like v (ts'.getLast?.getD t') := by
  induction h generalizing t t' with
  | nil => exact ht
  | cons hu _ ih => simpa only [getLast?_cons, Option.getD_some] using ih hu.toLike

theorem getLast (h : Likes v ts ts') (ht : t.Same v t') :
    ((t :: ts).getLast (cons_ne_nil _ _)).Same v ((t' :: ts').getLast (cons_ne_nil _ _)) := by
  induction h generalizing t t' with
  | nil => exact ht
  | cons hu _ ih => exact ih hu

theorem headD (h : Likes v ts ts') (ht : t.Like v t') : (ts.headD t).Like v (ts'.headD t') := by
  cases h with
  | nil => exact ht
  | cons hu _ => exact hu.toLike

theorem tail (h : Likes v ts ts') : Likes v ts.tail ts'.tail := by
  cases h with
  | nil => exact .nil
  | cons _ hts => exact hts

theorem takeWhile (h : Likes v ts ts') (hp : ∀ t t', t.Like v t' → p t = p' t') :
    Likes v (ts.takeWhile p) (ts'.takeWhile p') := by
  induction h with
  | nil => exact .nil
  | @cons t t' _ _ ht _ ih =>
    rw [takeWhile_cons, takeWhile_cons, hp t t' ht.toLike]
    split
    · exact .cons ht ih
    · exact .nil

theorem dropWhile (h : Likes v ts ts') (hp : ∀ t t', t.Like v t' → p t = p' t') :
    Likes v (ts.dropWhile p) (ts'.dropWhile p') := by
  induction h with
  | nil => exact .nil
  | @cons t t' _ _ ht hts ih =>
    rw [dropWhile_cons, dropWhile_cons, hp t t' ht.toLike]
    split
    · exact ih
    · exact .cons ht hts

theorem dropLast (h : Likes v ts ts') : Likes v ts.dropLast ts'.dropLast := by
  rw [dropLast_eq_take, dropLast_eq_take, h.length_eq]
  exact forall₂_take _ h

theorem eq_of_exact {w : Watch} (h : Likes (.exact w) ts ts') : ts = ts' := by
  rw [← forall₂_eq_eq_eq]
  exact h.imp fun _ _ ht => ht.alike

end Likes

end Token

namespace Keyed

variable {α β : Type}

theorem map_insert (f : α → β) (entries : Keyed α) (key : String) (value : α) :
    (entries.insert key value).map (Prod.map id f) = Keyed.insert (entries.map (Prod.map id f)) key
      (f value) := by
  induction entries with
  | nil => rfl
  | cons e rest ih =>
    obtain ⟨k, x⟩ := e
    by_cases h : key = k
    · simp only [insert, h, if_true, map_cons, Prod.map_apply, id_eq]
    · simp only [insert, h, if_false, map_cons, Prod.map_apply, id_eq, ih]

theorem map_ofList (f : α → β) (entries : List (String × α)) :
    (ofList entries).map (Prod.map id f) = ofList (entries.map (Prod.map id f)) := by
  have hall : ∀ start : Keyed α, (start.insertAll entries).map (Prod.map id f) =
      insertAll (start.map (Prod.map id f)) (entries.map (Prod.map id f)) := by
    induction entries with
    | nil => exact fun _ => rfl
    | cons e rest ih =>
      intro start
      have hrest := ih (start.insert e.1 e.2)
      rwa [map_insert] at hrest
  exact hall []

theorem get?_map_values (f : α → β) (entries : Keyed α) (key : String) :
    get? (entries.map (Prod.map id f)) key = (entries.get? key).map f := by
  induction entries with
  | nil => rfl
  | cons e rest ih =>
    by_cases h : key = e.1
    · simp [get?, h]
    · simpa [get?, h] using ih

end Keyed

namespace Reading

/-! ## Cursors and outcomes -/

/-- Whether a text says that something is so. -/
def affirms (s : String) : Bool := Text.lower (Text.strip s) == "true"

theorem affirms_eq {v : View} {s s' : String} (h : v.see s = v.see s') : affirms s = affirms s' := by
  rw [affirms, affirms, View.lower_eq (View.strip_eq h)]

/-- Inputs that are alike in what is copied from them. -/
structure Input.Like (v : Likeness) (inp inp' : Input) : Prop where
  eof : inp.eof.Like v (v.behind.headD inp'.eof)
  textOf : ∀ {ts ts'}, Token.Likes v ts ts' → v.raw (inp.textOf ts) = v.raw (inp'.textOf ts')
  affirms : ∀ {ts ts'}, Token.Likes v ts ts' → affirms (inp.textOf ts) = affirms (inp'.textOf ts')
  between : ∀ {t t' u u' : Token}, t.Like v t' → u.Like v u' →
    v.raw (Text.strip (inp.slice t.start u.start)) = v.raw (Text.strip (inp'.slice t'.start u'.start))

end Reading

/-- Expressions that look the same, at places that match. -/
structure Expr.Like (v : Likeness) (e e' : Expr) : Prop where
  seen : e.seen v = e'.seen v
  place : v.At e.span e'.span

/-- Issues that match. -/
structure Issue.Like (v : Likeness) (i i' : Issue) : Prop where
  remark : v.remark i.complaint = v.remark i'.complaint
  place : v.At i.span i'.span

/-- Lists of issues that match but for the earlier ones. -/
def Issue.Likes (v : Likeness) (issues issues' : List Issue) : Prop :=
  ∃ new, issues = v.earlier ++ new ∧ List.Forall₂ (Issue.Like v) new issues'

theorem Issue.Likes.add {v : Likeness} {issues issues' : List Issue} {i i' : Issue}
    (h : Issue.Likes v issues issues')
    (hi : i.Like v i') : Issue.Likes v (issues ++ [i]) (issues' ++ [i']) := by
  obtain ⟨new, rfl, hnew⟩ := h
  exact ⟨new ++ [i], append_assoc .., rel_append hnew (.cons hi .nil)⟩

theorem Issue.eq_of_exact {w : Watch} {is is' : List Issue}
    (h : List.Forall₂ (Issue.Like (.exact w)) is is') : is = is' := by
  have heq : ∀ i i' : Issue, i.Like (.exact w) i' → i = i' := by
    rintro ⟨complaint, span⟩ ⟨complaint', span'⟩ ⟨hremark, hplace⟩
    exact congrArg₂ Issue.mk hremark hplace
  rw [← forall₂_eq_eq_eq]
  exact h.imp heq

namespace Reading

/-- Cursors before tokens that are alike. -/
structure Cursor.Like (v : Likeness) (c c' : Cursor) : Prop where
  last : c.last.Like v c'.last
  rest : ∃ front, c'.rest = front ++ v.behind ∧ Token.Likes v c.rest front
  issues : Issue.Likes v c.issues c'.issues
  keeps : v.Keeps c

/-- Outcomes that are alike, with values that are related by `r`. -/
inductive Outcome.Like {α : Type} (v : Likeness) (r : α → α → Prop) {n n' : Nat} :
    Outcome α n → Outcome α n' → Prop where
  | ok {a a' : α} {c c' : Cursor} {h : c.size < n} {h' : c'.size < n'} : r a a' → c.Like v c' →
      Like v r (.ok a c h) (.ok a' c' h')
  | fail {issue issue' : Issue} {c c' : Cursor} {h : c.size ≤ n} {h' : c'.size ≤ n'} : issue.Like v issue' →
      c.Like v c' → Like v r (.fail issue c h) (.fail issue' c' h')

/-- Readings that are alike, with values that are related by `r`. -/
structure Read.Like {α : Type} (v : Likeness) (r : α → α → Prop) {n n' : Nat}
    (x : Read α n) (x' : Read α n') :
    Prop where
  value : r x.value x'.value
  next : x.next.Like v x'.next

/-- Values that look the same through `f`. -/
abbrev Looks {α β : Type} (f : α → β) (a a' : α) : Prop := f a = f a'

namespace Outcome.Like

variable {α β : Type} {v : Likeness} {r : α → α → Prop} {q : β → β → Prop} {n n' m m' : Nat}

theorem andThen {x : Outcome α n} {x' : Outcome α n'} {k : (a : α) → (c : Cursor) → c.size < n → Outcome β m}
    {k' : (a : α) → (c : Cursor) → c.size < n' → Outcome β m'} {le : n ≤ m} {le' : n' ≤ m'}
    (hx : x.Like v r x') (hk : ∀ {a a' c c' h h'}, r a a' → c.Like v c' → (k a c h).Like v q (k' a' c' h')) :
    (x.andThen k le).Like v q (x'.andThen k' le') := by
  cases hx with
  | ok ha hc => exact hk ha hc
  | fail hissue hc => exact .fail hissue hc

theorem weaken {x : Outcome α n} {x' : Outcome α n'} {le : n ≤ m} {le' : n' ≤ m'} (hx : x.Like v r x') :
    (x.weaken le).Like v r (x'.weaken le') :=
  hx.andThen .ok

theorem map {x : Outcome α n} {x' : Outcome α n'} {k k' : α → β} (hx : x.Like v r x')
    (hk : ∀ {a a'}, r a a' → q (k a) (k' a')) : (x.map k).Like v q (x'.map k') :=
  hx.andThen fun ha hc => .ok (hk ha) hc

end Outcome.Like

theorem Input.Like.eof_like {v : Likeness} [hv : v.ForCode] {inp inp' : Input} (hinp : inp.Like v inp') :
    inp.eof.Like v inp'.eof := by
  have heof := hinp.eof
  rwa [hv.behind_eq] at heof

theorem Outcome.Like.keeps {α : Type} {v : Likeness} {r : α → α → Prop} {n n' : Nat} {x : Outcome α n}
    {x' : Outcome α n'} (h : x.Like v r x') : v.Keeps x.next := by
  cases h with
  | ok _ hc => exact hc.keeps
  | fail _ hc => exact hc.keeps

/-- What is kept is kept if `g` takes the token at the cursor, and `g'` does not take the semicolon behind. -/
structure Cursor.Lets {α : Type} (v : Likeness) (c : Cursor) (g g' : Token → Option α) : Prop where
  keeps : ∀ {t ts a}, c.rest = t :: ts → g t = some a → v.Keeps (c.past t ts)
  stops : ∀ t ∈ v.behind.head?, g' t = none

abbrev Cursor.LetsIf (v : Likeness) (c : Cursor) (p p' : Token → Bool) : Prop :=
  c.Lets v (fun t => if p t then some t else none) fun t => if p' t then some t else none

/-- All cursors at which something is kept let both readers take a token. -/
class Takes {α : Type} (v : Likeness) (g g' : Token → Option α) : Prop where
  lets : ∀ {c}, v.Keeps c → c.Lets v g g'

/-- Takes no operator. -/
def Wordy (p : Token → Bool) : Prop := ∀ t : Token, t.kind = .op → p t = false

theorem wordy_isWordIn (words : List String) : Wordy (·.isWordIn words) :=
  fun t ht => by simp [Token.isWordIn, ht]

theorem wordy_isName : Wordy (·.isName) := fun t ht => by simp [Token.isName, ht]

section

variable {v : Likeness} {c : Cursor} {t t' : Token} {ts : List Token} {p : Token → Bool}

theorem Wordy.stops (hp : Wordy p) : ∀ t ∈ v.behind.head?, (if p t then some t else none) = none := by
  intro t ht
  rw [hp t (Token.isOp_iff.1 (v.semicolon t ht)).1]
  rfl

theorem Wordy.kind_ne (hp : Wordy p) (h : (if p t then some t else none) = some t') : t.kind ≠ .op := by
  intro hkind
  rw [hp t hkind] at h
  cases h

/-- A name behind a dot may be any word. -/
theorem letsName (hkeeps : v.Keeps c) (hrest : c.rest = t :: ts) (ht : t.isOpIn [".", "::"] = true)
    (hp : Wordy p) : (c.past t ts).LetsIf v p p where
  keeps {u us a} hus ha := by
    obtain rfl : ts = u :: us := hus
    exact v.keeps_name hkeeps hrest ht (hp.kind_ne ha)
  stops := hp.stops

end

namespace Cursor.Like

variable {α β : Type} {v : Likeness} {inp inp' : Input} {c c' : Cursor} {t t' : Token} {ts ts' : List Token}
  {p p' : Token → Bool}

theorem head (hc : c.Like v c') (hinp : inp.Like v inp') : (c.head inp).Like v (c'.head inp') := by
  obtain ⟨front, hfront, hrest⟩ := hc.rest
  have hhead : c'.head inp' = front.headD (v.behind.headD inp'.eof) := by
    rw [Cursor.head, hfront]
    cases front <;> rfl
  rw [hhead]
  exact hrest.headD hinp.eof

theorem spanFrom_at (hc : c.Like v c') (ht : t.Like v t') : v.At (c.spanFrom t) (c'.spanFrom t') := by
  rw [spanFrom, spanFrom]
  by_cases h : c.last.start < t.start
  · rw [if_pos h, if_pos ((v.start_lt_iff hc.last.alike ht.alike).1 h)]
    exact ht.at_span
  · rw [if_neg h, if_neg fun h' => h ((v.start_lt_iff hc.last.alike ht.alike).2 h')]
    exact ht.at_covering hc.last

theorem spanFrom_eq (hc : c.Like v c') (ht : t.Like v t') :
    v.place (c.spanFrom t) = v.place (c'.spanFrom t') :=
  v.place_eq (hc.spanFrom_at ht)

theorem failHere (hc : c.Like v c') (hinp : inp.Like v inp') {r : α → α → Prop}
    {complaint complaint' : Complaint} (hremark : v.remark complaint = v.remark complaint') :
    (c.failHere inp complaint).Like v r (c'.failHere inp' complaint') :=
  .fail ⟨hremark, (hc.head hinp).at_span⟩ hc

/-! ### Taking a token -/

@[elab_as_elim]
theorem take (hc : c.Like v c') {g g' : Token → Option α} (hlets : c.Lets v g g') {r : α → α → Prop}
    (hg : ∀ t t', t.Same v t' → Option.Rel r (g t) (g' t'))
    {motive : Option (α × c.After) → Option (α × c'.After) → Prop} (hnone : motive none none)
    (hsome : ∀ {a a' d d' h h'}, r a a' → d.Like v d' →
    (∃ t ts, c.rest = t :: ts ∧ d = c.past t ts ∧ g t = some a) →
      motive (some (a, ⟨d, h⟩)) (some (a', ⟨d', h'⟩))) :
    motive (c.take g) (c'.take g') := by
  obtain ⟨last, rest, issues⟩ := c
  obtain ⟨last', rest', issues'⟩ := c'
  obtain ⟨hlast, ⟨front, rfl, hrest⟩, hissues, hkeeps⟩ := hc
  cases hrest with
  | nil =>
    have hstops := hlets.stops
    have hnone' : Cursor.take ⟨last', [] ++ v.behind, issues'⟩ g' = none := by
      generalize v.behind = behind at hstops
      cases behind with
      | nil => rfl
      | cons t ts => simp only [Cursor.take, nil_append, hstops t rfl, Option.map_none]
    rw [hnone']
    exact hnone
  | @cons t t' ts ts' ht hts =>
    have hrel := hg t t' ht
    have hkeeps : ∀ a, g t = some a → v.Keeps ⟨t, ts, issues⟩ := fun a => hlets.keeps rfl
    simp only [Cursor.take, cons_append]
    cases ha : g t with
    | none =>
      rw [ha] at hrel
      generalize g' t' = o' at hrel
      cases hrel
      exact hnone
    | some a =>
      rw [ha] at hrel
      generalize g' t' = o' at hrel
      cases hrel with
      | some hrel => exact hsome hrel ⟨ht.toLike, ⟨ts', rfl, hts⟩, hissues, hkeeps a ha⟩ ⟨t, ts, rfl, rfl, ha⟩

@[elab_as_elim]
theorem takeSame (hc : c.Like v c') {g g' : Token → Option α} [hv : Takes v g g']
    (hg : ∀ t t', t.Like v t' → g t = g' t')
    {motive : Option (α × c.After) → Option (α × c'.After) → Prop} (hnone : motive none none)
    (hsome : ∀ {a d d' h h'}, d.Like v d' → motive (some (a, ⟨d, h⟩)) (some (a, ⟨d', h'⟩))) :
    motive (c.take g) (c'.take g') := by
  refine hc.take (hv.lets hc.keeps) (fun t t' ht => rel_of_eq (hg t t' ht.toLike)) hnone fun ha hd _ => ?_
  subst ha
  exact hsome hd

@[elab_as_elim]
theorem acceptLast (hc : c.Like v c') (hlets : c.LetsIf v p p') (hp : ∀ t t', t.Like v t' → p t = p' t')
    {motive : Option (Token × c.After) → Option (Token × c'.After) → Prop} (hnone : motive none none)
    (hsome : ∀ {t t' d d' h h'}, t.Same v t' → d.Like v d' → p d.last = true →
      motive (some (t, ⟨d, h⟩)) (some (t', ⟨d', h'⟩))) : motive (c.accept p) (c'.accept p') := by
  unfold Cursor.accept
  refine hc.take hlets (fun t t' ht => ?_) hnone @fun _ _ _ _ _ _ ht hd htaken => hsome ht hd ?_
  · rw [hp t t' ht.toLike]
    split
    · exact .some ht
    · exact .none
  · obtain ⟨u, us, -, rfl, hu⟩ := htaken
    exact (Option.ite_none_right_eq_some.1 hu).1

@[elab_as_elim]
theorem accept (hc : c.Like v c') (hlets : c.LetsIf v p p') (hp : ∀ t t', t.Like v t' → p t = p' t')
    {motive : Option (Token × c.After) → Option (Token × c'.After) → Prop} (hnone : motive none none)
    (hsome : ∀ {t t' d d' h h'}, t.Same v t' → d.Like v d' →
    motive (some (t, ⟨d, h⟩)) (some (t', ⟨d', h'⟩))) :
    motive (c.accept p) (c'.accept p') :=
  hc.acceptLast hlets hp hnone fun ht hd _ => hsome ht hd

theorem expect (hc : c.Like v c') (hlets : c.LetsIf v p p') (hinp : inp.Like v inp')
    (hp : ∀ t t', t.Like v t' → p t = p' t') {complaint complaint' : Found → Complaint}
    (hremark : ∀ found, v.remark (complaint found) = v.remark (complaint' found)) :
    (c.expect inp p complaint).Like v (Token.Same v) (c'.expect inp' p' complaint') := by
  unfold Cursor.expect
  refine hc.accept hlets hp ?_ .ok
  exact hc.failHere hinp (((hc.head hinp).remark_eq fun t => complaint t.found).trans (hremark _))

/-- What comes after a token that is expected starts past it. -/
theorem expectThen {n n' : Nat} (hc : c.Like v c') (hlets : c.LetsIf v p p') (hinp : inp.Like v inp')
    (hp : ∀ t t', t.Like v t' → p t = p' t') {complaint complaint' : Found → Complaint}
    (hremark : ∀ found, v.remark (complaint found) = v.remark (complaint' found)) {r : α → α → Prop}
    {k : Token → (d : Cursor) → d.size < c.size → Outcome α n}
    {k' : Token → (d : Cursor) → d.size < c'.size → Outcome α n'} {le : c.size ≤ n} {le' : c'.size ≤ n'}
    (hk : ∀ {t t' d d' h h'}, d.Like v d' → p d.last = true → (k t d h).Like v r (k' t' d' h')) :
    ((c.expect inp p complaint).andThen k le).Like v r ((c'.expect inp' p' complaint').andThen k' le') := by
  unfold Cursor.expect
  refine hc.acceptLast hlets hp ?_ fun _ hd hlast => hk hd hlast
  exact .fail ⟨((hc.head hinp).remark_eq fun t => complaint t.found).trans (hremark _),
    (hc.head hinp).at_span⟩ hc

instance {g g' : Token → Option α} [hg : Spares g] [hg' : Spares g'] : Takes v g g' where
  lets hkeeps := by
    refine ⟨fun {t ts a} hrest ha => v.keeps_past hkeeps hrest ?_ ?_, fun t ht => ?_⟩
    · refine Bool.eq_false_iff.2 fun hop => ?_
      rw [hg.op t hop] at ha
      cases ha
    · refine Bool.eq_false_iff.2 fun hword => ?_
      rw [hg.word t hword] at ha
      cases ha
    · exact hg'.op t (Token.isOpIn_of_isOp (v.semicolon t ht) mem_cons_self)

theorem letsOp (hc : c.Like v c') {op : String} (hop : op ∉ [";", "\x7d"]) :
    c.LetsIf v (·.isOp op) (·.isOp op) := by
  have hspares : Spares fun t : Token => if t.isOp op then some t else none :=
    ⟨fun t ht => by simp [isOp_of_isOpIn ht hop], fun t ht => by simp [isOp_of_blockWord ht]⟩
  exact Takes.lets hc.keeps

@[elab_as_elim]
theorem acceptOp (hc : c.Like v c') {op : String} (hop : op ∉ [";", "\x7d"])
    {motive : Option (Token × c.After) → Option (Token × c'.After) → Prop} (hnone : motive none none)
    (hsome : ∀ {t t' d d' h h'}, t.Same v t' → d.Like v d' →
    motive (some (t, ⟨d, h⟩)) (some (t', ⟨d', h'⟩))) :
    motive (c.acceptOp op) (c'.acceptOp op) := by
  unfold Cursor.acceptOp
  exact hc.accept (hc.letsOp hop) (fun _ _ ht => ht.isOp_eq op) hnone hsome

theorem expectOp (hc : c.Like v c') (hinp : inp.Like v inp') {op : String} (hop : op ∉ [";", "\x7d"])
    (context : String) : (c.expectOp inp op context).Like v (Token.Same v) (c'.expectOp inp' op context) :=
  hc.expect (hc.letsOp hop) hinp (fun _ _ ht => ht.isOp_eq op) fun _ => rfl

section

variable [hv : v.ForStatements]

theorem letsWord (hc : c.Like v c') (hp : Wordy p) (hp' : Wordy p') : c.LetsIf v p p' where
  keeps hrest ha := hv.keeps_past hc.keeps hrest (by simp [Token.isOp, Token.isOpIn, hp.kind_ne ha])
  stops := hp'.stops

@[elab_as_elim]
theorem acceptWord (hc : c.Like v c') (word : String)
    {motive : Option (Token × c.After) → Option (Token × c'.After) → Prop} (hnone : motive none none)
    (hsome : ∀ {t t' d d' h h'}, t.Same v t' → d.Like v d' →
    motive (some (t, ⟨d, h⟩)) (some (t', ⟨d', h'⟩))) :
    motive (c.acceptWord word) (c'.acceptWord word) := by
  unfold Cursor.acceptWord
  exact hc.accept (hc.letsWord (wordy_isWordIn _) (wordy_isWordIn _))
    (fun _ _ ht => ht.isWord_eq word) hnone hsome

theorem expectWord (hc : c.Like v c') (hinp : inp.Like v inp') (word context : String) :
    (c.expectWord inp word context).Like v (Token.Same v) (c'.expectWord inp' word context) :=
  hc.expect (hc.letsWord (wordy_isWordIn _) (wordy_isWordIn _)) hinp (fun _ _ ht => ht.isWord_eq word)
    fun _ => rfl

theorem expectName (hc : c.Like v c') (hinp : inp.Like v inp') (context : String) :
    (c.expectName inp context).Like v (Token.Same v) (c'.expectName inp' context) :=
  hc.expect (hc.letsWord wordy_isName wordy_isName) hinp (fun _ _ ht => ht.isName_eq) fun _ => rfl

end

section

variable [hv : v.ForCode]

theorem likes (hc : c.Like v c') : Token.Likes v c.rest c'.rest := by
  obtain ⟨front, hfront, hrest⟩ := hc.rest
  rwa [hfront, hv.behind_eq, append_nil]

theorem ofLikes (hlast : c.last.Like v c'.last) (hrest : Token.Likes v c.rest c'.rest)
    (hissues : Issue.Likes v c.issues c'.issues) (hkeeps : v.Keeps c) : c.Like v c' :=
  ⟨hlast, ⟨c'.rest, by rw [hv.behind_eq, append_nil], hrest⟩, hissues, hkeeps⟩

theorem peek (hc : c.Like v c') (hinp : inp.Like v inp') : (c.peek inp).Like v (c'.peek inp') :=
  hc.likes.tail.headD hinp.eof_like

theorem size_eq (hc : c.Like v c') : c.size = c'.size := hc.likes.length_eq

theorem past (hc : c.Like v c') (hrest : c.rest = t :: ts) (ht : t.Like v t') (hts : Token.Likes v ts ts')
    (hbrace : t.isOp "\x7d" = false) : (c.past t ts).Like v (c'.past t' ts') :=
  .ofLikes ht hts hc.issues (hv.keeps_past hc.keeps hrest hbrace)

theorem report (hc : c.Like v c') {complaint complaint' : Complaint}
    (hremark : v.remark complaint = v.remark complaint')
    {span span' : Span} (hspan : v.At span span') :
    (c.report complaint span).Like v (c'.report complaint' span') :=
  .ofLikes hc.last hc.likes (hc.issues.add ⟨hremark, hspan⟩) (hv.keeps_report hc.keeps)

@[elab_as_elim]
theorem acceptSemicolon (hc : c.Like v c')
    {motive : Option (Token × c.After) → Option (Token × c'.After) → Prop} (hnone : motive none none)
    (hsome : ∀ {t t' d d' h h'}, t.Same v t' → d.Like v d' →
    motive (some (t, ⟨d, h⟩)) (some (t', ⟨d', h'⟩))) :
    motive (c.acceptOp ";") (c'.acceptOp ";") := by
  unfold Cursor.acceptOp
  refine hc.accept ⟨fun hrest ha => ?_, fun t ht => ?_⟩ (fun _ _ ht => ht.isOp_eq ";") hnone hsome
  · exact hv.keeps_past hc.keeps hrest (not_brace_of_isOp (Option.ite_none_right_eq_some.1 ha).1 (by decide))
  · rw [hv.behind_eq] at ht
    cases ht

theorem skipSemicolon (hc : c.Like v c') : (c.skipOp ";").1.Like v (c'.skipOp ";").1 := by
  unfold Cursor.skipOp
  exact hc.acceptSemicolon hc fun _ hd => hd

end

end Cursor.Like

/-! ## Cursors before the same tokens -/

section

variable {w : Watch} {inp : Input}

theorem Input.Like.exact (inp : Input) :
    Input.Like (.exact w) { inp with eof := w.behind.headD inp.eof } inp := by
  refine ⟨⟨rfl⟩, fun h => by rw [Token.Likes.eq_of_exact h]; rfl, fun h =>
    by rw [Token.Likes.eq_of_exact h]; rfl, ?_⟩
  rintro t _ u _ ⟨rfl⟩ ⟨rfl⟩
  rfl

theorem Cursor.Like.exact {c c' : Cursor} (hlast : c.last = c'.last) (hrest : c'.rest = c.rest ++ w.behind)
    (hissues : c.issues = w.earlier ++ c'.issues) (hinner : ∀ t ∈ c.rest, w.Inner t) (hkeeps : w.Keeps c) :
    c.Like (.exact w) c' :=
  ⟨⟨hlast⟩, ⟨c.rest, hrest, forall₂_same.2 fun t ht => ⟨⟨rfl⟩, hinner t ht⟩⟩,
    ⟨c'.issues, hissues, forall₂_same.2 fun _ _ => ⟨rfl, rfl⟩⟩, hkeeps⟩

/-- The first reading has noted some issues before, and all tokens are among those that were left then. -/
abbrev among (ts : List Token) (issues : List Issue) : Watch :=
  { Watch.none with Inner := (· ∈ ts), earlier := issues }

instance (ts : List Token) (issues : List Issue) : (Likeness.exact (among ts issues)).ForFiles :=
  ⟨fun _ => trivial, rfl⟩

theorem Cursor.Like.among (last : Token) (rest : List Token) (issues : List Issue) :
    Cursor.Like (.exact (among rest issues)) ⟨last, rest, issues⟩ ⟨last, rest, []⟩ :=
  .exact rfl (append_nil _).symm (append_nil _).symm (fun _ ht => ht) trivial

end

/-! ## Types -/

section

variable {v : Likeness} {inp inp' : Input} {t t' : Token} {ts ts' : List Token}

theorem depthChange_eq (ht : t.Like v t') : depthChange t = depthChange t' := by
  rw [depthChange, depthChange, ht.isOpIn_eq, ht.isOpIn_eq]

theorem splitAtDepth_like (separator : String) (depth : Int) {part part' : List Token}
    (hpart : Token.Likes v part part') (h : Token.Likes v ts ts') :
    List.Forall₂ (Token.Likes v) (splitAtDepth separator depth part ts)
      (splitAtDepth separator depth part' ts') := by
  induction h generalizing depth part part' with
  | nil => exact .cons (rel_reverse hpart) .nil
  | @cons t t' ts ts' ht _ ih =>
    rw [splitAtDepth, splitAtDepth, depthChange_eq ht.toLike, ht.isOp_eq]
    split
    · exact .cons (rel_reverse hpart) (ih depth .nil)
    · exact ih _ (.cons ht hpart)

theorem splitTokens_like (separator : String) (h : Token.Likes v ts ts') :
    List.Forall₂ (Token.Likes v) (splitTokens separator ts) (splitTokens separator ts') := by
  refine rel_filter ?_ (splitAtDepth_like separator 0 .nil h)
  intro part part' hpart
  cases hpart <;> simp

theorem map_seen_of_forall₂ {parts parts' : List (List Token)}
    (h : List.Forall₂ (Token.Likes v) parts parts') :
    parts.map (List.map (Token.seen v)) = parts'.map (List.map (Token.seen v)) :=
  map_eq_of_forall₂ (fun _ _ hpart => hpart.map_seen) h

/-- What matters of the value of a property of a label. -/
def valueSeen (v : View) (s : String) : String × Bool := (v.raw s, affirms s)

theorem valueSeen_eq {v : View} {s s' : String} (h : v.see s = v.see s') : valueSeen v s = valueSeen v s' :=
  Prod.ext (v.raw_eq h) (affirms_eq h)

theorem labelProperty?_like (hinp : inp.Like v inp') (h : Token.Likes v ts ts') :
    (labelProperty? inp ts).map (Prod.map id (valueSeen v)) = (labelProperty? inp' ts').map
      (Prod.map id (valueSeen v)) := by
  unfold labelProperty?
  rcases h with _ | ⟨hname, _ | ⟨heq, _ | ⟨hvalue, hmore⟩⟩⟩
  · rfl
  · rfl
  · rfl
  · rename_i name name' eq eq' value value' more more'
    dsimp only
    rw [heq.isOp_eq "="]
    split
    · have htext : valueSeen v (inp.textOf (value :: more)) = valueSeen v (inp'.textOf (value' :: more')) :=
        Prod.ext (hinp.textOf (.cons hvalue hmore)) (hinp.affirms (.cons hvalue hmore))
      have hempty : more.isEmpty = more'.isEmpty := by cases hmore <;> rfl
      rw [hempty, hvalue.kind_eq]
      simp only [Option.map_some, Prod.map_apply, id_eq, View.lower_eq hname.see_value]
      split
      · rw [valueSeen_eq hvalue.see_value]
      · rw [htext]
    · rfl

theorem labelText?_like {parts parts' : List (List Token)} (h : List.Forall₂ (Token.Likes v) parts parts') :
    (labelText? parts).map v.see = (labelText? parts').map v.see := by
  rcases h with _ | ⟨_ | ⟨ht, _⟩, _⟩
  · rfl
  · rfl
  · rw [labelText?, labelText?, ht.kind_eq]
    split
    · rw [Option.map_some, Option.map_some, ht.see_value]
    · rfl

theorem labelProperties_like (hinp : inp.Like v inp') {parts parts' : List (List Token)}
    (h : List.Forall₂ (Token.Likes v) parts parts') :
    (Keyed.ofList (parts.filterMap (labelProperty? inp))).map (Prod.map id (valueSeen v)) =
      (Keyed.ofList (parts'.filterMap (labelProperty? inp'))).map (Prod.map id (valueSeen v)) := by
  rw [Keyed.map_ofList, Keyed.map_ofList, map_filterMap, map_filterMap]
  congr 1
  induction h with
  | nil => rfl
  | cons hpart _ ih => rw [filterMap_cons, filterMap_cons, labelProperty?_like hinp hpart, ih]

theorem label_like (hinp : inp.Like v inp') (h : Token.Likes v ts ts') :
    (label inp ts).seen v = (label inp' ts').seen v := by
  have hparts := splitTokens_like "," h
  have htext := labelText?_like hparts
  have hsome : (labelText? (splitTokens "," ts)).isSome = (labelText? (splitTokens "," ts')).isSome := by
    simpa only [Option.isSome_map] using congrArg Option.isSome htext
  have hrest : List.Forall₂ (Token.Likes v)
      (if (labelText? (splitTokens "," ts)).isSome then (splitTokens "," ts).tail else splitTokens "," ts)
      (if (labelText? (splitTokens "," ts')).isSome then
        (splitTokens "," ts').tail else splitTokens "," ts') := by
    rw [hsome]
    split
    · simpa only [drop_one] using forall₂_drop 1 hparts
    · exact hparts
  have hproperties := labelProperties_like hinp hrest
  have hget := fun key => congrArg (Keyed.get? · key) hproperties
  simp only [Keyed.get?_map_values] at hget
  have hlocked := congrArg Prod.snd (getD_eq_of_map (hget "locked") "")
  have hraw : v.raw = Prod.fst ∘ valueSeen v := rfl
  simp only [valueSeen, affirms] at hlocked
  simp only [label, Label.seen, Label.mk.injEq]
  refine ⟨getD_eq_of_map htext "", ?_, hlocked, ?_⟩
  · rw [hraw, ← Option.map_map, ← Option.map_map, hget]
  · have hpair : (Prod.map id v.raw : String × String → _) = Prod.map id Prod.fst ∘ Prod.map id
      (valueSeen v) := rfl
    rw [hpair, ← map_map, ← map_map, hproperties]

theorem bracketText?_like (hinp : inp.Like v inp') (h : Token.Likes v ts ts') :
    (bracketText? inp ts).map v.raw = (bracketText? inp' ts').map v.raw := by
  cases h with
  | nil => rfl
  | cons ht hts =>
    rw [bracketText?, bracketText?, ht.isOp_eq]
    split
    · have htext := hinp.textOf (Token.Likes.takeWhile hts fun t t' ht => congrArg (!·) (ht.isOp_eq "]"))
      rw [Option.map_some, Option.map_some, htext]
    · rfl

theorem arrayLength?_like (hinp : inp.Like v inp') (h : Token.Likes v ts ts') :
    (arrayLength? inp ts).map v.raw = (arrayLength? inp' ts').map v.raw := by
  have hbefore : Token.Likes v (ts.takeWhile fun t => !t.isWord "of")
    (ts'.takeWhile fun t => !t.isWord "of") :=
    h.takeWhile fun t t' ht => congrArg (!·) (ht.isWord_eq "of")
  unfold arrayLength?
  generalize ts.takeWhile _ = us at hbefore ⊢
  generalize ts'.takeWhile _ = us' at hbefore ⊢
  rcases hbefore with _ | ⟨ht, _ | ⟨hu, hmore⟩⟩
  · rfl
  · rfl
  · dsimp only
    rw [ht.isOp_eq]
    split
    · rw [Option.map_some, Option.map_some, hinp.textOf (Token.Likes.dropLast (.cons hu hmore))]
    · rfl

theorem subtype?_like (ht : t.Like v t') (h : Token.Likes v ts ts') :
    (subtype? t ts).map v.see = (subtype? t' ts').map v.see := by
  cases h with
  | nil => rfl
  | cons hu _ =>
    rw [subtype?, subtype?, ht.lower_eq, hu.isName_eq, hu.kind_eq]
    split
    · rw [Option.map_some, Option.map_some, hu.see_value]
    · rfl

/-- Types that are read from tokens that look the same look the same. -/
theorem typeRef_like (hinp : inp.Like v inp') {first first' : Token} (hfirst : first.Same v first')
    {rest rest' : List Token}
    (hrest : Token.Likes v rest rest') :
    (typeRef inp first rest).seen v = (typeRef inp' first' rest').seen v := by
  have htext := hinp.textOf (.cons hfirst hrest)
  have hlength := arrayLength?_like hinp hrest
  rw [typeRef.eq_def inp, typeRef.eq_def inp', hfirst.isWord_eq, hfirst.isWord_eq]
  dsimp only
  split
  · simp only [TypeRef.seen, hfirst.see_value, htext, Option.map_some, hfirst.start_eq]
  split
  · have hof : Token.Likes v (rest.dropWhile fun t => !t.isWord "of")
      (rest'.dropWhile fun t => !t.isWord "of") :=
      hrest.dropWhile fun t t' ht => congrArg (!·) (ht.isWord_eq "of")
    -- both lists end before `of`, at it, or go on with the type of the elements
    split
    · next heq =>
      rw [heq] at hof
      rw [forall₂_nil_left_iff.1 hof]
      simp only [TypeRef.seen, hfirst.see_value, htext, Option.map_some, hfirst.start_eq, Option.map_none]
    · next t heq =>
      rw [heq] at hof
      obtain ⟨t', _, -, hnil, heq'⟩ := forall₂_cons_left_iff.1 hof
      rw [forall₂_nil_left_iff] at hnil
      rw [heq', hnil]
      simp only [TypeRef.seen, hfirst.see_value, htext, Option.map_some, hfirst.start_eq,
        hlength, Option.map_none]
    · next t e es heq =>
      have hshorter : es.length < rest.length := by
        have hle := (dropWhile_suffix (fun t : Token => !t.isWord "of") (l := rest)).length_le
        rw [heq, length_cons, length_cons] at hle
        omega
      rw [heq] at hof
      obtain ⟨t', _, -, hcons, heq'⟩ := forall₂_cons_left_iff.1 hof
      obtain ⟨e', es', he, hes, rfl⟩ := forall₂_cons_left_iff.1 hcons
      have helement := typeRef_like hinp he hes
      rw [heq']
      simp only [TypeRef.seen, hfirst.see_value, htext, Option.map_some, hfirst.start_eq, hlength,
        Option.map_none, helement]
  · have hbracket := bracketText?_like hinp hrest
    have hnone : (bracketText? inp rest).isNone = (bracketText? inp' rest').isNone := by
      simpa only [Option.isNone_map] using congrArg Option.isNone hbracket
    have hlast : (rest.getLast?.map (·.isWord "temporary")).getD false =
        (rest'.getLast?.map (·.isWord "temporary")).getD false := by
      cases hrest with
      | nil => rfl
      | cons ht hts =>
        rw [getLast?_cons, getLast?_cons]
        exact (Token.Likes.getLastD hts ht.toLike).isWord_eq "temporary"
    have hsubtype := subtype?_like hfirst.toLike hrest
    rw [hnone, hlast]
    split <;> simp only [TypeRef.seen, hfirst.see_value, htext, Option.map_some, hfirst.start_eq, hbracket,
      hsubtype, Option.map_none]
termination_by rest.length
decreasing_by all_goals omega

theorem typeLabel?_like (hinp : inp.Like v inp') (ht : t.Like v t') (h : Token.Likes v ts ts') :
    (typeLabel? inp t ts).map (Label.seen v) = (typeLabel? inp' t' ts').map (Label.seen v) := by
  rw [typeLabel?, typeLabel?, ht.isWord_eq]
  split
  · rw [Option.map_some, Option.map_some, label_like hinp h]
  · rfl

end

end Reading

end AlLint
