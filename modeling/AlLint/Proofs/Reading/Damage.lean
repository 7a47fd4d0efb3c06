import AlLint.Proofs.Reading.ObjectsAlike
import AlLint.Proofs.Reading.Round
import AlLint.Proofs.Reading.Writing

/-!
# Damage stays where it is

An object that cannot be read in full does not keep those after it from being read, if its braces are
balanced. This is so because hardly a reader passes a closing brace: `Move` has the one way to do so, and it
is taken only within another brace. So a reader that is given the tokens `a ++ b` before the end of `a` stays
before the end of `a`, as long as there is a brace of `a` left to be closed.

Three things do pass closing braces. An attribute goes on to its bracket; a type or the value of a property,
which come after a colon and an equals sign, go on to the end of the brackets opened in them; `namespace` and
`using` go on to a semicolon. So it must be asked of `a` that these end before the next closing brace
(`Contained`). Brackets left open elsewhere, in calls or in the arguments of elements, do no harm.
-/

namespace AlLint.Reading

open Cursor List Bool

/-! ## Balanced tokens -/

def opened (ts : List Token) : Nat := ts.countP (·.isOp "\x7b")

def closed (ts : List Token) : Nat := ts.countP (·.isOp "\x7d")

/-- The braces are balanced, and the last of them is the last token. -/
structure Balanced (a : List Token) : Prop where
  nested : ∀ n ≤ a.length, closed (a.take n) ≤ opened (a.take n)
  even : opened a = closed a
  ended : ∀ t ∈ a.getLast?, t.isOp "\x7d" = true

/-- What goes on over closing braces does not do so from `t` on, which `s` comes after: a type or value is
over before the next closing brace, an attribute as well, and `namespace` and `using` come to a semicolon. The
number of an object can be read. -/
structure EndsFrom (t : Token) (s : List Token) : Prop where
  values : t.isOpIn [":", "="] = true → closed (collect (·.isOp ";") 0 s).2 = closed s
  attributes : t.isOp "[" = true → ∃ found ∈ (attributeEnd 0 t s).toOption, closed found.2 = closed s
  directives : t.isWordIn ["namespace", "using"] = true → ∃ u ∈ s, u.isOp ";" = true
  numbers : t.isWordIn objectTypes = true →
    ∀ u ∈ s.head?, u.kind = .number → u.value.toList.countP Text.isDigitForm ≤ maxDigits

def Contained (a : List Token) : Prop := ∀ t s, t :: s <:+ a → EndsFrom t s

instance (a : List Token) : Decidable (Balanced a) :=
  decidable_of_iff
    ((∀ n ≤ a.length, closed (a.take n) ≤ opened (a.take n)) ∧ opened a = closed a ∧
      ∀ t ∈ a.getLast?, t.isOp "\x7d" = true)
    ⟨fun h => ⟨h.1, h.2.1, h.2.2⟩, fun h => ⟨h.nested, h.even, h.ended⟩⟩

instance (t : Token) (s : List Token) : Decidable (EndsFrom t s) :=
  decidable_of_iff
    ((t.isOpIn [":", "="] = true → closed (collect (·.isOp ";") 0 s).2 = closed s) ∧
      (t.isOp "[" = true → ∃ found ∈ (attributeEnd 0 t s).toOption, closed found.2 = closed s) ∧
      (t.isWordIn ["namespace", "using"] = true → ∃ u ∈ s, u.isOp ";" = true) ∧
      (t.isWordIn objectTypes = true →
        ∀ u ∈ s.head?, u.kind = .number → u.value.toList.countP Text.isDigitForm ≤ maxDigits))
    ⟨fun h => ⟨h.1, h.2.1, h.2.2.1, h.2.2.2⟩, fun h => ⟨h.values, h.attributes, h.directives, h.numbers⟩⟩

section

variable {a p q s : List Token} {t : Token}

theorem contained_nil : Contained [] := by
  intro t s hs
  cases suffix_nil.1 hs

theorem Contained.cons (ht : EndsFrom t a) (ha : Contained a) : Contained (t :: a) := by
  intro u s hs
  rcases suffix_cons_iff.1 hs with heq | hs
  · obtain ⟨rfl, rfl⟩ := cons_eq_cons.1 heq
    exact ht
  · exact ha u s hs

instance instDecidableContained : (a : List Token) → Decidable (Contained a)
  | [] => .isTrue contained_nil
  | t :: a =>
    have := instDecidableContained a
    decidable_of_iff (EndsFrom t a ∧ Contained a)
      ⟨fun h => .cons h.1 h.2, fun h => ⟨h t a suffix_rfl, fun u s hs => h u s (hs.trans (suffix_cons t a))⟩⟩

theorem opened_append (p s : List Token) : opened (p ++ s) = opened p + opened s := countP_append

theorem closed_append (p s : List Token) : closed (p ++ s) = closed p + closed s := countP_append

theorem closed_le (hs : s <:+ q) : closed s ≤ closed q := hs.sublist.countP_le

theorem Balanced.opened_le (ha : Balanced a) (hs : s <:+ a) : opened s ≤ closed s := by
  obtain ⟨p, rfl⟩ := hs
  have hp := ha.nested p.length (by simp)
  have heven := ha.even
  rw [take_left] at hp
  rw [opened_append, closed_append] at heven
  omega

theorem Balanced.closed_pos (ha : Balanced a) (hs : s <:+ a) (hne : s ≠ []) : 0 < closed s := by
  obtain ⟨p, rfl⟩ := hs
  have hlast := ha.ended (s.getLast hne)
    (by rw [getLast?_append_of_ne_nil _ hne]; exact getLast_mem_getLast? hne)
  exact countP_pos_iff.2 ⟨_, getLast_mem hne, hlast⟩

theorem Balanced.ne_nil (ha : Balanced a) (hs : t :: s <:+ a) (ht : t.isOp "\x7d" = false) : s ≠ [] := by
  have hpos := ha.closed_pos hs (cons_ne_nil t s)
  rintro rfl
  simp [closed, ht] at hpos

end

/-! ## Moves before the end of balanced tokens -/

/-- The cursor is past a token of `a`, before the end of `a`, at which `b` goes on, and the tokens of `a` that
are left close `k` braces more than they open. -/
def Within (a b : List Token) (k : Nat) (c : Cursor) : Prop :=
  ∃ s, c.rest = s ++ b ∧ c.last :: s <:+ a ∧ s ≠ [] ∧ opened s + k ≤ closed s

section

variable {inp : Input} {a b p q s : List Token} {t : Token} {k k' : Nat} {c d : Cursor}

/-- A cursor stays within if no closing brace is passed. -/
theorem Within.after (taken left : List Token) (ha : Balanced a) (hs : t :: (taken ++ left) <:+ a)
    (hne : taken ++ left ≠ []) (hcount : opened (taken ++ left) + k ≤ closed (taken ++ left))
    (hclosed : closed left = closed (taken ++ left)) (hrest : d.rest = left ++ b)
    (hlast : d.last = taken.getLast?.getD t) : Within a b k d := by
  have hsuffix : d.last :: left <:+ a := by
    obtain ⟨front, hfront⟩ := getLast?_eq_some_iff.1
      (hlast ▸ getLast?_cons : (t :: taken).getLast? = some d.last)
    rw [← cons_append, hfront, append_assoc] at hs
    exact (suffix_append front _).trans hs
  have hpos := ha.closed_pos ((suffix_cons t _).trans hs) hne
  refine ⟨left, hrest, hsuffix, ?_, ?_⟩
  · rintro rfl
    simp only [closed, countP_nil] at hclosed hpos
    omega
  · rw [opened_append] at hcount
    omega

/-- If collecting up to a semicolon passes no closing brace of `s`, then neither does it with more stops and
more tokens after `s`. -/
theorem collect_stays {stops : Token → Bool} (hstops : ∀ t : Token, t.isOp ";" = true → stops t = true)
    (b : List Token) {depth : Nat} (hclosed : closed (collect (·.isOp ";") depth s).2 = closed s) (hpos : 0 < closed s) :
    ∃ taken left, collect stops depth (s ++ b) = (taken, left ++ b) ∧ s = taken ++ left ∧
      closed left = closed s := by
  induction s generalizing depth with
  | nil => cases hpos
  | cons t s ih =>
    rw [cons_append, collect]
    split
    · exact ⟨[], t :: s, rfl, rfl, rfl⟩
    next hgo =>
    -- where it does not stop, collecting up to a semicolon goes on as well, and then the token is no brace
    have hgo' : (depth = 0 && (t.isOp ";" || t.isOp "\x7d")) = false := by
      refine eq_false_iff.2 fun h => hgo ?_
      simp only [and_eq_true, or_eq_true] at h ⊢
      exact ⟨h.1, h.2.imp_left (hstops t)⟩
    rw [collect, hgo', if_neg Bool.false_ne_true] at hclosed
    have hstep : ∀ {depth'}, closed (collect (·.isOp ";") depth' s).2 = closed (t :: s) →
        ∃ taken left, (t :: (collect stops depth' (s ++ b)).1, (collect stops depth' (s ++ b)).2) =
          (taken, left ++ b) ∧ t :: s = taken ++ left ∧ closed left = closed (t :: s) := by
      intro depth' h
      have hle : closed (collect (·.isOp ";") depth' s).2 ≤ closed s :=
        closed_le ⟨_, collect_append (·.isOp ";") depth' s⟩
      have heq : closed (t :: s) = closed s := Nat.le_antisymm (h ▸ hle) (closed_le (suffix_cons t s))
      rw [heq] at h hpos ⊢
      obtain ⟨taken, left, hcollect, rfl, hleft⟩ := ih h hpos
      exact ⟨t :: taken, left, by rw [hcollect], rfl, hleft⟩
    split
    · next hopen =>
      rw [if_pos hopen] at hclosed
      exact hstep hclosed
    next hopen =>
    rw [if_neg hopen] at hclosed
    split
    · next hclose =>
      rw [if_pos hclose] at hclosed
      split
      · exact ⟨[], t :: s, rfl, rfl, rfl⟩
      · next hdepth =>
        rw [if_neg hdepth] at hclosed
        exact hstep hclosed
    · next hclose =>
      rw [if_neg hclose] at hclosed
      exact hstep hclosed

theorem attributeEnd_append {depth : Nat} {last closing : Token} {out : List Token} (b : List Token)
    (h : attributeEnd depth last s = .ok (closing, out)) :
    attributeEnd depth last (s ++ b) = .ok (closing, out ++ b) := by
  fun_induction attributeEnd depth last s with
  | case1 => cases h
  | case2 depth last t s hopen ih => simp only [cons_append, attributeEnd, hopen, if_true, ih h]
  | case3 last t s hopen hclose =>
    cases h
    simp [attributeEnd, hopen, hclose]
  | case4 depth last t s hopen hclose hdepth ih => simp [attributeEnd, hopen, hclose, hdepth, ih h]
  | case5 depth last t s hopen hclose ih => simp [attributeEnd, hopen, hclose, ih h]

theorem Within.rest_eq_cons (h : Within a b k c) {ts : List Token} (hc : c.rest = t :: ts) :
    ∃ s, ts = s ++ b ∧ t :: s <:+ a ∧ opened (t :: s) + k ≤ closed (t :: s) := by
  obtain ⟨s, hrest, hs, hne, hcount⟩ := h
  obtain ⟨u, s, rfl⟩ := exists_cons_of_ne_nil hne
  obtain ⟨rfl, rfl⟩ := cons_eq_cons.1 (hc.symm.trans hrest)
  exact ⟨s, rfl, (suffix_cons _ _).trans hs, hcount⟩

theorem Within.past (ha : Balanced a) (h : Within a b k c) {ts : List Token} (hc : c.rest = t :: ts)
    (ht : t.isOp "\x7d" = false) : Within a b k (c.past t ts) := by
  obtain ⟨s, rfl, hs, hcount⟩ := h.rest_eq_cons hc
  refine ⟨s, rfl, hs, ha.ne_nil hs ht, ?_⟩
  simp only [opened, closed, countP_cons, ht, false_eq_true, if_false] at hcount ⊢
  omega

/-- **No move leads past the end of balanced tokens** before all their braces are closed. -/
theorem Move.within (ha : Balanced a) (ha' : Contained a) (h : Move inp k c k' d) (hc : Within a b k c) :
    Within a b k' d := by
  cases h with
  | past hrest ht => exact hc.past ha hrest ht
  | @enter _ _ t _ hrest ht =>
    have hbrace := not_brace_of_isOp ht (by decide)
    obtain ⟨s, rfl, hs, hcount⟩ := hc.rest_eq_cons hrest
    refine ⟨s, rfl, hs, ha.ne_nil hs hbrace, ?_⟩
    simp only [opened, closed, countP_cons, ht, hbrace, if_true, false_eq_true, if_false] at hcount ⊢
    omega
  | @leave n _ t _ hrest ht =>
    have hopen : t.isOp "\x7b" = false := isOp_of_brace ht (by decide)
    obtain ⟨s, rfl, hs, hcount⟩ := hc.rest_eq_cons hrest
    have hleft : opened s + (n + 1) ≤ closed s := by
      simp only [opened, closed, countP_cons, ht, hopen, if_true, false_eq_true, if_false] at hcount ⊢
      omega
    refine ⟨s, rfl, hs, ?_, hleft⟩
    rintro rfl
    exact absurd hleft (by simp [opened, closed])
  | forget =>
    obtain ⟨s, hrest, hs, hne, hcount⟩ := hc
    exact ⟨s, hrest, hs, hne, by omega⟩
  | report => exact hc
  | collect hlast hends =>
    -- the type or value that is collected is over before the next closing brace
    obtain ⟨s, hrest, hs, hne, hcount⟩ := hc
    have hpos := ha.closed_pos ((suffix_cons _ s).trans hs) hne
    obtain ⟨taken, left, hcollect, rfl, hclosed⟩ := collect_stays hends b ((ha' _ s hs).values hlast) hpos
    rw [← hrest] at hcollect
    exact .after taken left ha hs hne hcount hclosed (congrArg Prod.snd hcollect)
      (congrArg (fun parts => parts.1.getLast?.getD c.last) hcollect)
  | @skipAttribute _ _ t _ hrest ht =>
    -- the end of the attribute is found in `a`, so it is found in `a` and then `b`
    obtain ⟨s, rfl, hs, hcount⟩ := hc.rest_eq_cons hrest
    obtain ⟨⟨closing, out⟩, hfound, hclosed⟩ := (ha' t s hs).attributes ht
    have hend : attributeEnd 0 t s = .ok (closing, out) := by
      generalize attributeEnd 0 t s = x at hfound
      cases x with
      | error => cases hfound
      | ok found => exact congrArg Except.ok (Option.some.inj hfound)
    obtain ⟨before, rfl⟩ := attributeEnd_eq_ok hend
    obtain ⟨hlt, heq⟩ := attributeText_eq_ok inp hrest (attributeEnd_append b hend)
    rw [heq]
    have hbrace := not_brace_of_isOp ht (by decide)
    refine .after (before ++ [closing]) out ha (by simpa using hs) (by simp) ?_ (by simpa using hclosed) rfl
      (by simp [Outcome.next, Cursor.past])
    simp only [opened, closed, countP_cons, hbrace, false_eq_true, if_false] at hcount
    simpa [opened, closed] using Nat.le_trans (Nat.add_le_add_right (Nat.le_add_right _ _) k) hcount

theorem Moves.within (ha : Balanced a) (ha' : Contained a) (h : Moves inp k c k' d) (hc : Within a b k c) :
    Within a b k' d := by
  induction h with
  | refl => exact hc
  | tail _ hmove ih => exact hmove.within ha ha' ih

end

/-! ## Objects before the end of balanced tokens -/

section

variable {inp : Input} {a b s : List Token} {c d : Cursor}

/-- The tokens start with the keyword of an object. -/
def StartsObject (b : List Token) : Prop := ∃ t ∈ b.head?, t.isWordIn objectTypes = true

theorem MembersEnd.within {keyword : String} {k : Nat} (h : MembersEnd inp keyword c d)
    (hc : Within a b (k + 1) c) :
    ∃ s, d.rest = s ++ b ∧ s <:+ a := by
  cases h with
  | closed hrest ht =>
    obtain ⟨s, rfl, hs, -⟩ := hc.rest_eq_cons hrest
    exact ⟨s, rfl, (suffix_cons _ s).trans hs⟩
  | missing hrest =>
    obtain ⟨s, hs, -⟩ := hc
    exact ⟨[], by simp_all [Cursor.report], nil_suffix⟩

/-- Skipping to the next object stops at the one that `b` starts with: the braces that were passed on the way
are closed. -/
theorem skipObject_within (ha : Balanced a) (hb : StartsObject b) (depth : Nat) (last : Token)
    (issues : List Issue) (hs : s <:+ a) (hdepth : opened s + depth ≤ closed s) :
    ∃ left, (skipObject depth last issues (s ++ b)).rest = left ++ b ∧ left <:+ s := by
  induction s generalizing depth last with
  | nil =>
    obtain ⟨t, ht, hword⟩ := hb
    obtain ⟨ts, rfl⟩ := head?_eq_some_iff.1 ht
    have hzero : depth = 0 := by
      simp only [opened, closed, countP_nil] at hdepth
      omega
    have hop : ∀ op, t.isOp op = false := by
      intro op
      simp only [Token.isWordIn, and_eq_true, beq_iff_eq] at hword
      simp [Token.isOp, Token.isOpIn, hword.1]
    refine ⟨[], ?_, suffix_rfl⟩
    rw [nil_append, skipObject, hop, hop, hword, hzero]
    rfl
  | cons t s ih =>
    have hs' : s <:+ a := (suffix_cons t s).trans hs
    have hle := ha.opened_le hs'
    have hafter : ∀ depth', opened s + depth' ≤ closed s →
        ∃ left, (skipObject depth' t issues (s ++ b)).rest = left ++ b ∧ left <:+ t :: s := by
      intro depth' hdepth'
      obtain ⟨left, hrest, hleft⟩ := ih depth' t hs' hdepth'
      exact ⟨left, hrest, hleft.trans (suffix_cons t s)⟩
    simp only [opened, closed, countP_cons] at hdepth hle hafter
    rw [cons_append, skipObject]
    split
    · next hopen =>
      have hbrace := not_brace_of_isOp hopen (by decide)
      simp only [hopen, hbrace, if_true, false_eq_true, if_false] at hdepth
      exact hafter (depth + 1) (by omega)
    next hopen =>
    split
    · next hbrace =>
      simp only [hopen, hbrace, if_true, false_eq_true, if_false] at hdepth
      exact hafter (depth - 1) (by omega)
    next hbrace =>
    split
    · exact ⟨t :: s, rfl, suffix_rfl⟩
    · exact hafter depth (by simp only [hopen, hbrace, false_eq_true, if_false] at hdepth; omega)

theorem skipDirective_within (last : Token) (issues : List Issue) (b : List Token)
    (h : ∃ t ∈ s, t.isOp ";" = true) :
    ∃ left, (skipDirective last issues (s ++ b)).rest = left ++ b ∧ left <:+ s := by
  induction s generalizing last with
  | nil =>
    obtain ⟨_, hmem, -⟩ := h
    cases hmem
  | cons t s ih =>
    rw [cons_append, skipDirective]
    split
    · exact ⟨s, rfl, suffix_cons t s⟩
    · next hop =>
      obtain ⟨u, hmem, hu⟩ := h
      rcases mem_cons.1 hmem with rfl | hmem
      · exact absurd hu hop
      obtain ⟨left, hrest, hleft⟩ := ih t ⟨u, hmem, hu⟩
      exact ⟨left, hrest, hleft.trans (suffix_cons t s)⟩

/-- **A round of the loop over objects that starts before the end of balanced tokens does not go beyond
it.** -/
theorem Round.within (ha : Balanced a) (ha' : Contained a) (hb : StartsObject b) (h : Round inp .objects c d)
    (hc : c.rest = s ++ b) (hs : s <:+ a) (hne : s ≠ []) : ∃ left, d.rest = left ++ b ∧ left <:+ a := by
  obtain ⟨t, s, rfl⟩ := exists_cons_of_ne_nil hne
  have hs' : s <:+ a := (suffix_cons t s).trans hs
  have hle := ha.opened_le hs'
  -- an object starts with a keyword, so there is more of `a` after it
  have hobject : ∀ {ts}, c.rest = t :: ts → t.isWordIn objectTypes = true → Within a b 0 (c.past t ts) := by
    intro ts hts hword
    have hbrace : t.isOp "\x7d" = false := by
      refine eq_false_iff.2 fun hop => ?_
      rw [isWordIn_of_isOpIn hop] at hword
      cases hword
    obtain ⟨-, rfl⟩ := cons_eq_cons.1 (hts.symm.trans hc)
    exact ⟨s, rfl, hs, ha.ne_nil hs hbrace, hle⟩
  have hcons : ∀ {u ts}, c.rest = u :: ts → u = t ∧ ts = s ++ b := by
    intro u ts hu
    exact cons_eq_cons.1 (hu.symm.trans hc)
  cases h with
  | @recover _ _ _ issue h =>
    cases h with
    | stray hrest hdir hobj =>
      obtain ⟨rfl, rfl⟩ := hcons hrest
      obtain ⟨left, hleft, hsuffix⟩ := skipObject_within ha hb 0 _ _ hs' hle
      exact ⟨left, hleft, hsuffix.trans hs'⟩
    | @object _ e _ _ _ _ hrest hobj ho =>
      obtain ⟨rfl, rfl⟩ := hcons hrest
      obtain ⟨r, hr, hlast, -, hcount⟩ := Moves.within ha ha' (ended_object ho) (hobject hrest hobj)
      have hrs := (suffix_cons _ r).trans hlast
      rw [hr]
      obtain ⟨left, hleft, hsuffix⟩ := skipObject_within ha hb 0 e.last (e.issues ++ [issue]) hrs hcount
      exact ⟨left, hleft, hsuffix.trans hrs⟩
  | @directive _ u _ hrest hdir =>
    obtain ⟨rfl, rfl⟩ := hcons hrest
    obtain ⟨left, hleft, hsuffix⟩ := skipDirective_within u c.issues b ((ha' _ _ hs).directives hdir)
    exact ⟨left, hleft, hsuffix.trans hs'⟩
  | object hrest hobj ho =>
    obtain ⟨rfl, rfl⟩ := hcons hrest
    obtain ⟨e, hmoves, hend⟩ := ended_object ho
    exact hend.within (hmoves.within ha ha' (hobject hrest hobj))

theorem exists_rounds_within (inp : Input) (ha : Balanced a) (ha' : Contained a) (hb : StartsObject b)
    {c : Cursor} {s : List Token}
    (hc : c.rest = s ++ b) (hs : s <:+ a) : ∃ d, Rounds inp .objects c d ∧ d.rest = b := by
  by_cases hnil : s = []
  · exact ⟨c, .refl, by rw [hc, hnil, nil_append]⟩
  obtain ⟨t, s, rfl⟩ := exists_cons_of_ne_nil hnil
  rcases exists_round inp (c := c) (by simp [hc]) with ⟨d, hround⟩ |
    ⟨n, keyword, number, rest, hrest, hword, hkind, hall, hlength, hlt⟩
  · have hsize := hround.size_lt
    obtain ⟨left, hleft, hsuffix⟩ := hround.within ha ha' hb hc hs hnil
    obtain ⟨e, hrounds, he⟩ := exists_rounds_within inp ha ha' hb hleft hsuffix
    exact ⟨e, .head hround hrounds, he⟩
  · -- the number is a token of `a`, since the keyword before it is not the last one
    obtain ⟨rfl, hnumber⟩ := cons_eq_cons.1 (hrest.symm.trans hc)
    have hbrace : keyword.isOp "\x7d" = false := by
      refine eq_false_iff.2 fun hop => ?_
      rw [isWordIn_of_isOpIn hop] at hword
      cases hword
    obtain ⟨u, s, rfl⟩ := exists_cons_of_ne_nil (ha.ne_nil hs hbrace)
    obtain ⟨rfl, -⟩ := cons_eq_cons.1 hnumber
    have hfits := (ha' _ _ hs).numbers hword number rfl hkind
    rw [countP_eq_length.2 fun c hc => all_eq_true.1 hall c hc, hlength, maxDigits] at hfits
    omega
termination_by c.size
decreasing_by all_goals omega

/-! ## What was noted before does not matter -/

/-- Objects are read in the same way after whatever was read before. -/
theorem objects_eq_of_startsObject (inp : Input) (hb : StartsObject b) (last last' : Token)
    (issues issues' : List Issue) :
    (objects inp ⟨last, b, issues⟩).map Prod.fst = (objects inp ⟨last', b, issues'⟩).map Prod.fst := by
  obtain ⟨t, ht, -⟩ := hb
  obtain ⟨ts, rfl⟩ := head?_eq_some_iff.1 ht
  -- the token before the keyword is never looked at
  have hlast : ∀ last last' issues, objects inp ⟨last, t :: ts, issues⟩ = objects inp
    ⟨last', t :: ts, issues⟩ := by
    intro last last' issues
    rw [objects_cons (c := ⟨last, t :: ts, issues⟩) rfl, objects_cons (c := ⟨last', t :: ts, issues⟩) rfl]
    dsimp only [Cursor.past]
    rcases object inp t ⟨t, ts, issues⟩ with _ | _ | _ <;> rfl
  have hnone : ∀ issues, (objects inp ⟨t, t :: ts, issues⟩).map Prod.fst =
    (objects inp ⟨t, t :: ts, []⟩).map Prod.fst := by
    intro issues
    obtain ⟨oversized, h, h'⟩ | ⟨os, found, os', found', h, h', hos, -⟩ :=
      objects_like (show inp.Like _ inp from .exact inp) (.among t (t :: ts) issues)
    · rw [h, h']
    · have hos : os.map (ObjectSyntax.seen .plain) = os'.map (ObjectSyntax.seen .plain) := hos
      rw [map_eq_self ObjectSyntax.seen_plain, map_eq_self ObjectSyntax.seen_plain] at hos
      rw [h, h', hos]
      rfl
  rw [hlast last t, hlast last' t, hnone, hnone issues']

/-- **Damage in an object does not hide the next one**: the objects found in `a` and then `b` end with those
found in `b`, whatever else is wrong with `a`. -/
theorem objects_after_damage (ha : Balanced a) (ha' : Contained a) (hb : StartsObject b) (last last' : Token)
    (issues issues' : List Issue) :
    ∃ first, (objects inp ⟨last, a ++ b, issues⟩).map Prod.fst =
      (objects inp ⟨last', b, issues'⟩).map fun found => first ++ found.1 := by
  obtain ⟨d, hrounds, hd⟩ := exists_rounds_within inp (c := ⟨last, a ++ b, issues⟩) ha ha' hb rfl suffix_rfl
  obtain ⟨first, hfirst⟩ := objects_of_rounds hrounds
  have hsame := objects_eq_of_startsObject inp hb d.last last' d.issues issues'
  refine ⟨first, ?_⟩
  obtain ⟨dlast, rest, dissues⟩ := d
  obtain rfl : rest = b := hd
  rw [hfirst]
  generalize objects inp ⟨dlast, rest, dissues⟩ = x at hsame ⊢
  generalize objects inp ⟨last', rest, issues'⟩ = x' at hsame ⊢
  cases x <;> cases x' <;> simp_all [Except.map]

end

/-- A codeunit with a procedure that breaks off within the arguments of a call. -/
def brokenProcedure : List Token :=
  [Lexeme.word "codeunit", .number "1", .name "A" false, .sign "\x7b", .word "procedure",
    .name "Post" false, .sign "(",
    .sign ")", .word "begin", .name "Post" false, .sign "(", .sign "\x7d"].map Lexeme.token

/-- A table with nothing in it. -/
def emptyTable : List Token := [Lexeme.word "table", .sign "\x7b", .sign "\x7d"].map Lexeme.token

theorem objects_after_broken_procedure :
    Balanced brokenProcedure ∧ Contained brokenProcedure ∧ StartsObject emptyTable ∧
      ∃ first, (objects ⟨"", (Lexeme.sign "").token⟩
        ⟨(Lexeme.sign "").token, brokenProcedure ++ emptyTable, []⟩).map Prod.fst =
        (objects ⟨"", (Lexeme.sign "").token⟩ ⟨(Lexeme.sign "").token, emptyTable, []⟩).map fun found =>
          first ++ found.1 := by
  have ha : Balanced brokenProcedure := by decide
  have ha' : Contained brokenProcedure := by decide
  have hb : StartsObject emptyTable := ⟨_, rfl, by decide⟩
  exact ⟨ha, ha', hb, objects_after_damage ha ha' hb _ _ _ _⟩

/-! ## What an open bracket does -/

section

variable (inp : Input) (keyword : String) (pending : Pending) {c : Cursor} {t : Token} {ts : List Token}

theorem members_of_nil (hc : c.rest = []) : (members inp keyword pending c).next.rest = [] := by
  rw [members]
  split
  · exact hc
  · next hc' => cases hc.symm.trans hc'

theorem members_of_brace (hc : c.rest = t :: ts) (ht : t.isOp "\x7d" = true) :
    (members inp keyword pending c).next = c.past t ts := by
  rw [members]
  split
  · next hc' => cases hc.symm.trans hc'
  · next hc' =>
    cases hc.symm.trans hc'
    rw [if_pos ht]

theorem members_of_openAttribute {last : Token} (hc : c.rest = t :: ts) (ht : t.isOp "[" = true)
    (h : attributeEnd 0 t ts = .error last) : (members inp keyword pending c).next.rest = [] := by
  have hbrace := not_brace_of_isOp ht (by decide)
  have hsemicolon : t.isOp ";" = false := by
    simp only [Token.isOp_iff] at ht
    simp [Token.isOp, Token.isOpIn, ht.2]
  rw [members]
  split
  · next hc' => cases hc.symm.trans hc'
  · next hc' =>
    cases hc.symm.trans hc'
    simp only [hbrace, hsemicolon, ht, if_true, false_eq_true, if_false, attributeText_eq_fail hc h]
    refine members_of_nil inp keyword _ ?_
    unfold resumeMember
    split
    · rfl
    · next hsize => exact absurd (Nat.zero_le _) hsize

theorem object_eq_of_brace (start : Token) (hc : c.rest = t :: ts) (ht : t.isOp "\x7b" = true) :
    ∃ o h, object inp start c = .ok (.ok o (members inp start.lower {} (c.past t ts)).next h) ∧
      o.body.keyword = start.lower ∧
      o.body.codes = (members inp start.lower {} (c.past t ts)).value.codes ∧
      o.body.children = (members inp start.lower {} (c.past t ts)).value.children := by
  obtain ⟨last, rest, issues⟩ := c
  obtain rfl : rest = t :: ts := hc
  obtain ⟨hkind, htext⟩ := Token.isOp_iff.1 ht
  have hnumber : objectNumber ⟨last, t :: ts, issues⟩ =
    .ok ⟨none, ⟨last, t :: ts, issues⟩, Nat.le_refl _⟩ := by
    simp [objectNumber, Cursor.accept, Cursor.take, hkind]
  have hname : objectName ⟨last, t :: ts, issues⟩ = ⟨"", ⟨last, t :: ts, issues⟩, Nat.le_refl _⟩ := by
    simp [objectName, Cursor.accept, Cursor.take, Token.isName, hkind]
  have hclauses : ∃ h, clauses inp start.lower {} ⟨last, t :: ts, issues⟩ = .ok {} ⟨t, ts, issues⟩ h := by
    refine ⟨by simp [Cursor.size], ?_⟩
    rw [clauses]
    simp [Cursor.acceptOp, Cursor.accept, Cursor.take, ht, Cursor.past]
  obtain ⟨hlt, hclauses⟩ := hclauses
  unfold object
  rw [hnumber]
  dsimp only [Except.map]
  generalize objectName _ = x at hname ⊢
  subst hname
  dsimp only
  generalize clauses _ _ _ _ = y at hclauses ⊢
  subst hclauses
  exact ⟨_, _, rfl, rfl, rfl, rfl⟩

/-- After an object that ends with the text, there is nothing left to be read. -/
theorem objects_of_last {o : ObjectSyntax} {d : Cursor} {h : d.size < (c.past t ts).size}
    (hc : c.rest = t :: ts)
    (ht : t.isWordIn objectTypes = true) (ho : object inp t (c.past t ts) = .ok (.ok o d h))
    (hd : d.rest = []) :
    objects inp c = .ok ([o], d.issues) := by
  rw [objects_cons hc, not_directive_of_object ht, ht, ho]
  simp only [false_eq_true, if_false, if_true, objects_nil hd, Except.map]

/-- A codeunit with an attribute that is not closed. -/
def openAttribute : List Token :=
  [Lexeme.word "codeunit", .sign "\x7b", .sign "[", .sign "\x7d"].map Lexeme.token

/-- **Balanced braces are not enough.** After the open attribute of a codeunit, with balanced braces, a table
is not found. -/
theorem open_attribute_hides_table :
    Balanced openAttribute ∧ StartsObject openAttribute ∧ StartsObject emptyTable ∧
      ∀ inp last issues,
        (objects inp ⟨last, openAttribute ++ emptyTable, issues⟩).map
          (fun found => found.1.map (·.body.keyword)) =
          .ok ["codeunit"] ∧
        (objects inp ⟨last, emptyTable, issues⟩).map (fun found => found.1.map (·.body.keyword)) =
          .ok ["table"] := by
  have hcodeunit : (Lexeme.word "codeunit").token.isWordIn objectTypes = true := by decide
  have htable : (Lexeme.word "table").token.isWordIn objectTypes = true := by decide
  refine ⟨by decide, ⟨_, rfl, hcodeunit⟩, ⟨_, rfl, htable⟩, fun inp last issues => ⟨?_, ?_⟩⟩
  · obtain ⟨o, h, ho, hkeyword, -⟩ := object_eq_of_brace inp (Lexeme.word "codeunit").token
      (c := ⟨(Lexeme.word "codeunit").token, openAttribute.tail ++ emptyTable, issues⟩) rfl (by decide)
    have hend := members_of_openAttribute inp (Lexeme.word "codeunit").token.lower {}
      (c := ⟨(Lexeme.sign "\x7b").token, openAttribute.tail.tail ++ emptyTable, issues⟩) rfl (by decide) rfl
    rw [objects_of_last inp (c := ⟨last, openAttribute ++ emptyTable, issues⟩) rfl hcodeunit ho hend]
    simp only [Except.map, map_cons, map_nil, hkeyword]
    decide
  · obtain ⟨o, h, ho, hkeyword, -⟩ := object_eq_of_brace inp (Lexeme.word "table").token
      (c := ⟨(Lexeme.word "table").token, emptyTable.tail, issues⟩) rfl (by decide)
    have hend := members_of_brace inp (Lexeme.word "table").token.lower {}
      (c := ⟨(Lexeme.sign "\x7b").token, emptyTable.tail.tail, issues⟩) rfl (by decide)
    rw [objects_of_last inp (c := ⟨last, emptyTable, issues⟩) rfl htable ho (congrArg Cursor.rest hend)]
    simp only [Except.map, map_cons, map_nil, hkeyword]
    decide

end

end AlLint.Reading
