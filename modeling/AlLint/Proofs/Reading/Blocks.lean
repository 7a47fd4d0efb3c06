import AlLint.Proofs.Reading.Advance
import AlLint.Proofs.Reading.MemberInverse

/-!
# A body ends with its block

The code between `begin` and `end` may be damaged in many ways, and its last `end` is still found, since readers
and recovery alike enter and leave blocks together with the words that open and close them. `Closes` follows the
words that are still to come; a reader is `Enclosed` by the blocks that it has to close.

One reader leaves a word behind: a case statement that is given up has been entered, and its own `end` is taken
for that of the block around it. In a loop up to `until` this does no harm in the end, as the loop skips an
`end` that it cannot use (`Covers`). Elsewhere the body ends too early. And a name may be any word, so `end`
behind a dot is a name and closes nothing.
-/

namespace AlLint.Reading

open Cursor List Token Option

variable {stack : List String} {closing : Token} {p : Token → Bool} {opening : Opening} {c₁ : Cursor}

/-! ## Balanced blocks -/

/-- What a token does to the words that are to close the open parts of code, innermost first. None if it closes
what is not open. -/
def nest (closers : List String) (t : Token) : Option (List String) :=
  match closer? t with
  | some closer => some (closer :: closers)
  | none =>
    if t.isWordIn ["end", "until"] then
      match closers with
      | [] => none
      | closer :: outer => if t.isWord closer then some outer else none
    else some closers

/-- A token behind which a name is read, whatever word it is. -/
def namesNext (t : Token) : Bool := t.isOpIn [".", "::"] || t.isWordIn ["for", "foreach"]

/-- The statement that some tokens start with can be read. -/
def CanRead (inp : Input) (ts : List Token) : Prop := ∀ c : Cursor, c.rest = ts → ∃ s d h, statement inp c = .ok s d h

/-- The tokens between the words that open and close a body, before `rest`. -/
structure Body (inp : Input) (inner : List Token) (closing : Token) (rest : List Token) : Prop where
  /-- Every part of code is closed by its own word. -/
  balanced : inner.foldlM nest [] = some []
  /-- There is no closing brace. -/
  plain : ∀ t ∈ inner, t.kind ≠ .eof ∧ t.isOp "\x7d" = false
  ended : closing.isWord "end" = true
  /-- No word that opens or closes a part of code is read as a name. -/
  names : (inner ++ [closing]).IsChain fun t u => namesNext t = true → u.isWordIn blockWords = false
  /-- No case statement is given up, unless in a loop up to `until`. -/
  cases : ∀ before t after closers, inner = before ++ t :: after → t.isWord "case" = true →
    before.foldlM nest [] = some closers → "until" ∉ closers → CanRead inp (t :: after ++ closing :: rest)

variable {inp : Input} {rest : List Token} {k k' : String} {ks tr : List String} {t : Token}
  {ts : List Token} {c d : Cursor}

/-- Up to where the words in a list have closed what they are to close, there are only tokens that will be read
well; there, `rest` is left. -/
inductive Closes (inp : Input) (rest : List Token) : List String → List Token → Prop where
  | done : Closes inp rest [] rest
  | step {k : String} {ks closers : List String} {t : Token} {ts : List Token} : t.kind ≠ .eof →
      t.isOp "\x7d" = false →
      (namesNext t = true → ∀ u ∈ ts.head?, u.isWordIn blockWords = false) →
      (t.isWord "case" = true → "until" ∉ k :: ks → CanRead inp (t :: ts)) →
      nest (k :: ks) t = some closers → Closes inp rest closers ts → Closes inp rest (k :: ks) (t :: ts)

theorem closer?_of_isWord (h : t.isWord k = true) : closer? t =
    if k ∈ ["begin", "case"] then some "end" else if k = "repeat" then some "until" else none := by
  obtain ⟨hkind, hword⟩ := isWord_iff.1 h
  simp [closer?, Token.isWordIn, Token.isWord, hkind, hword]

/-- A token opens a part of code, closes the innermost one, or does neither. -/
theorem nest_inv (h : nest stack t = some tr) :
    (∃ closer, closer? t = some closer ∧ tr = closer :: stack) ∨
    (closer? t = none ∧ t.isWordIn ["end", "until"] = true ∧ ∃ closer, stack = closer :: tr ∧
      t.isWord closer = true) ∨
    (closer? t = none ∧ t.isWordIn ["end", "until"] = false ∧ tr = stack) := by
  unfold nest at h
  cases hcloser : closer? t with
  | some closer =>
    rw [hcloser] at h
    exact .inl ⟨closer, rfl, (Option.some.inj h).symm⟩
  | none =>
    rw [hcloser] at h
    cases hword : t.isWordIn ["end", "until"] with
    | false =>
      simp only [hword, Bool.false_eq_true, if_false, Option.some.injEq] at h
      exact .inr (.inr ⟨rfl, rfl, h.symm⟩)
    | true =>
      simp only [hword, if_true] at h
      cases stack with
      | nil => cases h
      | cons closer outer =>
        obtain ⟨hcloses, houter⟩ := ite_none_right_eq_some.1 h
        cases houter
        exact .inr (.inl ⟨rfl, rfl, closer, rfl, hcloses⟩)

theorem nest_append (h : nest stack t = some tr) (outer : List String) :
    nest (stack ++ outer) t = some (tr ++ outer) := by
  rcases nest_inv h with ⟨closer, hcloser, rfl⟩ | ⟨hcloser, hword, closer, rfl, hcloses⟩ | ⟨hcloser, hword, rfl⟩
  · simp [nest, hcloser]
  · simp [nest, hcloser, hword, hcloses]
  · simp [nest, hcloser, hword]

theorem Body.closes {inner : List Token} (h : Body inp inner closing rest) :
    Closes inp rest ["end"] (inner ++ closing :: rest) := by
  -- the body is split anywhere: `closers` are the words that its first part leaves open
  suffices hall : ∀ after before closers, inner = before ++ after → before.foldlM nest [] = some closers →
      after.foldlM nest closers = some [] →
      (after ++ [closing]).IsChain (fun t u => namesNext t = true → u.isWordIn blockWords = false) →
      Closes inp rest (closers ++ ["end"]) (after ++ closing :: rest) from hall inner [] [] rfl rfl h.balanced h.names
  obtain ⟨hkind, hword⟩ := isWord_iff.1 h.ended
  intro after
  induction after with
  | nil =>
    intro before closers _ _ hclosers _
    cases hclosers
    have hnest : nest ["end"] closing = some [] := by
      rw [nest, closer?_of_isWord h.ended]
      simp [Token.isWordIn, Token.isWord, hkind, hword]
    refine .step (by simp [hkind]) (by simp [Token.isOp, Token.isOpIn, hkind]) ?_ ?_ hnest .done
    · simp [namesNext, Token.isOpIn, Token.isWordIn, hkind, hword]
    · simp [Token.isWord, Token.isWordIn, hword]
  | cons t after ih =>
    intro before closers hinner hbefore hafter hchain
    rw [foldlM_cons] at hafter
    obtain ⟨closers', hnest, hafter⟩ := bind_eq_some_iff.1 hafter
    have hbefore' : (before ++ [t]).foldlM nest [] = some closers' := by
      rw [foldlM_append, hbefore]
      simp [hnest]
    have hclosed := ih (before ++ [t]) closers' (by simp [hinner]) hbefore' hafter hchain.of_cons
    obtain ⟨hkind, hbrace⟩ := h.plain t (by simp [hinner])
    have hcase : t.isWord "case" = true → "until" ∉ closers ++ ["end"] →
      CanRead inp (t :: (after ++ closing :: rest)) := by
      intro ht huntil
      exact h.cases before t after closers hinner ht hbefore fun hmem => huntil (mem_append_left _ hmem)
    have hname : namesNext t = true → ∀ u ∈ (after ++ closing :: rest).head?, u.isWordIn blockWords = false := by
      intro ht u hu
      have hhead : (after ++ [closing]).head? = some u := by cases after <;> simpa using hu
      obtain ⟨us, hus⟩ := head?_eq_some_iff.1 hhead
      rw [cons_append, hus, isChain_cons_cons] at hchain
      exact hchain.1 ht
    have hstep := nest_append hnest ["end"]
    cases hstack : closers ++ ["end"] with
    | nil => simp at hstack
    | cons k ks =>
      rw [hstack] at hstep hcase
      exact .step hkind hbrace hname hcase hstep hclosed

/-! ## Within some blocks -/

/-- The words in the second list close what a reader is to close by those in the first, and in a loop up to
`until` there may be words `end` over. -/
inductive Covers : List String → List String → Prop where
  | nil : Covers [] []
  | cons {k : String} {ks tr : List String} : Covers ks tr → Covers (k :: ks) (k :: tr)
  | surplus {ks tr : List String} : "until" ∈ ks → Covers ks tr → Covers ks ("end" :: tr)

namespace Covers

theorem refl (ks : List String) : Covers ks ks := by
  induction ks with
  | nil => exact .nil
  | cons k ks ih => exact .cons ih

theorem until_mem (h : Covers ks tr) : "until" ∈ tr → "until" ∈ ks := by
  induction h with
  | nil => exact id
  | cons _ ih => exact fun hmem => mem_cons.2 ((mem_cons.1 hmem).imp_right ih)
  | surplus hmem _ _ => exact fun _ => hmem

theorem exists_cons (h : Covers (k :: ks) tr) : ∃ k' tr', tr = k' :: tr' := by
  cases h with
  | cons _ => exact ⟨_, _, rfl⟩
  | surplus _ _ => exact ⟨_, _, rfl⟩

/-- Within a loop, an `end` that a reader does not wait for any more is over. -/
theorem drop (h : Covers ("end" :: ks) tr) (huntil : "until" ∈ ks) : Covers ks tr := by
  generalize hks : "end" :: ks = ks' at h
  induction h with
  | nil => cases hks
  | cons h _ =>
    cases hks
    exact .surplus huntil h
  | surplus _ _ ih => exact .surplus huntil (ih hks)

theorem close (h : Covers (k :: ks) (k :: tr)) : Covers ks tr := by
  cases h with
  | cons h => exact h
  | surplus hmem h => exact h.drop ((mem_cons.1 hmem).resolve_left (by decide))

theorem skip (h : Covers (k :: ks) (k' :: tr)) (hne : k' ≠ k) : Covers (k :: ks) tr := by
  cases h with
  | cons _ => exact absurd rfl hne
  | surplus _ h => exact h

end Covers

/-- A reader that is to close the parts of code in a list will find the words that do it, and then `rest`. -/
def Enclosed (inp : Input) (rest : List Token) (ks : List String) (c : Cursor) : Prop :=
  ∃ tr, Covers ks tr ∧ Closes inp rest tr c.rest

theorem nest_of_plain (h : t.isWordIn blockWords = false) : nest ks t = some ks := by
  have hopens : t.isWordIn ["begin", "case"] = false := isWordIn_eq_false (by decide) h
  have hrepeat : t.isWord "repeat" = false := isWordIn_eq_false (by decide) h
  have hcloses : t.isWordIn ["end", "until"] = false := isWordIn_eq_false (by decide) h
  simp [nest, closer?, hopens, hrepeat, hcloses]

namespace Enclosed

theorem exists_cons (h : Enclosed inp rest (k :: ks) c) :
    ∃ t ts, c.rest = t :: ts ∧ t.kind ≠ .eof ∧ t.isOp "\x7d" = false := by
  obtain ⟨tr, hcovers, hcloses⟩ := h
  obtain ⟨k', tr', rfl⟩ := hcovers.exists_cons
  generalize hc : c.rest = ts at hcloses
  cases hcloses with
  | step hkind hbrace _ _ _ _ => exact ⟨_, _, rfl, hkind, hbrace⟩

theorem past (h : Enclosed inp rest (k :: ks) c) (hc : c.rest = t :: ts) :
    ∃ k' tr tr', Covers (k :: ks) (k' :: tr) ∧ nest (k' :: tr) t = some tr' ∧ Closes inp rest tr' ts ∧
      (namesNext t = true → ∀ u ∈ ts.head?, u.isWordIn blockWords = false) ∧
      (t.isWord "case" = true → "until" ∉ k :: ks → CanRead inp (t :: ts)) := by
  obtain ⟨tr, hcovers, hcloses⟩ := h
  obtain ⟨k', tr', rfl⟩ := hcovers.exists_cons
  rw [hc] at hcloses
  cases hcloses with
  | step _ _ hname hcase hnest hcloses =>
    exact ⟨k', tr', _, hcovers, hnest, hcloses, hname, fun ht huntil => hcase ht (mt hcovers.until_mem huntil)⟩

theorem plain (h : Enclosed inp rest (k :: ks) c) (hc : c.rest = t :: ts) (ht : t.isWordIn blockWords = false) :
    Enclosed inp rest (k :: ks) (c.past t ts) := by
  obtain ⟨k', tr, tr', hcovers, hnest, hcloses, -⟩ := h.past hc
  rw [nest_of_plain ht] at hnest
  cases hnest
  exact ⟨_, hcovers, hcloses⟩

theorem enter (h : Enclosed inp rest (k :: ks) c) (hc : c.rest = t :: ts) (ht : closer? t = some k') :
    Enclosed inp rest (k' :: k :: ks) (c.past t ts) := by
  obtain ⟨k', tr, tr', hcovers, hnest, hcloses, -⟩ := h.past hc
  rw [nest, ht] at hnest
  cases hnest
  exact ⟨_, .cons hcovers, hcloses⟩

theorem leave (h : Enclosed inp rest (k :: ks) c) (hc : c.rest = t :: ts) (ht : t.isWord k = true)
    (hk : k ∈ ["end", "until"]) :
    Enclosed inp rest ks (c.past t ts) := by
  obtain ⟨k', tr, tr', hcovers, hnest, hcloses, -⟩ := h.past hc
  obtain ⟨hkind, hword⟩ := isWord_iff.1 ht
  have hend : t.isWordIn ["end", "until"] = true := isWordIn_iff.2 ⟨hkind, hword ▸ hk⟩
  have hother : ∀ word ∈ ["end", "until"], word ∉ ["begin", "case"] ∧ word ≠ "repeat" := by decide
  rcases nest_inv hnest with ⟨closer, hcloser, -⟩ | ⟨-, -, closer, hstack, ht'⟩ | ⟨-, hplain, -⟩
  · rw [closer?_of_isWord ht, if_neg (hother k hk).1, if_neg (hother k hk).2] at hcloser
    cases hcloser
  · cases hstack
    obtain rfl : k = k' := hword.symm.trans (isWord_iff.1 ht').2
    exact ⟨_, hcovers.close, hcloses⟩
  · rw [hend] at hplain
    cases hplain

theorem report (h : Enclosed inp rest ks c) (complaint : Complaint) (span : Span) :
    Enclosed inp rest ks (c.report complaint span) := h

theorem drop (h : Enclosed inp rest ("end" :: ks) c) (huntil : "until" ∈ ks) : Enclosed inp rest ks c := by
  obtain ⟨tr, hcovers, hcloses⟩ := h
  exact ⟨tr, hcovers.drop huntil, hcloses⟩

theorem take {α : Type} {f : Token → Option α} {a : α} {next : c.After} (h : Enclosed inp rest (k :: ks) c)
    (htake : c.take f = some (a, next)) (hf : ∀ t : Token, t.isWordIn blockWords = true → f t = none) :
    Enclosed inp rest (k :: ks) next.1 := by
  obtain ⟨t, ts, hc, hnext, ht⟩ := exists_of_take htake
  rw [hnext]
  refine h.plain hc (Bool.eq_false_iff.2 fun hword => ?_)
  rw [hf t hword] at ht
  cases ht

theorem expect (h : Enclosed inp rest (k :: ks) c) (complaint : Found → Complaint)
    (hp : ∀ t ∈ c.rest.head?, t.isWordIn blockWords = true → p t = false) :
    Enclosed inp rest (k :: ks) (c.expect inp p complaint).next := by
  unfold Cursor.expect
  split
  · next u next haccept =>
    obtain ⟨t, ts, hc, hnext, ht⟩ := exists_of_take haccept
    simp only [Outcome.next, hnext]
    refine h.plain hc (Bool.eq_false_iff.2 fun hword => ?_)
    rw [hp t (by rw [hc]; rfl) hword] at ht
    cases ht
  · exact h

theorem expectWord (h : Enclosed inp rest (k :: ks) c) {word : String} (context : String)
    (hword : word ∉ blockWords) :
    Enclosed inp rest (k :: ks) (c.expectWord inp word context).next :=
  h.expect _ fun _ _ ht => isWord_of_blockWord ht hword

theorem expectOp (h : Enclosed inp rest (k :: ks) c) (op context : String) :
    Enclosed inp rest (k :: ks) (c.expectOp inp op context).next :=
  h.expect _ fun _ _ ht => isOp_of_blockWord ht op

theorem acceptOp {op : String} {next : c.After} (h : Enclosed inp rest (k :: ks) c)
    (haccept : c.acceptOp op = some (t, next)) :
    Enclosed inp rest (k :: ks) next.1 :=
  h.take haccept fun _ ht => by simp [isOp_of_blockWord ht]

theorem acceptWord {word : String} {next : c.After} (h : Enclosed inp rest (k :: ks) c)
    (haccept : c.acceptWord word = some (t, next))
    (hword : word ∉ blockWords) : Enclosed inp rest (k :: ks) next.1 :=
  h.take haccept fun _ ht => by simp [isWord_of_blockWord ht hword]

theorem name (h : Enclosed inp rest (k :: ks) c) (hc : c.rest = t :: ts) (ht : namesNext t = true)
    (complaint : Found → Complaint) : Enclosed inp rest (k :: ks) ((c.past t ts).expect inp p complaint).next := by
  obtain ⟨-, -, -, -, -, -, hname, -⟩ := h.past hc
  have hplain : t.isWordIn blockWords = false := by
    refine Bool.eq_false_iff.2 fun hword => ?_
    simp only [namesNext, Bool.or_eq_true] at ht
    rcases ht with ht | ht
    · rw [isWordIn_of_isOpIn ht] at hword
      cases hword
    · rw [isWordIn_iff] at ht hword
      have hother : ∀ word ∈ ["for", "foreach"], word ∉ blockWords := by decide
      exact hother _ ht.2 hword.2
  refine (h.plain hc hplain).expect complaint fun u hu hword => ?_
  rw [hname ht u hu] at hword
  cases hword

end Enclosed

/-- Watches that a reading stays within the same parts of code. -/
def enclosing (inp : Input) (rest : List Token) (k : String) (ks : List String) : Watch where
  __ := Watch.none
  Keeps := Enclosed inp rest (k :: ks)
  keeps_past h hc _ ht := h.plain hc ht
  keeps_name h hc hop _ := by
    obtain ⟨-, -, -, -, -, -, hname, -⟩ := h.past hc
    exact (h.plain hc (isWordIn_of_isOpIn hop _)).plain rfl (hname (by simp [namesNext, hop]) _ rfl)

theorem Enclosed.like (h : Enclosed inp rest (k :: ks) c) : c.Like (.exact (enclosing inp rest k ks)) c :=
  .exact rfl (append_nil _).symm rfl (fun _ _ => trivial) h

/-! ## Recovery -/

theorem Closes.step_inv (h : Closes inp rest stack (t :: ts)) (hne : stack ≠ []) :
    t.isOp "\x7d" = false ∧ ∃ stack', nest stack t = some stack' ∧ Closes inp rest stack' ts := by
  cases h with
  | done => exact absurd rfl hne
  | step _ hbrace _ _ hnest hcloses => exact ⟨hbrace, _, hnest, hcloses⟩

theorem mem_of_closer? (h : closer? t = some k) : k ∈ ["end", "until"] := by
  unfold closer? at h
  split at h
  · cases h
    exact mem_cons_self
  · cases (ite_none_right_eq_some.1 h).2
    exact mem_cons_of_mem _ mem_cons_self

theorem enclosed_skipStatement {stops closers : List String} (hstops : ∀ word ∈ ["end", "until"], word ∈ stops)
    (hclosers : ∀ word ∈ closers, word ∈ ["end", "until"]) (hcovers : Covers (k :: ks) tr)
    (hcloses : Closes inp rest (closers ++ tr) c.rest) :
    Enclosed inp rest (k :: ks) (skipStatement stops closers c.last c.issues c.rest) := by
  have hne : ∀ closers : List String, closers ++ tr ≠ [] := by
    obtain ⟨k', tr', rfl⟩ := hcovers.exists_cons
    simp
  obtain ⟨last, ts, issues⟩ := c
  fun_induction skipStatement stops closers last issues ts with
  | case1 closers =>
    have hstack := hne closers
    generalize closers ++ tr = stack at hcloses hstack
    cases hcloses
    exact absurd rfl hstack
  | case2 closers last t ts hbrace =>
    have hplain := (hcloses.step_inv (hne closers)).1
    rw [hbrace] at hplain
    cases hplain
  | case3 closers last t ts _ closer hcloser ih =>
    obtain ⟨-, stack, hnest, hcloses⟩ := hcloses.step_inv (hne closers)
    rcases nest_inv hnest with ⟨closer', hcloser', rfl⟩ | ⟨hnone, -⟩ | ⟨hnone, -⟩
    · cases hcloser.symm.trans hcloser'
      exact ih (forall_mem_cons.2 ⟨mem_of_closer? hcloser, hclosers⟩) hcloses
    · cases hcloser.symm.trans hnone
    · cases hcloser.symm.trans hnone
  | case4 last t ts _ closer outer hcloser ih =>
    obtain ⟨hhead, houter⟩ := forall_mem_cons.1 hclosers
    obtain ⟨-, stack, hnest, hcloses⟩ := hcloses.step_inv (hne _)
    rcases nest_inv hnest with ⟨closer', hcloser', -⟩ | ⟨-, -, closer', hstack, hword⟩ | ⟨-, hplain, rfl⟩
    · cases hcloser.symm.trans hcloser'
    · cases hstack
      rw [if_pos hword] at ih ⊢
      exact ih houter hcloses
    · have hword : ¬ t.isWord closer = true := Bool.eq_false_iff.1
        (isWordIn_eq_false (fun word hmem => mem_singleton.1 hmem ▸ hhead) hplain)
      rw [if_neg hword] at ih ⊢
      exact ih hclosers hcloses
  | case5 last t ts _ hcloser hsemi =>
    obtain ⟨-, stack, hnest, hcloses'⟩ := hcloses.step_inv (hne [])
    rcases nest_inv hnest with ⟨closer, hcloser', -⟩ | ⟨-, hword, -⟩ | ⟨-, -, hsame⟩
    · cases hcloser.symm.trans hcloser'
    · rw [isWordIn_of_isOpIn hsemi] at hword
      cases hword
    · exact ⟨tr, hcovers, (show stack = tr from hsame) ▸ hcloses'⟩
  | case6 last t ts _ hcloser _ hstop => exact ⟨tr, hcovers, hcloses⟩
  | case7 last t ts _ hcloser _ hstop ih =>
    obtain ⟨-, stack, hnest, hcloses'⟩ := hcloses.step_inv (hne [])
    rcases nest_inv hnest with ⟨closer, hcloser', -⟩ | ⟨-, hword, -⟩ | ⟨-, -, hsame⟩
    · cases hcloser.symm.trans hcloser'
    · rw [isWordIn_eq_false hstops (Bool.eq_false_iff.2 hstop)] at hword
      cases hword
    · exact ih hclosers (hsame ▸ hcloses')

/-- Recovery stays within the blocks. A statement that has failed at its first token may have failed at an `end`
that is over. -/
theorem enclosed_resumeStatement (hc : c.rest = t :: ts) (h : Enclosed inp rest (k :: ks) c)
    (hends : endsList [k] t = false)
    (hd : Enclosed inp rest (k :: ks) d) : Enclosed inp rest (k :: ks) (resumeStatement [k] t ts d) := by
  have hstops : ∀ word ∈ ["end", "until"], word ∈ "end" :: "until" :: "else" :: [k] := by simp
  unfold resumeStatement
  dsimp only
  split
  · obtain ⟨tr, hcovers, hcloses⟩ := hd
    exact enclosed_skipStatement hstops (fun _ hmem => absurd hmem not_mem_nil) hcovers hcloses
  · -- nothing has been read, so the token is passed here, and what it opens is to be closed first
    obtain ⟨k', tr, tr', hcovers, hnest, hcloses, -⟩ := h.past hc
    have hall : ∀ word ∈ (closer? t).toList, word ∈ ["end", "until"] := fun word hmem =>
      mem_of_closer? (mem_toList.1 hmem)
    have hskip : ∀ tr, Covers (k :: ks) tr → Closes inp rest ((closer? t).toList ++ tr) ts →
      Enclosed inp rest (k :: ks)
        (skipStatement ("end" :: "until" :: "else" :: [k]) (closer? t).toList t d.issues ts) :=
      fun tr hcovers hcloses => @enclosed_skipStatement _ _ _ _ _ ⟨t, ts, d.issues⟩ _ _ hstops hall hcovers hcloses
    rcases nest_inv hnest with ⟨closer, hcloser, rfl⟩ | ⟨hcloser, -, closer, hstack, hword⟩ | ⟨hcloser, -, rfl⟩
    · exact hskip (k' :: tr) hcovers (hcloser ▸ hcloses)
    · cases hstack
      have hne : k' ≠ k := by
        rintro rfl
        simp [endsList, show t.isWordIn [k'] = true from hword] at hends
      exact hskip tr (hcovers.skip hne) (hcloser ▸ hcloses)
    · exact hskip (k' :: tr) hcovers (hcloser ▸ hcloses)

/-! ## Statements -/

def Opening.word : Opening → String
  | block => "begin"
  | ifThen => "if"
  | caseOf => "case"
  | repeatUntil => "repeat"
  | whileDo => "while"
  | forTo => "for"
  | forEach => "foreach"
  | exit => "exit"
  | withDo => "with"
  | assertError => "asserterror"

theorem isWord_of_opening (h : Opening.of? t = some opening) : t.isWord opening.word = true := by
  obtain ⟨entry, hentry, rfl⟩ := map_eq_some_iff.1 h
  have hall : ∀ entry ∈ openings, entry.2.word = entry.1 := by simp [openings, Opening.word]
  have hword := find?_some hentry
  rw [hall entry (mem_of_find?_eq_some hentry)]
  exact hword

/-- What holds of the cursor after a success, and after a failure. -/
def Outcome.Parts {α : Type} {n : Nat} (P Q : Cursor → Prop) : Outcome α n → Prop
  | .ok _ d _ => P d
  | .fail _ d _ => Q d

namespace Outcome.Parts

variable {α β : Type} {n m : Nat} {P P' Q : Cursor → Prop} {x : Outcome α n}

theorem of_next (h : Q x.next) : x.Parts Q Q := by
  cases x <;> exact h

theorem andThen {f : (a : α) → (d : Cursor) → d.size < n → Outcome β m} {le : n ≤ m} (hx : x.Parts P Q)
    (hf : ∀ {a d h}, P d → (f a d h).Parts P' Q) : (x.andThen f le).Parts P' Q := by
  cases x with
  | ok a d h => exact hf hx
  | fail issue d h => exact hx

end Outcome.Parts

def AtWord (k : String) (c : Cursor) : Prop := ∃ t ts, c.rest = t :: ts ∧ t.isWord k = true

namespace Enclosed

theorem expression (h : Enclosed inp rest (k :: ks) c) :
    Enclosed inp rest (k :: ks) (Reading.expression inp c).next :=
  (expression_like (.exact inp) h.like).keeps

theorem forDirection (h : Enclosed inp rest (k :: ks) c) :
    Enclosed inp rest (k :: ks) (Reading.forDirection inp c).next := by
  unfold Reading.forDirection
  split
  · next hdown => exact h.acceptWord hdown (by decide)
  · exact next_andThen (h.expectWord _ (by decide)) id

theorem blockEnd (h : Enclosed inp rest ("end" :: ks) c) (hc : AtWord "end" c) (opener : Token) :
    Enclosed inp rest ks (Reading.blockEnd inp opener c).next := by
  obtain ⟨t, ts, hc, ht⟩ := hc
  obtain ⟨_, haccept⟩ := acceptWord_eq_some hc ht
  rw [Reading.blockEnd, haccept]
  exact h.leave hc ht (by decide)

theorem expectCloser (h : Enclosed inp rest (k :: ks) c) (hk : k ∈ ["end", "until"]) (context : String) :
    (c.expectWord inp k context).Parts (Enclosed inp rest ks) fun d => d = c ∧ ¬ AtWord k c := by
  unfold Cursor.expectWord Cursor.expect
  split
  · next next haccept =>
    obtain ⟨t, ts, hc, hnext, ht⟩ := exists_of_take haccept
    rw [Outcome.Parts, hnext]
    exact h.leave hc (ite_none_right_eq_some.1 ht).1 hk
  · next haccept =>
    refine ⟨rfl, ?_⟩
    rintro ⟨t, ts, hc, ht⟩
    obtain ⟨_, hsome⟩ := acceptWord_eq_some hc ht
    cases haccept.symm.trans hsome

/-- The `end` of a case statement that is given up is still to come. -/
theorem closeCase (h : Enclosed inp rest ("end" :: ks) c) (context : String) :
    (c.expectWord inp "end" context).Parts (Enclosed inp rest ks) (Enclosed inp rest ("end" :: ks)) := by
  have hparts := h.expectCloser (by decide) context
  generalize c.expectWord inp "end" context = x at hparts
  cases x with
  | ok t d _ => exact hparts
  | fail issue d _ => exact hparts.1 ▸ h

theorem expectCloserAt (h : Enclosed inp rest (k :: ks) c) (hc : AtWord k c) (hk : k ∈ ["end", "until"])
    (context : String) :
    Enclosed inp rest ks (c.expectWord inp k context).next := by
  have hparts := h.expectCloser hk context
  generalize c.expectWord inp k context = x at hparts
  cases x with
  | ok t d _ => exact hparts
  | fail issue d _ => exact absurd hc hparts.2

theorem opened {h₁ : c₁.size < c.size} (h : Enclosed inp rest (k :: ks) c)
    (htake : c.take Opening.of? = some (opening, ⟨c₁, h₁⟩)) (hword : opening.word ∉ blockWords) :
    Enclosed inp rest (k :: ks) c₁ := by
  obtain ⟨t, ts, hc, rfl, ht⟩ := exists_of_take htake
  refine h.plain hc (Bool.eq_false_iff.2 fun hblock => Bool.false_ne_true ?_)
  exact (isWord_of_blockWord hblock hword).symm.trans (isWord_of_opening ht)

theorem entered {h₁ : c₁.size < c.size} (h : Enclosed inp rest (k :: ks) c)
    (htake : c.take Opening.of? = some (opening, ⟨c₁, h₁⟩))
    (hword : (if opening.word ∈ ["begin", "case"] then some "end" else if opening.word = "repeat" then
    some "until" else none) =
      some k') : Enclosed inp rest (k' :: k :: ks) c₁ := by
  obtain ⟨t, ts, hc, rfl, ht⟩ := exists_of_take htake
  exact h.enter hc ((closer?_of_isWord (isWord_of_opening ht)).trans hword)

theorem openedName {h₁ : c₁.size < c.size} (h : Enclosed inp rest (k :: ks) c)
    (htake : c.take Opening.of? = some (opening, ⟨c₁, h₁⟩)) (hword : opening.word ∈ ["for", "foreach"])
    (context : String) :
    Enclosed inp rest (k :: ks) (c₁.expectName inp context).next := by
  obtain ⟨t, ts, hc, rfl, ht⟩ := exists_of_take htake
  obtain ⟨hkind, hlower⟩ := isWord_iff.1 (isWord_of_opening ht)
  refine h.name hc ?_ _
  rw [namesNext, Bool.or_eq_true, isWordIn_iff, hlower]
  exact .inr ⟨hkind, hword⟩

/-- A case statement is not given up outside of loops up to `until`. -/
theorem exists_ok {next : c.After} (h : Enclosed inp rest (k :: ks) c)
    (htake : c.take Opening.of? = some (.caseOf, next))
    (huntil : "until" ∉ k :: ks) : ∃ s d h, statement inp c = .ok s d h := by
  obtain ⟨t, ts, hc, -, ht⟩ := exists_of_take htake
  obtain ⟨-, -, -, -, -, -, -, hcase⟩ := h.past hc
  have hword : t.isWord Opening.caseOf.word = true := isWord_of_opening ht
  exact hcase hword huntil c hc

end Enclosed

mutual

/-- A statement is read, or given up, within the same parts of code. -/
theorem enclosed_statement {k : String} {ks : List String} {c : Cursor} (h : Enclosed inp rest (k :: ks) c) :
    Enclosed inp rest (k :: ks) (statement inp c).next := by
  cases hop : c.take Opening.of? with
  | none =>
    rw [statement, hop]
    dsimp only
    split
    · next hjump => exact h.take (eq_some_of_filter_eq_some hjump) Spares.word
    · split
      · exact h
      · exact (simpleStatement_like (.exact inp) h.like).keeps
  | some found =>
    obtain ⟨opening, c₁, h₁⟩ := found
    cases opening with
    | block =>
      rw [statement, hop]
      exact enclosed_compound (c.head inp) (h.entered hop rfl)
    | ifThen =>
      rw [statement, hop]
      refine next_andThen (h.opened hop (by decide)).expression fun h => ?_
      refine next_andThen (h.expectWord _ (by decide)) fun h => ?_
      refine next_andThen (enclosed_branch h) fun h => ?_
      split
      · exact h
      · next helse =>
        exact next_andThen (enclosed_branch (h.acceptWord helse (by decide))) id
    | caseOf =>
      -- a failure leaves the `end` of the statement to come
      have hparts : (statement inp c).Parts (Enclosed inp rest (k :: ks)) (Enclosed inp rest ("end" :: k :: ks)) := by
        rw [statement, hop]
        refine (Outcome.Parts.of_next (h.entered hop rfl).expression).andThen fun h => ?_
        refine (Outcome.Parts.of_next (h.expectWord _ (by decide))).andThen fun h => ?_
        refine (Outcome.Parts.of_next (enclosed_branches (c.head inp) h)).andThen fun h => ?_
        exact (h.closeCase _).andThen id
      cases hx : statement inp c with
      | ok s d _ =>
        rw [hx] at hparts
        exact hparts
      | fail issue d _ =>
        rw [hx] at hparts
        -- in a loop this `end` will be skipped, and elsewhere there is no failure
        by_cases huntil : "until" ∈ k :: ks
        · exact Enclosed.drop hparts huntil
        · obtain ⟨s, e, hlt, hok⟩ := h.exists_ok hop huntil
          cases hx.symm.trans hok
    | repeatUntil =>
      rw [statement, hop]
      obtain ⟨hat, h⟩ := enclosed_statements (by decide) (h.entered hop rfl)
      refine next_andThen (h.expectCloserAt hat (by decide) _) fun h => ?_
      exact next_andThen h.expression id
    | whileDo =>
      rw [statement, hop]
      refine next_andThen (h.opened hop (by decide)).expression fun h => ?_
      refine next_andThen (h.expectWord _ (by decide)) fun h => ?_
      exact next_andThen (enclosed_branch h) id
    | forTo =>
      rw [statement, hop]
      refine next_andThen (h.openedName hop (by decide) _) fun h => ?_
      refine next_andThen (h.expectOp _ _) fun h => ?_
      refine next_andThen h.expression fun h => ?_
      refine next_andThen h.forDirection fun h => ?_
      refine next_andThen h.expression fun h => ?_
      refine next_andThen (h.expectWord _ (by decide)) fun h => ?_
      exact next_andThen (enclosed_branch h) id
    | forEach =>
      rw [statement, hop]
      refine next_andThen (h.openedName hop (by decide) _) fun h => ?_
      refine next_andThen (h.expectWord _ (by decide)) fun h => ?_
      refine next_andThen h.expression fun h => ?_
      refine next_andThen (h.expectWord _ (by decide)) fun h => ?_
      exact next_andThen (enclosed_branch h) id
    | exit =>
      have hm₁ : Enclosed inp rest (k :: ks) c₁ := h.opened hop (by decide)
      rw [statement, hop]
      dsimp only
      split
      · exact hm₁
      · next t c₂ h₂ hparen =>
        have h : Enclosed inp rest (k :: ks) c₂ := hm₁.acceptOp hparen
        split
        · exact next_andThen (h.expectOp _ _) id
        · refine next_andThen h.expression fun h => ?_
          exact next_andThen (h.expectOp _ _) id
    | withDo =>
      rw [statement, hop]
      refine next_andThen (h.opened hop (by decide)).expression fun h => ?_
      refine next_andThen (h.expectWord _ (by decide)) fun h => ?_
      exact next_andThen (enclosed_branch h) id
    | assertError =>
      rw [statement, hop]
      exact next_andThen (enclosed_statement (h.opened hop (by decide))) id
termination_by (c.size, 1)
decreasing_by all_goals omega

theorem enclosed_compound {ks : List String} (opener : Token) {c : Cursor} (h : Enclosed inp rest ("end" :: ks) c) :
    Enclosed inp rest ks (compound inp opener c).next := by
  rw [compound]
  obtain ⟨hat, hm⟩ := enclosed_statements (by decide) h
  exact hm.blockEnd hat opener
termination_by (c.size, 3)
decreasing_by all_goals omega

theorem enclosed_branch {k : String} {ks : List String} {c : Cursor} (h : Enclosed inp rest (k :: ks) c) :
    Enclosed inp rest (k :: ks) (branch inp c).next := by
  rw [branch]
  split
  · exact h
  · exact next_andThen (enclosed_statement h) id
termination_by (c.size, 2)
decreasing_by all_goals omega

theorem enclosed_branches {ks : List String} (start : Token) {c : Cursor} (h : Enclosed inp rest ("end" :: ks) c) :
    Enclosed inp rest ("end" :: ks) (branches inp start c).next := by
  rw [branches]
  split
  · exact h
  split
  · exact h
  split
  · next hop => exact next_andThen (enclosed_branches start (h.acceptOp hop)) id
  split
  · next hop => exact (enclosed_statements (by decide) (h.acceptWord hop (by decide))).2
  refine next_andThen (expressions_like (.exact inp) h.like).keeps fun h => ?_
  refine next_andThen (h.expectOp _ _) fun h => ?_
  refine next_andThen (enclosed_branch h) fun h => ?_
  dsimp only
  split
  · next hop => exact next_andThen (enclosed_branches start (h.acceptOp hop)) id
  · split
    · exact next_andThen (enclosed_branches start h) id
    · exact h
termination_by (c.size, 0)
decreasing_by all_goals omega

/-- **A list of statements ends at the word that closes it**, whatever is wrong with them. -/
theorem enclosed_statements {k : String} {ks : List String} (hk : k ∈ ["end", "until"]) {c : Cursor}
    (h : Enclosed inp rest (k :: ks) c) :
    AtWord k (statements inp [k] c).next ∧ Enclosed inp rest (k :: ks) (statements inp [k] c).next := by
  obtain ⟨t, ts, hc, hkind, hbrace⟩ := h.exists_cons
  have hstop : ∀ {c : Cursor}, Enclosed inp rest (k :: ks) c → endsList [k] (c.head inp) = true → AtWord k c := by
    intro c h hends
    obtain ⟨t, ts, hc, hkind, hbrace⟩ := h.exists_cons
    rw [head_eq hc] at hends
    simp only [endsList, hbrace, Bool.or_false, Bool.or_eq_true, beq_iff_eq, hkind, false_or] at hends
    exact ⟨t, ts, hc, hends⟩
  rw [statements]
  split
  · next hnil => cases hc.symm.trans hnil
  · next t' ts' hc' =>
    cases hc.symm.trans hc'
    dsimp only
    split
    · next hends => exact ⟨hstop h (by rw [head_eq hc]; exact hends), h⟩
    next hends =>
    split
    · next hsemi =>
      have hlt := size_past_lt hc
      exact enclosed_statements hk (h.plain hc (isWordIn_of_isOpIn hsemi _))
    have hm := enclosed_statement h
    split
    · next issue c₁ h₁ hs =>
      rw [hs] at hm
      have hlt := size_resumeStatement_lt [k] hc (c₁.report issue.complaint issue.span)
      exact enclosed_statements hk (enclosed_resumeStatement hc h (Bool.eq_false_iff.2 hends) (hm.report _ _))
    · next s c₁ h₁ hs =>
      rw [hs] at hm
      have hm₁ : Enclosed inp rest (k :: ks) c₁ := hm
      split
      · next hop => exact enclosed_statements hk (hm₁.acceptOp hop)
      · split
        · next hends => exact ⟨hstop hm₁ hends, hm₁⟩
        · exact enclosed_statements hk (hm₁.report _ _)
termination_by (c.size, 2)
decreasing_by all_goals first | omega | (simp only [Cursor.size_report]; omega)

end

/-! ## Bodies -/

/-- The last token of a body and what is left behind it. A semicolon belongs to the body. -/
def bodyEnd (closing : Token) : List Token → Token × List Token
  | [] => (closing, [])
  | t :: ts => if t.isOp ";" then (t, ts) else (closing, t :: ts)

theorem skipOp_eq_bodyEnd (c : Cursor) : ((c.skipOp ";").1.last, (c.skipOp ";").1.rest) = bodyEnd c.last c.rest := by
  unfold skipOp
  split
  · next t next haccept =>
    obtain ⟨t, ts, hc, hnext, ht⟩ := exists_of_take haccept
    rw [hnext, hc, bodyEnd, if_pos (ite_none_right_eq_some.1 ht).1]
    rfl
  · next haccept =>
    cases hc : c.rest with
    | nil => rfl
    | cons t ts =>
      have hsemi : ¬ t.isOp ";" = true := by
        intro hsemi
        obtain ⟨_, hsome⟩ := acceptOp_eq_some hc hsemi
        cases haccept.symm.trans hsome
      rw [bodyEnd, if_neg hsemi]

theorem compound_of_body {inner : List Token} (hbody : Body inp inner closing rest)
    (hc : c.rest = inner ++ closing :: rest) (opener : Token) :
    (compound inp opener c).next.last = closing ∧ (compound inp opener c).next.rest = rest := by
  obtain ⟨tr, hcovers, hcloses⟩ := enclosed_compound opener ⟨["end"], .refl _, hc ▸ hbody.closes⟩
  obtain ⟨read, -, hread, hlast, -⟩ := leads_compound inp c opener
  generalize (compound inp opener c).next = d at *
  have hrest : d.rest = rest := by
    cases hcovers with
    | nil =>
      generalize d.rest = ts at hcloses
      cases hcloses
      rfl
    | surplus huntil _ => cases huntil
  -- what has been read is the body, so its last token is `closing`
  have happend : inner ++ [closing] = read := by
    have hboth : inner ++ [closing] ++ rest = read ++ rest := by
      rw [append_assoc, singleton_append, ← hc, hread, hrest]
    exact append_cancel_right hboth
  rw [hlast, ← happend, getLast?_concat]
  exact ⟨rfl, hrest⟩

theorem exists_code {attributes : List String} {lead : Option Token} {m : CodeMember} {hlt : d.size < c.size}
    (hheader : codeHeader inp attributes lead c = .ok m d hlt) (hd : d.rest = t :: ts)
    (ht : t.isWord "begin" = true) :
    let block := (compound inp t (d.past t ts)).next
    ∃ m' e h, code inp attributes lead c = .ok m' e h ∧ m'.hasBody = true ∧ m'.span = e.spanFrom (c.head inp) ∧
      (e.last, e.rest) = bodyEnd block.last block.rest := by
  obtain ⟨hnext, hsome⟩ := @gives_codeBody inp _ _ _ hd ht
  rw [code, hheader]
  refine ⟨_, (codeBody inp d).next, _, rfl, hsome, rfl, ?_⟩
  rw [hnext, skipOp_eq_bodyEnd]

/-- **A body ends at its own `end`.** Whatever is wrong with the statements of a body, a trigger or procedure
whose header is read extends to the `end` of its body and a semicolon behind it, and what follows is left. This
needs that no word of a block is taken for a name, and no case statement is given up outside of loops up to
`until`. -/
theorem code_ends_with_body {attributes : List String} {lead : Option Token} {m : CodeMember} {hlt : d.size < c.size}
    {opener closing : Token} {inner : List Token} (hheader : codeHeader inp attributes lead c = .ok m d hlt)
    (hd : d.rest = opener :: (inner ++ closing :: rest)) (hopener : opener.isWord "begin" = true)
    (hbody : Body inp inner closing rest) :
    ∃ m' e h, code inp attributes lead c = .ok m' e h ∧ m'.hasBody = true ∧ m'.span = e.spanFrom (c.head inp) ∧
      (e.last, e.rest) = bodyEnd closing rest := by
  obtain ⟨hlast, hrest⟩ := compound_of_body hbody
    (show (d.past opener _).rest = inner ++ closing :: rest from rfl) opener
  obtain ⟨m', e, h, hcode, hsome, hspan, hend⟩ := exists_code hheader hd hopener
  exact ⟨m', e, h, hcode, hsome, hspan, by rw [hend, hlast, hrest]⟩

theorem canRead_of_reads {xs : List Lexeme} {s : Stmt} (h : ReadsStmt inp xs s)
    (hxs : ∀ x ∈ xs, x.spelledBy x.token = true)
    (ht : t.isOp ";" = true) : CanRead inp (xs.map Lexeme.token ++ t :: ts) := by
  intro c hc
  obtain ⟨d, hspells, hd⟩ := exists_spells hxs hc
  obtain ⟨s', hlt, hok, -⟩ := (h c d hspells (by rw [head_eq hd]; exact ht)).2
  exact ⟨s', d, hlt, hok⟩

/-- `if ( repeat case end ; ) until else ; case B of 1: begin end; else A(); end ; while begin + end` -/
def damagedBody : List Lexeme :=
  ([.word "if", .sign "(", .word "repeat", .word "case", .word "end", .sign ";", .sign ")", .word "until",
    .word "else", .sign ";"] :
    List Lexeme) ++ plainCase.lexemes false (fun _ => true) ++
    ([.sign ";", .word "while", .word "begin", .sign "+", .word "end"] : List Lexeme)

theorem body_damagedBody (inp : Input) (rest : List Token) :
    Body inp (damagedBody.map Lexeme.token) (Lexeme.word "end").token rest where
  balanced := by decide
  plain := by decide
  ended := by decide
  names := by decide
  cases before t after closers hinner ht hbefore huntil := by
    have hplace : ∀ i < 29, ∀ t ∈ (damagedBody.map Lexeme.token)[i]?, t.isWord "case" = true →
      i = 3 ∨ i = 10 := by decide
    have hlength : before.length < 29 := by
      have hlength := congrArg List.length hinner
      rw [length_append, length_cons, show (damagedBody.map Lexeme.token).length = 29 from rfl] at hlength
      omega
    rcases hplace _ hlength t (by rw [hinner]; simp) ht with hi | hi
    · -- the first one is in a loop
      have hclosers : ((damagedBody.map Lexeme.token).take 3).foldlM nest [] = some ["until"] := by decide
      rw [hinner, ← hi, take_left, hbefore] at hclosers
      cases hclosers
      exact absurd mem_cons_self huntil
    · have hafter : (damagedBody.map Lexeme.token).drop 10 = t :: after := by rw [hinner, ← hi, drop_left]
      have hread : ReadsStmt inp (plainCase.lexemes false fun _ => true) plainCase := reads_stmt plainCase (by decide)
      have hcan := fun ts => @canRead_of_reads inp (Lexeme.sign ";").token ts _ _ hread (by decide) (by decide)
      rw [← hafter]
      exact hcan (([.word "while", .word "begin", .sign "+", .word "end"] : List Lexeme).map Lexeme.token ++ _)

/-- The cursor before a trigger with some lexemes behind the `begin` of its body. -/
def beforeTrigger (xs : List Lexeme) : Cursor :=
  ofLexemes ([.word "trigger", .name "OnRun" false] ++ .word "begin" :: xs)

theorem exists_codeHeader (inp : Input) (x : Lexeme) (xs : List Lexeme) (hx : x.token.isOp ":" = false) :
    ∃ m d hlt, codeHeader inp [] none (beforeTrigger (x :: xs)) = .ok m d hlt ∧
      d.rest = (Lexeme.word "begin" :: x :: xs).map Lexeme.token := by
  have hplain : ∀ x ∈ [Lexeme.word "trigger", .name "OnRun" false], x.spelledBy x.token = true := by decide
  obtain ⟨d, hspells, hd⟩ := exists_spells_ofLexemes hplain (.word "begin" :: x :: xs)
  have hbegin : (d.head inp).isWord "begin" = true := by
    rw [head_eq hd]
    decide
  obtain ⟨m, hlt, hheader, -⟩ := gives_codeHeader hspells hbegin (by rw [peek, hd]; exact hx)
  exact ⟨m, d, hlt, hheader, hd⟩

theorem code_ends_with_damaged_body :
    let brace := (Lexeme.sign "\x7d").token
    ∃ m e h, code ⟨"", brace⟩ [] none (beforeTrigger (damagedBody ++ [.word "end", .sign ";", .sign "\x7d"])) =
      .ok m e h ∧
      m.hasBody = true ∧ e.rest = [brace] := by
  intro brace
  obtain ⟨m, d, hlt, hheader, hd⟩ := exists_codeHeader ⟨"", brace⟩ (.word "if")
    (damagedBody.tail ++ [.word "end", .sign ";", .sign "\x7d"]) (by decide)
  have hd : d.rest = (Lexeme.word "begin").token ::
      (damagedBody.map Lexeme.token ++ (Lexeme.word "end").token :: [(Lexeme.sign ";").token, brace]) := hd
  obtain ⟨m', e, h, hcode, hsome, -, hend⟩ := code_ends_with_body hheader hd (by decide) (body_damagedBody _ _)
  exact ⟨m', e, h, hcode, hsome, (Prod.ext_iff.1 hend).2⟩

/-- A case statement that is given up before an `end` leaves it to the list of statements. -/
theorem statements_case_without_of (h : c.Spells [.word "case", .name "A" false] d) (hd : d.rest = t :: ts)
    (ht : t.isWord "end" = true) : (statements inp ["end"] c).next.rest = t :: ts := by
  obtain ⟨k, ks, hc, hk, hname⟩ := h
  obtain ⟨hkind, hlower⟩ := isWord_iff.1 ht
  have hfail : ∃ issue hle, statement inp c = .fail issue d hle := by
    obtain ⟨_, htake⟩ := take_eq_some hc (opening_of_word hk)
    have hwritten : (Expr.name "A" false default).standsAlone (fun _ => true) = true := by decide
    obtain ⟨selector, _, hselector, -⟩ := gives_expression_word hwritten hname hd ht (by decide)
    have hof : d.acceptWord "of" = none :=
      @acceptWord_eq_none inp _ _ (by rw [head_eq hd]; simp [Token.isWord, Token.isWordIn, hlower])
    rw [statement, htake]
    dsimp only
    rw [hselector]
    unfold expectWord expect
    rw [Outcome.andThen, show d.accept (·.isWord "of") = none from hof]
    exact ⟨_, _, rfl⟩
  obtain ⟨issue, hle, hfail⟩ := hfail
  -- recovery starts behind `case`, so the `end` is not one that it has to pass
  have hresume : (resumeStatement ["end"] k ks (d.report issue.complaint issue.span)).rest = t :: ts := by
    have hsize : (d.report issue.complaint issue.span).size ≤ ks.length := by
      rw [size_report, size, hname.rest_and_issues.1, length_drop]
      exact Nat.sub_le _ _
    have hcloser : closer? t = none := closer?_of_isWord ht
    rw [resumeStatement, if_pos hsize, show (d.report issue.complaint issue.span).rest = t :: ts from hd]
    simp [skipStatement, hcloser, Token.isOp, Token.isOpIn, Token.isWordIn, hkind, hlower]
  have hstart : StartsStmt k := startsStmt_of_word hk (by decide)
  have hends : endsList ["end"] k = false := hstart.not_endsList (by decide)
  rw [statements]
  split
  · next hnil => cases hc.symm.trans hnil
  · next k' ks' hc' =>
    cases hc.symm.trans hc'
    simp only [hends, hstart.not_semicolon, hfail, Bool.false_eq_true, if_false]
    exact (congrArg Cursor.rest (statements_end (by rw [head_eq hresume]; exact ht)).1).trans hresume

/-- A trigger with a balanced body that is read up to another place than the `end` of the body. -/
def EndsElsewhere (inner behind : List Lexeme) : Prop :=
  let inp : Input := ⟨"", (Lexeme.sign "\x7d").token⟩
  let tokens := inner.map Lexeme.token
  tokens.foldlM nest [] = some [] ∧ (∀ t ∈ tokens, t.kind ≠ .eof ∧ t.isOp "\x7d" = false) ∧
    ∃ m e h, code inp [] none (beforeTrigger (inner ++ .word "end" :: behind)) = .ok m e h ∧
      e.rest ≠ (bodyEnd (Lexeme.word "end").token (behind.map Lexeme.token)).2

theorem endsElsewhere_of_compound {x : Lexeme} {inner behind : List Lexeme} (left : List Token)
    (hbalanced : ((x :: inner).map Lexeme.token).foldlM nest [] = some [])
    (hplain : ∀ t ∈ (x :: inner).map Lexeme.token, t.kind ≠ .eof ∧ t.isOp "\x7d" = false)
    (hx : x.token.isOp ":" = false)
    (hblock : ∀ c : Cursor, c.rest = (x :: inner ++ .word "end" :: behind).map Lexeme.token →
      (compound ⟨"", (Lexeme.sign "\x7d").token⟩ (Lexeme.word "begin").token c).next.rest = left)
    (hleft : ∀ last, (bodyEnd last left).2 ≠ (bodyEnd (Lexeme.word "end").token (behind.map Lexeme.token)).2) :
    EndsElsewhere (x :: inner) behind := by
  obtain ⟨m, d, hlt, hheader, hd⟩ := exists_codeHeader ⟨"", (Lexeme.sign "\x7d").token⟩ x
    (inner ++ .word "end" :: behind) hx
  obtain ⟨m', e, h, hcode, -, -, hend⟩ := exists_code hheader hd (by decide)
  rw [hblock _ rfl] at hend
  exact ⟨hbalanced, hplain, m', e, h, hcode, fun hsame => hleft _ ((Prod.ext_iff.1 hend).2.symm.trans hsame)⟩

/-- **Not every body ends at its own `end`.** A case statement without `of` is given up, so its `end` is taken
for that of the body; and behind a dot `end` is a name. -/
theorem bodies_end_elsewhere : EndsElsewhere [.word "case", .name "A" false, .word "end"] [] ∧
    EndsElsewhere [.name "A" false, .sign "."] [.sign ";", .word "end"] := by
  have hne : [(Lexeme.word "end").token] ≠ [] := cons_ne_nil _ _
  constructor
  · refine endsElsewhere_of_compound [(Lexeme.word "end").token] (by decide) (by decide) (by decide)
      (fun c hc => ?_) fun _ => hne
    have hplain : ∀ x ∈ [Lexeme.word "case", .name "A" false], x.spelledBy x.token = true := by decide
    obtain ⟨d, hspells, hd⟩ := @exists_spells _ hplain ([.word "end", .word "end"].map Lexeme.token) _ hc
    have hlist := @statements_case_without_of ⟨"", (Lexeme.sign "\x7d").token⟩ _ _ _ _ hspells hd (by decide)
    rw [compound]
    dsimp only
    obtain ⟨_, haccept⟩ := acceptWord_eq_some hlist (show (Lexeme.word "end").token.isWord "end" = true by decide)
    rw [blockEnd, haccept]
    rfl
  · refine endsElsewhere_of_compound [] (by decide) (by decide) (by decide) (fun c hc => ?_) fun _ => hne.symm
    let stmt : Stmt := .call ⟨.member (.name "A" false default) "end" false default, [], true, default⟩ default
    have hplain : ∀ x ∈ Stmt.listLexemes false (fun _ => true) [stmt] ++ [.word "end"],
      x.spelledBy x.token = true := by decide
    obtain ⟨d, hspells, hd⟩ := @exists_spells _ hplain [] _ hc
    rw [(gives_compound _ ((reads_stmt stmt (by decide)).cons reads_nil) hspells).1, hd]

end AlLint.Reading
