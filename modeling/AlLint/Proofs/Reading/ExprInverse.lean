import AlLint.Proofs.Reading.Writing

/-!
# Reading an expression that was written

Reading inverts writing: the lexemes of an expression are read as that expression, at any depth and whatever its
operators are.

A reader of operands goes on with the operators that follow, so what it makes of some lexemes depends on the
text behind them. The statements about readers therefore take the rest as given: `ReadsOperands` says that
reading operands at the start of some lexemes is as good as having read an expression and going on behind them,
and `ReadsAccess` says the same of a primary expression and what follows it. Each level is derived from the next
tighter one for any lexemes at all, so an expression has to be looked at on its own level only.
-/

namespace AlLint.Reading

open Cursor List Token BinaryOp

variable {p : Token → Bool} {j : Nat} {called : Bool} {es : List Expr} {left right : Expr} {span' : Span}

/-! ## Outcomes -/

/-- Reading succeeds at `d` with a value of which `P` holds. -/
def Outcome.Gives {α : Type} {n : Nat} (x : Outcome α n) (P : α → Prop) (d : Cursor) : Prop :=
  ∃ a h, x = .ok a d h ∧ P a

namespace Outcome.Gives

variable {α β : Type} {n m : Nat} {x : Outcome α n} {P P' : α → Prop} {Q : β → Prop} {d e : Cursor}

theorem ok {a : α} {h : d.size < n} (ha : P a) : (Outcome.ok a d h).Gives P d := ⟨a, h, rfl, ha⟩

theorem andThen {f : (a : α) → (c : Cursor) → c.size < n → Outcome β m} {le : n ≤ m} (hx : x.Gives P d)
    (hf : ∀ a h, P a → (f a d h).Gives Q e) : (x.andThen f le).Gives Q e := by
  obtain ⟨a, h, rfl, ha⟩ := hx
  exact hf a h ha

theorem weaken {le : n ≤ m} (hx : x.Gives P d) : (x.weaken le).Gives P d :=
  hx.andThen fun _ _ ha => .ok ha

theorem map {f : α → β} (hx : x.Gives P d) (hf : ∀ a, P a → Q (f a)) : (x.map f).Gives Q d :=
  hx.andThen fun a _ ha => .ok (hf a ha)

theorem mono (hx : x.Gives P d) (h : ∀ a, P a → P' a) : x.Gives P' d := by
  obtain ⟨a, hlt, rfl, ha⟩ := hx
  exact ⟨a, hlt, rfl, h a ha⟩

end Outcome.Gives

namespace Cursor

variable {inp : Input} {c : Cursor} {t : Token} {ts : List Token}

theorem head_eq (hc : c.rest = t :: ts) : c.head inp = t := by
  rw [head, hc, headD_cons]

theorem take_eq_some {β : Type} {f : Token → Option β} {b : β} (hc : c.rest = t :: ts) (hf : f t = some b) :
    ∃ h, c.take f = some (b, ⟨c.past t ts, h⟩) := by
  rcases c with ⟨last, rest, issues⟩
  obtain rfl : rest = t :: ts := hc
  exact ⟨Nat.lt_succ_self _, by simp [take, hf]⟩

theorem take_eq_none {β : Type} {f : Token → Option β} (hf : f (c.head inp) = none) : c.take f = none := by
  rcases c with ⟨last, _ | ⟨t, ts⟩, issues⟩
  · rfl
  · have hf : f t = none := hf
    simp [take, hf]

theorem accept_eq_some (hc : c.rest = t :: ts) (hp : p t = true) :
    ∃ h, c.accept p = some (t, ⟨c.past t ts, h⟩) :=
  take_eq_some hc (by simp [hp])

theorem accept_eq_none {p : Token → Bool} (hp : p (c.head inp) = false) : c.accept p = none := by
  rw [accept]
  exact take_eq_none (if_neg (Bool.eq_false_iff.1 hp))

theorem acceptOp_eq_some {op : String} (hc : c.rest = t :: ts) (hop : t.isOp op = true) :
    ∃ h, c.acceptOp op = some (t, ⟨c.past t ts, h⟩) := accept_eq_some hc hop

theorem acceptOp_eq_none {op : String} (hop : (c.head inp).isOp op = false) : c.acceptOp op = none :=
  accept_eq_none hop

theorem acceptWord_eq_some {word : String} (hc : c.rest = t :: ts) (hword : t.isWord word = true) :
    ∃ h, c.acceptWord word = some (t, ⟨c.past t ts, h⟩) := accept_eq_some hc hword

theorem acceptWord_eq_none {word : String} (hword : (c.head inp).isWord word = false) : c.acceptWord word = none :=
  accept_eq_none hword

theorem gives_expect {complaint : Found → Complaint} (hc : c.rest = t :: ts) (hp : p t = true) :
    (c.expect inp p complaint).Gives (· = t) (c.past t ts) := by
  obtain ⟨h, haccept⟩ := accept_eq_some hc hp
  rw [expect, haccept]
  exact .ok rfl

end Cursor

/-! ## Tokens that go on with an expression -/

/-- Whether a token can go on with an expression that binds at least as tightly as `k`. -/
def Continues (k : Nat) (t : Token) : Prop :=
  t.isOpIn [".", "::", "(", "["] = true ∨ ∃ op : BinaryOp, k ≤ op.tightness ∧ op.lexeme.spelledBy t = true

/-- How tightly the operators of a level bind. -/
def Level.tightness : Level → Nat
  | relation => 1
  | sum => 2
  | product => 3

variable {t : Token} {op : BinaryOp} {k : Nat}

theorem Continues.mono (hjk : j ≤ k) (h : Continues k t) : Continues j t := by
  rcases h with h | ⟨op, hk, hop⟩
  · exact .inl h
  · exact .inr ⟨op, Nat.le_trans hjk hk, hop⟩

theorem suffix_eq_none (h : ¬ Continues k t) (literal : Bool) : Suffix.of? literal t = none := by
  have hnot : ∀ s ∈ [".", "::", "(", "["], t.isOp s = false := by
    intro s hs
    rw [← Bool.not_eq_true, isOp_iff]
    intro ⟨hkind, htext⟩
    exact h (.inl (isOpIn_iff.2 ⟨hkind, htext ▸ hs⟩))
  simp [Suffix.of?, hnot]

/-- What a level reads as an operator is written as that operator. -/
theorem Level.spelledBy_of_operator? {level : Level} (h : level.operator? t = some op) :
    op.tightness = level.tightness ∧ op.lexeme.spelledBy t = true := by
  have hsigns : ∀ op ∈ level.signs, op.tightness = level.tightness ∧ op.lexeme = .sign op.text := by
    cases level <;> decide
  have hwords : ∀ op ∈ level.words, op.tightness = level.tightness ∧ op.lexeme = .word op.text := by
    cases level <;> decide
  rw [operator?] at h
  split at h
  · next op' hfind =>
    obtain rfl : op' = op := Option.some.inj h
    obtain ⟨htight, hlexeme⟩ := hsigns _ (mem_of_find?_eq_some hfind)
    have hspelled := find?_some hfind
    exact ⟨htight, by rw [hlexeme]; exact hspelled⟩
  · obtain ⟨htight, hlexeme⟩ := hwords _ (mem_of_find?_eq_some h)
    have hspelled := find?_some h
    exact ⟨htight, by rw [hlexeme]; exact hspelled⟩

theorem operator?_eq_some {level : Level} (htight : op.tightness = level.tightness)
    (h : op.lexeme.spelledBy t = true) :
    level.operator? t = some op := by
  have hmem : op ∈ level.signs ∧ op.lexeme = .sign op.text ∨ op ∈ level.words ∧ op.lexeme = .word op.text := by
    revert htight
    cases level <;> cases op <;> decide
  have hsome : (level.operator? t).isSome = true := by
    rw [Level.operator?]
    split
    · rfl
    · next hnone =>
      rcases hmem with ⟨hmem, hlexeme⟩ | ⟨hmem, hlexeme⟩
      · rw [hlexeme] at h
        exact absurd h (find?_eq_none.1 hnone op hmem)
      · rw [hlexeme] at h
        exact find?_isSome.2 ⟨op, hmem, h⟩
  obtain ⟨op', hop'⟩ := Option.isSome_iff_exists.1 hsome
  rw [hop', eq_of_spelledBy (Level.spelledBy_of_operator? hop').2 h]

theorem not_continues_of_sign {s : String} (h : t.isOp s = true) (hsuffix : s ∉ [".", "::", "(", "["])
    (hop : BinaryOp.ofText? s = none) : ¬ Continues k t := by
  obtain ⟨hkind, htext⟩ := isOp_iff.1 h
  rintro (hin | ⟨op, -, hspelled⟩)
  · exact hsuffix (htext ▸ (isOpIn_iff.1 hin).2)
  · have hsome := ofText?_of_spelledBy hspelled
    rw [if_pos hkind, htext, hop] at hsome
    cases hsome

theorem not_continues_of_word {w : String} (h : t.isWord w = true) (hop : BinaryOp.ofText? w = none) :
    ¬ Continues k t := by
  obtain ⟨hkind, hvalue⟩ := isWord_iff.1 h
  rintro (hin | ⟨op, -, hspelled⟩)
  · exact absurd (hkind.symm.trans (isOpIn_iff.1 hin).1) (by decide)
  · have hsome := ofText?_of_spelledBy hspelled
    rw [hkind, if_neg (by decide), hvalue, hop] at hsome
    cases hsome

theorem not_continues_of_operator (h : op.lexeme.spelledBy t = true) : ¬ Continues (op.tightness + 1) t := by
  rintro (hin | ⟨op', htight, hop'⟩)
  · obtain ⟨hkind, hmem⟩ := isOpIn_iff.1 hin
    have hsome := ofText?_of_spelledBy h
    have hnone : ∀ s ∈ [".", "::", "(", "["], BinaryOp.ofText? s = none := by decide
    rw [if_pos hkind, hnone _ hmem] at hsome
    cases hsome
  · obtain rfl := eq_of_spelledBy h hop'
    omega

/-! ## Tokens that start an expression -/

def StartsOperand (t : Token) : Prop := (Start.of? t).isSome = true ∨ (unaryOp? t).isSome = true

/-- A token that can start a primary expression. -/
def StartsPrimary (t : Token) : Prop := (Start.of? t).isSome = true ∧ unaryOp? t = none

theorem StartsPrimary.operand (h : StartsPrimary t) : StartsOperand t := .inl h.1

theorem StartsOperand.not_op {ops : List String} (h : StartsOperand t) (hops : ∀ s ∈ ["(", "[", "-", "+"], s ∉ ops) :
    t.isOpIn ops = false := by
  rw [← Bool.not_eq_true, isOpIn_iff]
  rintro ⟨hkind, hmem⟩
  have hne : ∀ s ∈ ["(", "[", "-", "+"], t.text ≠ s := fun s hs heq => hops s hs (heq ▸ hmem)
  rcases h with h | h
  · simp [Start.of?, hkind, hne] at h
  · simp [unaryOp?, Token.isWord, Token.isWordIn, Token.isOp, Token.isOpIn, hkind, hne] at h

theorem unaryOp?_eq_some {op : UnaryOp} (h : op.lexeme.spelledBy t = true) : unaryOp? t = some op := by
  cases op <;> simp [UnaryOp.lexeme, UnaryOp.text, Lexeme.spelledBy, isWord_iff, isOp_iff] at h <;>
    simp [unaryOp?, Token.isWord, Token.isWordIn, Token.isOp, Token.isOpIn, h.1, h.2]

theorem start_of_literal {kind : LiteralKind} {value : String} (hvalue : Expr.hasLiteral kind value = true)
    (h : (kind.lexeme value).spelledBy t = true) : Start.of? t = some (.constant value kind) ∧ unaryOp? t = none := by
  cases kind with
  | string =>
    simp [LiteralKind.lexeme, Lexeme.spelledBy] at h
    simp [Start.of?, unaryOp?, Token.isWord, Token.isWordIn, Token.isOp, Token.isOpIn, h]
  | boolean =>
    simp [LiteralKind.lexeme, Lexeme.spelledBy, isWord_iff] at h
    simp [Expr.hasLiteral] at hvalue
    rcases hvalue with rfl | rfl <;>
      simp [Start.of?, Token.lower, unaryOp?, Token.isWord, Token.isWordIn, Token.isOp, Token.isOpIn, h]
  | number =>
    simp [LiteralKind.lexeme, Lexeme.spelledBy] at h
    simp [Expr.hasLiteral] at hvalue
    simp [Start.of?, unaryOp?, Token.isWord, Token.isWordIn, Token.isOp, Token.isOpIn, h, hvalue]
  | date =>
    simp [LiteralKind.lexeme, Lexeme.spelledBy] at h
    simp [Expr.hasLiteral] at hvalue
    simp [Start.of?, unaryOp?, Token.isWord, Token.isWordIn, Token.isOp, Token.isOpIn, h, hvalue]

theorem eq_of_spelledBy_name {n : String} {quoted : Bool} (h : (Lexeme.name n quoted).spelledBy t = true) :
    t.isName = true ∧ t.value = n ∧ t.isQuoted = quoted := by
  cases quoted <;> simp [Lexeme.spelledBy] at h <;> simp [Token.isName, Token.isQuoted, h]

theorem start_of_name {n : String} {quoted : Bool}
    (hname : quoted = true ∨ Text.lower n ∉ "true" :: "false" :: "not" :: reservedWords)
    (h : (Lexeme.name n quoted).spelledBy t = true) : Start.of? t = some (.name n quoted) ∧ unaryOp? t = none := by
  cases quoted with
  | true =>
    simp [Lexeme.spelledBy] at h
    simp [Start.of?, unaryOp?, Token.isWord, Token.isWordIn, Token.isOp, Token.isOpIn, h]
  | false =>
    simp [Lexeme.spelledBy] at h
    simp at hname
    simp [Start.of?, Token.lower, unaryOp?, Token.isWord, Token.isWordIn, Token.isOp, Token.isOpIn, h, hname]

theorem start_of_group (h : t.isOp "(" = true) : Start.of? t = some .group ∧ unaryOp? t = none := by
  obtain ⟨hkind, htext⟩ := isOp_iff.1 h
  simp [Start.of?, unaryOp?, Token.isWord, Token.isWordIn, Token.isOp, Token.isOpIn, hkind, htext]

theorem start_of_set (h : t.isOp "[" = true) : Start.of? t = some .set ∧ unaryOp? t = none := by
  obtain ⟨hkind, htext⟩ := isOp_iff.1 h
  simp [Start.of?, unaryOp?, Token.isWord, Token.isWordIn, Token.isOp, Token.isOpIn, hkind, htext]

/-! ## What is read of some lexemes, level by level -/

/-- The same expression, at whatever places. -/
def Same (e e' : Expr) : Prop := e'.unplaced = e.unplaced

theorem Same.eq {e e' : Expr} (h : Same e e') : e'.unplaced = e.unplaced := h

/-- The lexemes are read as a primary expression `e` and what follows it. `called` says whether a parenthesis
follows: a method that needs no parentheses is called by its name if there are none. -/
def ReadsAccess (inp : Input) (called : Bool) (xs : List Lexeme) (e : Expr) : Prop :=
  ∀ c d, c.Spells xs d → (d.head inp).isOp "(" = called → StartsPrimary (c.head inp) ∧
    ∀ (Q : Expr → Prop) f, (∀ e', Same e e' → (suffixes inp (c.head inp) e' d).Gives Q f) → (access inp c).Gives Q f

def ReadsUnary (inp : Input) (xs : List Lexeme) (e : Expr) : Prop :=
  ∀ c d, c.Spells xs d → ¬ Continues 4 (d.head inp) → StartsOperand (c.head inp) ∧ (unary inp c).Gives (Same e) d

/-- The lexemes are read as one operand of a level. -/
def ReadsOperand (inp : Input) (level : Level) (xs : List Lexeme) (e : Expr) : Prop :=
  ∀ c d, c.Spells xs d → ¬ Continues (level.tightness + 1) (d.head inp) →
    StartsOperand (c.head inp) ∧ (operand inp level c).Gives (Same e) d

/-- The lexemes are read as operands of a level that have been joined to `e`. -/
def ReadsOperands (inp : Input) (level : Level) (xs : List Lexeme) (e : Expr) : Prop :=
  ∀ c d, c.Spells xs d → ¬ Continues (level.tightness + 1) (d.head inp) → StartsOperand (c.head inp) ∧
    ∀ (Q : Expr → Prop) f, (∀ e', Same e e' → (operators inp level (c.head inp) e' d).Gives Q f) →
      (operands inp level c).Gives Q f

/-- The lexemes are read as the expression `e`. If it is a range without an upper end, one of the tokens must
follow that show this. -/
def ReadsExpression (inp : Input) (leavesOut : Expr → Bool) (xs : List Lexeme) (e : Expr) : Prop :=
  ∀ c d, c.Spells xs d → ¬ Continues 0 (d.head inp) →
    (e.isOpenRange leavesOut = true → (d.head inp).isOpIn [",", "]", ":", ")"] = true) →
    StartsOperand (c.head inp) ∧ (expression inp c).Gives (Same e) d

variable {inp : Input} {leavesOut : Expr → Bool} {xs ys : List Lexeme} {e e' : Expr} {level : Level}

theorem suffixes_stop {c : Cursor} {start : Token} (h : ¬ Continues k (c.head inp)) (hsame : Same e e') :
    (suffixes inp start e' c).Gives (Same e) c := by
  rw [suffixes, take_eq_none (suffix_eq_none h _)]
  exact .ok hsame

/-- Where no operator of a level stands, no further operands of the level are read. -/
theorem operators_end {P : Expr → Prop} {c : Cursor} {start : Token}
    (h : ∀ op : BinaryOp, op.tightness = level.tightness → op.lexeme.spelledBy (c.head inp) ≠ true) (he : P e) :
    (operators inp level start e c).Gives P c := by
  have hnone : level.operator? (c.head inp) = none := by
    rw [Option.eq_none_iff_forall_ne_some]
    intro op hop
    obtain ⟨htight, hspelled⟩ := Level.spelledBy_of_operator? hop
    exact h op htight hspelled
  rw [operators, take_eq_none hnone]
  exact .ok he

theorem operators_stop {c : Cursor} {start : Token} (h : ¬ Continues level.tightness (c.head inp))
    (hsame : Same e e') : (operators inp level start e' c).Gives (Same e) c :=
  operators_end (fun op htight hspelled => h (.inr ⟨op, Nat.le_of_eq htight.symm, hspelled⟩)) hsame

theorem ReadsAccess.gives {c d : Cursor} (h : ReadsAccess inp false xs e) (hspells : c.Spells xs d)
    (hstop : ¬ Continues k (d.head inp)) : StartsPrimary (c.head inp) ∧ (access inp c).Gives (Same e) d := by
  have hplain : (d.head inp).isOp "(" = false := by
    rw [← Bool.not_eq_true, isOp_iff]
    rintro ⟨hkind, htext⟩
    exact hstop (.inl (isOpIn_iff.2 ⟨hkind, by simp [htext]⟩))
  obtain ⟨hstart, haccess⟩ := h c d hspells hplain
  exact ⟨hstart, haccess _ d fun e' hsame => suffixes_stop hstop hsame⟩

theorem ReadsAccess.unary (h : ReadsAccess inp false xs e) : ReadsUnary inp xs e := by
  intro c d hspells hstop
  obtain ⟨hstart, haccess⟩ := h.gives hspells hstop
  refine ⟨hstart.operand, ?_⟩
  rw [Reading.unary, take_eq_none hstart.2]
  exact haccess

theorem ReadsUnary.operand (h : ReadsUnary inp xs e) : ReadsOperand inp .product xs e := by
  intro c d hspells hstop
  rw [Reading.operand]
  exact h c d hspells hstop

theorem ReadsOperand.operands (h : ReadsOperand inp level xs e) : ReadsOperands inp level xs e := by
  intro c d hspells hstop
  obtain ⟨hstart, hoperand⟩ := h c d hspells hstop
  refine ⟨hstart, fun Q f hrest => ?_⟩
  rw [Reading.operands]
  exact hoperand.andThen fun e' _ hsame => (hrest e' hsame).weaken

theorem ReadsOperands.gives {c d : Cursor} (h : ReadsOperands inp level xs e) (hspells : c.Spells xs d)
    (hstop : ¬ Continues level.tightness (d.head inp)) :
    StartsOperand (c.head inp) ∧ (operands inp level c).Gives (Same e) d := by
  obtain ⟨hstart, hoperands⟩ := h c d hspells fun hcont => hstop (hcont.mono (Nat.le_succ _))
  exact ⟨hstart, hoperands _ d fun e' hsame => operators_stop hstop hsame⟩

theorem ReadsOperands.sum (h : ReadsOperands inp .product xs e) : ReadsOperand inp .sum xs e := by
  intro c d hspells hstop
  rw [Reading.operand]
  exact h.gives hspells hstop

theorem ReadsOperands.relation (h : ReadsOperands inp .sum xs e) : ReadsOperand inp .relation xs e := by
  intro c d hspells hstop
  rw [Reading.operand]
  exact h.gives hspells hstop

theorem ReadsOperands.expression (h : ReadsOperands inp .relation xs e) : ReadsExpression inp leavesOut xs e := by
  intro c d hspells hstop _
  obtain ⟨hstart, hoperands⟩ := h.gives hspells fun hcont => hstop (hcont.mono (Nat.zero_le _))
  refine ⟨hstart, ?_⟩
  rw [Reading.expression]
  refine hoperands.andThen fun e' _ hsame => ?_
  have hrange : (d.head inp).isOp ".." = false :=
    Bool.eq_false_iff.2 fun hop => hstop (.inr ⟨.range, Nat.le_refl _, hop⟩)
  rw [acceptOp_eq_none hrange]
  exact .ok hsame

/-! ## Primary expressions and what follows them -/

/-- A primary expression starts with a token that tells how it is read. -/
theorem readsAccess_of_start {x : Lexeme} {start : Start}
    (hstart : ∀ t : Token, x.spelledBy t = true → Start.of? t = some start ∧ unaryOp? t = none)
    (h : ∀ c c₁ d hlt, c.take Start.of? = some (start, ⟨c₁, hlt⟩) → c₁.Spells xs d →
    (primary inp c).Gives (Same e) d) :
    ReadsAccess inp called (x :: xs) e := by
  intro c d hspells _
  obtain ⟨t, ts, hc, hx, hxs⟩ := hspells
  obtain ⟨hstart, hunary⟩ := hstart t hx
  obtain ⟨hlt, htake⟩ := take_eq_some hc hstart
  refine ⟨?_, fun Q f hf => ?_⟩
  · rw [head_eq hc]
    exact ⟨by rw [hstart]; rfl, hunary⟩
  · rw [access]
    exact (h c _ d hlt htake hxs).andThen fun e' _ hsame => (hf e' hsame).weaken

theorem reads_constant {value : String} {kind : LiteralKind} {span : Span}
    (hvalue : Expr.hasLiteral kind value = true) :
    ReadsAccess inp called [kind.lexeme value] (.constant value kind span) := by
  refine readsAccess_of_start (fun t => start_of_literal hvalue) fun c c₁ d hlt htake hnil => ?_
  obtain rfl : c₁ = d := hnil
  rw [primary, htake]
  exact .ok rfl

theorem reads_name {quoted : Bool} {n : String} {span : Span}
    (hname : quoted = true ∨ Text.lower n ∉ "true" :: "false" :: "not" :: reservedWords) :
    ReadsAccess inp called [.name n quoted] (.name n quoted span) := by
  refine readsAccess_of_start (fun t => start_of_name hname) fun c c₁ d hlt htake hnil => ?_
  obtain rfl : c₁ = d := hnil
  rw [primary, htake]
  exact .ok rfl

theorem ReadsExpression.group (h : ReadsExpression inp leavesOut xs e) :
    ReadsAccess inp called (.sign "(" :: xs ++ [.sign ")"]) e := by
  refine readsAccess_of_start (fun t => start_of_group) fun c c₀ d hlt htake hinner => ?_
  obtain ⟨c₁, hxs, t', ts', hc₁, hclose, rfl⟩ := spells_append.1 hinner
  rw [primary, htake]
  have hstop : ¬ Continues 0 (c₁.head inp) := by
    rw [head_eq hc₁]
    exact not_continues_of_sign hclose (by decide) (by decide)
  have hend : (c₁.head inp).isOpIn [",", "]", ":", ")"] = true := by
    rw [head_eq hc₁]
    exact isOpIn_of_isOp hclose (by simp)
  have hexpr := (h _ _ hxs hstop fun _ => hend).2
  exact hexpr.andThen fun e' _ hsame => (gives_expect hc₁ hclose).andThen fun _ _ _ => .ok hsame

/-- The member `n` of an expression, or a call of it where naming it is calling it. -/
def named (called : Bool) (target : Expr) (n : String) (quoted : Bool) : Expr :=
  let e : Expr := .member target n quoted default
  if e.isImplicitMethod && !called then .call e [] true default else e

theorem same_memberOf {target target' : Expr} {n : String} {quoted : Bool} {t next : Token} {span : Span}
    (hsame : Same target target') (h : (Lexeme.name n quoted).spelledBy t = true) :
    Same (named (next.isOp "(") target n quoted) (memberOf target' t next span) := by
  obtain ⟨-, hvalue, hquoted⟩ := eq_of_spelledBy_name h
  have himplicit : implicitMethods.contains t.lower = (Expr.member target n quoted default).isImplicitMethod := by
    cases quoted <;> simp [Lexeme.spelledBy] at h <;> simp [Token.lower, Expr.isImplicitMethod, h]
    decide
  rw [Same, named, memberOf, himplicit, hvalue, hquoted]
  split <;> simp [Expr.unplaced, Expr.allUnplaced, hsame.eq]

def Suffix.sign : Suffix → String
  | member => "."
  | scope => "::"
  | call => "("
  | index => "["

/-- What follows an expression is read with it if it is read behind any such expression. -/
theorem ReadsAccess.suffix {called : Bool} {whole : Expr} (suffix : Suffix)
    (h : ReadsAccess inp (suffix.sign == "(") xs e) (hliteral : suffix = .index → isLiteral e = false)
    (hsuffix : ∀ c c₁ d start e' hlt, c.take (Suffix.of? (isLiteral e')) = some (suffix, ⟨c₁, hlt⟩) → c₁.Spells ys d →
      (d.head inp).isOp "(" = called → Same e e' → ∀ (Q : Expr → Prop) f,
        (∀ e', Same whole e' → (suffixes inp start e' d).Gives Q f) → (suffixes inp start e' c).Gives Q f) :
    ReadsAccess inp called (xs ++ .sign suffix.sign :: ys) whole := by
  intro c d hspells hcalled
  obtain ⟨c₁, hxs, t, ts, hc₁, ht, hys⟩ := spells_append.1 hspells
  obtain ⟨hkind, htext⟩ := isOp_iff.1 ht
  have hnext : (c₁.head inp).isOp "(" = (suffix.sign == "(") := by
    rw [head_eq hc₁, Bool.eq_iff_iff, isOp_iff, beq_iff_eq, htext]
    exact and_iff_right hkind
  have hof : Suffix.of? (isLiteral e) t = some suffix := by
    cases suffix <;> simp [Suffix.of?, Token.isOp, Token.isOpIn, hkind, htext, Suffix.sign, hliteral]
  obtain ⟨hstart, haccess⟩ := h c c₁ hxs hnext
  refine ⟨hstart, fun Q f hf => haccess Q f fun e' hsame => ?_⟩
  obtain ⟨hlt, htake⟩ := take_eq_some hc₁ (Expr.isLiteral_eq_of_unplaced hsame ▸ hof)
  exact hsuffix c₁ _ d (c.head inp) e' hlt htake hys hcalled hsame Q f hf

theorem reads_member {quoted : Bool} {n : String} (h : ReadsAccess inp false xs e) :
    ReadsAccess inp called (xs ++ [.sign ".", .name n quoted]) (named called e n quoted) := by
  refine .suffix .member h (by simp) fun c c₁ d start e' hlt htake hys hcalled hsame Q f hf => ?_
  obtain ⟨t', ts', hc', hname, rfl⟩ := hys
  rw [suffixes, htake]
  refine (gives_expect hc' (eq_of_spelledBy_name hname).1).andThen fun name _ hname' => ?_
  rw [hname']
  exact (hf _ (hcalled ▸ same_memberOf hsame hname)).weaken

theorem reads_scope {n : String} {span : Span} (h : ReadsAccess inp false xs e) :
    ReadsAccess inp called (xs ++ [.sign "::", .label n]) (.scope e n span) := by
  refine .suffix .scope h (by simp) fun c c₁ d start e' hlt htake hys _ hsame Q f hf => ?_
  obtain ⟨t', ts', hc', hlabel, rfl⟩ := hys
  simp only [Lexeme.spelledBy, Bool.and_eq_true, beq_iff_eq] at hlabel
  rw [suffixes, htake]
  refine (gives_expect hc' hlabel.1).andThen fun name _ hname => (hf _ ?_).weaken
  simp [Same, Expr.unplaced, hsame.eq, hname, hlabel.2]

/-! ## Lists of expressions -/

/-- The same expressions, at whatever places. -/
def SameAll (es es' : List Expr) : Prop := Expr.allUnplaced es' = Expr.allUnplaced es

theorem SameAll.eq {es' : List Expr} (h : SameAll es es') : Expr.allUnplaced es' = Expr.allUnplaced es := h

/-- The lexemes are read as expressions up to a closing bracket. -/
def ReadsArguments (inp : Input) (xs : List Lexeme) (es : List Expr) : Prop :=
  ∀ closing ∈ [")", "]"], ∀ c d, c.Spells (xs ++ [.sign closing]) d → (arguments inp closing c).Gives (SameAll es) d

theorem reads_index {span : Span} (h : ReadsAccess inp false xs e)
    (hliteral : isLiteral e = false) (hargs : ReadsArguments inp ys es) :
    ReadsAccess inp called (xs ++ .sign "[" :: (ys ++ [.sign "]"])) (.index e es span) := by
  refine .suffix .index h (fun _ => hliteral) fun c c₁ d start e' hlt htake hys _ hsame Q f hf => ?_
  rw [suffixes, htake]
  refine (hargs "]" (by simp) _ d hys).andThen fun es' _ hes => (hf _ ?_).weaken
  simp [Same, Expr.unplaced, hsame.eq, hes.eq]

theorem reads_call {span : Span} (h : ReadsAccess inp true xs e)
    (hargs : ReadsArguments inp ys es) :
    ReadsAccess inp called (xs ++ .sign "(" :: (ys ++ [.sign ")"])) (.call e es false span) := by
  refine .suffix .call h (by simp) fun c c₁ d start e' hlt htake hys _ hsame Q f hf => ?_
  rw [suffixes, htake]
  refine (hargs ")" (by simp) _ d hys).andThen fun es' _ hes => (hf _ ?_).weaken
  simp [Same, Expr.unplaced, hsame.eq, hes.eq]

theorem reads_set {span : Span} (hargs : ReadsArguments inp xs es) :
    ReadsAccess inp called (.sign "[" :: (xs ++ [.sign "]"])) (.set es span) := by
  refine readsAccess_of_start (fun t => start_of_set) fun c c₁ d hlt htake hxs => ?_
  rw [primary, htake]
  refine (hargs "]" (by simp) _ d hxs).andThen fun es' _ hes => .ok ?_
  simp [Same, Expr.unplaced, hes.eq]

/-! ## Operators -/

theorem reads_unary {op : UnaryOp} {span : Span} (h : ReadsUnary inp xs e) :
    ReadsUnary inp (op.lexeme :: xs) (.unary op e span) := by
  intro c d hspells hstop
  obtain ⟨t, ts, hc, hop, hxs⟩ := hspells
  have hunary := unaryOp?_eq_some hop
  refine ⟨.inr (by rw [head_eq hc, hunary]; rfl), ?_⟩
  obtain ⟨hlt, htake⟩ := take_eq_some hc hunary
  rw [unary, htake]
  refine (h _ d hxs hstop).2.andThen fun e' _ hsame => .ok ?_
  simp [Same, Expr.unplaced, hsame.eq]

theorem reads_binary {span : Span} (htight : op.tightness = level.tightness)
    (hleft : ReadsOperands inp level xs left) (hright : ReadsOperand inp level ys right) :
    ReadsOperands inp level (xs ++ op.lexeme :: ys) (.binary op left right span) := by
  intro c d hspells hstop
  obtain ⟨c₁, hxs, t, ts, hc₁, hop, hys⟩ := spells_append.1 hspells
  have hstop₁ : ¬ Continues (level.tightness + 1) (c₁.head inp) := by
    rw [head_eq hc₁, ← htight]
    exact not_continues_of_operator hop
  obtain ⟨hstart, hoperands⟩ := hleft c c₁ hxs hstop₁
  refine ⟨hstart, fun Q f hf => hoperands Q f fun left' hsame => ?_⟩
  obtain ⟨hlt, htake⟩ := take_eq_some hc₁ (operator?_eq_some htight hop)
  rw [operators, htake]
  refine (hright _ d hys hstop).2.andThen fun right' _ hsame' => (hf _ ?_).weaken
  simp [Same, Expr.unplaced, hsame.eq, hsame'.eq]

/-- The lower end of a range is read up to the sign of the range. -/
theorem reads_lower {c c₁ : Cursor} {ts : List Token} (hleft : ReadsOperands inp .relation xs left)
    (hxs : c.Spells xs c₁) (hc₁ : c₁.rest = t :: ts) (hop : t.isOp ".." = true) :
    StartsOperand (c.head inp) ∧ (operands inp .relation c).Gives (Same left) c₁ := by
  have hrange : BinaryOp.range.lexeme.spelledBy t = true := hop
  refine hleft.gives hxs ?_
  rw [head_eq hc₁]
  exact not_continues_of_operator hrange

theorem reads_range {span : Span} (hleft : ReadsOperands inp .relation xs left)
    (hright : ReadsOperands inp .relation ys right) :
    ReadsExpression inp leavesOut (xs ++ .sign ".." :: ys) (.binary .range left right span) := by
  intro c d hspells hstop _
  obtain ⟨c₁, hxs, t, ts, hc₁, hop, hys⟩ := spells_append.1 hspells
  obtain ⟨hstart, hgives⟩ := reads_lower hleft hxs hc₁ hop
  obtain ⟨hstart', hgives'⟩ := hright.gives hys fun hcont => hstop (hcont.mono (Nat.zero_le _))
  refine ⟨hstart, ?_⟩
  obtain ⟨hlt, haccept⟩ := acceptOp_eq_some hc₁ hop
  rw [expression]
  refine hgives.andThen fun left' _ hsame => ?_
  rw [haccept]
  have hgoes : ((c₁.past t ts).head inp).isOpIn [",", "]", ":", ")"] = false := hstart'.not_op (by decide)
  simp only [hgoes, Bool.false_eq_true, if_false]
  refine hgives'.andThen fun right' _ hsame' => .ok ?_
  simp [Same, Expr.unplaced, hsame.eq, hsame'.eq]

theorem reads_openRange {span : Span} (hleft : ReadsOperands inp .relation xs left)
    (hopen : (Expr.binary .range left (.constant "" .string span') span).isOpenRange leavesOut = true) :
    ReadsExpression inp leavesOut (xs ++ [.sign ".."]) (.binary .range left (.constant "" .string span') span) := by
  intro c d hspells hstop hend
  obtain ⟨c₁, hxs, t, ts, hc₁, hop, rfl⟩ := spells_append.1 hspells
  obtain ⟨hstart, hgives⟩ := reads_lower hleft hxs hc₁ hop
  refine ⟨hstart, ?_⟩
  obtain ⟨hlt, haccept⟩ := acceptOp_eq_some hc₁ hop
  rw [expression]
  refine hgives.andThen fun left' _ hsame => ?_
  rw [haccept]
  simp only [hend hopen, if_true]
  exact .ok (by simp [Same, Expr.unplaced, hsame.eq])

theorem not_continues_of_end (h : t.isOpIn [",", "]", ":", ")"] = true) : ¬ Continues k t := by
  obtain ⟨hkind, hmem⟩ := isOpIn_iff.1 h
  have hother : ∀ s ∈ [",", "]", ":", ")"], s ∉ [".", "::", "(", "["] ∧ BinaryOp.ofText? s = none := by decide
  exact not_continues_of_sign (isOp_iff.2 ⟨hkind, rfl⟩) (hother _ hmem).1 (hother _ hmem).2

theorem reads_expressions {es : List Expr} (hne : es ≠ [])
    (h : ∀ e ∈ es, ReadsExpression inp leavesOut (e.lexemes true leavesOut) e) {c d : Cursor}
    (hspells : c.Spells (Expr.listLexemes true leavesOut es) d) (hend : (d.head inp).isOpIn ["]", ":", ")"] = true) :
    StartsOperand (c.head inp) ∧ (expressions inp c).Gives (SameAll es) d := by
  induction es generalizing c with
  | nil => exact absurd rfl hne
  | cons e rest ih =>
    have he := h e mem_cons_self
    cases rest with
    | nil =>
      obtain ⟨hkind, hmem⟩ := isOpIn_iff.1 hend
      have hend' : (d.head inp).isOpIn [",", "]", ":", ")"] = true :=
        isOpIn_iff.2 ⟨hkind, mem_cons_of_mem _ hmem⟩
      obtain ⟨hstart, hgives⟩ := he c d hspells (not_continues_of_end hend') fun _ => hend'
      refine ⟨hstart, ?_⟩
      have hcomma : (d.head inp).isOp "," = false := by
        rw [← Bool.not_eq_true, isOp_iff]
        rintro ⟨-, htext⟩
        rw [htext] at hmem
        exact absurd hmem (by decide)
      rw [expressions]
      refine hgives.andThen fun e' _ hsame => ?_
      rw [acceptOp_eq_none hcomma]
      exact .ok (by simp [SameAll, Expr.allUnplaced, hsame.eq])
    | cons next rest =>
      obtain ⟨c₁, he', t, ts, hc₁, hcomma, hrest⟩ := spells_append.1 hspells
      have hend₁ : (c₁.head inp).isOpIn [",", "]", ":", ")"] = true := by
        rw [head_eq hc₁]
        exact isOpIn_of_isOp hcomma (by simp)
      obtain ⟨hstart, hgives⟩ := he c c₁ he' (not_continues_of_end hend₁) fun _ => hend₁
      refine ⟨hstart, ?_⟩
      obtain ⟨-, hgives'⟩ := ih (cons_ne_nil _ _) (fun e' hmem => h e' (mem_cons_of_mem _ hmem)) hrest
      obtain ⟨hlt, haccept⟩ := acceptOp_eq_some hc₁ hcomma
      rw [expressions]
      refine hgives.andThen fun e' _ hsame => ?_
      rw [haccept]
      refine hgives'.andThen fun es' _ hsames => .ok ?_
      rw [SameAll, Expr.allUnplaced, hsame.eq, hsames.eq]
      rfl

theorem reads_arguments (h : ∀ e ∈ es, ReadsExpression inp leavesOut (e.lexemes true leavesOut) e) :
    ReadsArguments inp (Expr.listLexemes true leavesOut es) es := by
  intro closing hclosing c d hspells
  obtain ⟨c₁, hes, t, ts, hc₁, hclose, rfl⟩ := spells_append.1 hspells
  rw [arguments]
  by_cases hnil : es = []
  · subst hnil
    obtain rfl : c = c₁ := hes
    obtain ⟨hlt, haccept⟩ := acceptOp_eq_some hc₁ hclose
    rw [haccept]
    exact .ok rfl
  · have hend : (c₁.head inp).isOpIn ["]", ":", ")"] = true := by
      have hsub : ∀ s ∈ [")", "]"], s ∈ ["]", ":", ")"] := by decide
      rw [head_eq hc₁]
      exact isOpIn_of_isOp hclose (hsub _ hclosing)
    obtain ⟨hstart, hgives⟩ := reads_expressions hnil h hes hend
    have hgoes : (c.head inp).isOp closing = false := hstart.not_op (by
      have hother : ∀ s ∈ ["(", "[", "-", "+"], ∀ closing ∈ [")", "]"], s ∉ [closing] := by decide
      exact fun s hs => hother s hs closing hclosing)
    rw [acceptOp_eq_none hgoes]
    exact hgives.andThen fun es' _ hsames => (gives_expect hc₁ hclose).andThen fun _ _ _ => .ok hsames

/-! ## All expressions -/

/-- The lexemes are read as `e` on the level that binds as tightly as `k`. -/
def ReadsAt (inp : Input) (leavesOut : Expr → Bool) (called : Bool) : Nat → List Lexeme → Expr → Prop
  | 0, xs, e => ReadsExpression inp leavesOut xs e
  | 1, xs, e => ReadsOperands inp .relation xs e
  | 2, xs, e => ReadsOperands inp .sum xs e
  | 3, xs, e => ReadsOperands inp .product xs e
  | 4, xs, e => ReadsUnary inp xs e
  | _, xs, e => ReadsAccess inp called xs e

namespace ReadsAt

theorem of_succ (h : ReadsAt inp leavesOut false (k + 1) xs e) : ReadsAt inp leavesOut false k xs e := by
  match k, h with
  | 0, h => exact ReadsOperands.expression h
  | 1, h => exact (ReadsOperands.relation h).operands
  | 2, h => exact (ReadsOperands.sum h).operands
  | 3, h => exact (ReadsUnary.operand h).operands
  | 4, h => exact ReadsAccess.unary h
  | _ + 5, h => exact h

theorem mono (hjk : j ≤ k) (h : ReadsAt inp leavesOut false k xs e) : ReadsAt inp leavesOut false j xs e := by
  induction hjk with
  | refl => exact h
  | step _ ih => exact ih h.of_succ

theorem at_level (h : ReadsAt inp leavesOut false e.tightness xs e) (k : Nat) :
    ReadsAt inp leavesOut false k (grouped (e.tightness < k) xs) e := by
  by_cases hlt : e.tightness < k
  · have hgroup : ReadsAt inp leavesOut false (k + 5) (.sign "(" :: xs ++ [.sign ")"]) e :=
      (h.mono (Nat.zero_le _) : ReadsExpression inp leavesOut xs e).group
    simpa [grouped, hlt] using hgroup.mono (Nat.le_add_right k 5)
  · simpa [grouped, hlt] using h.mono (Nat.le_of_not_lt hlt)

theorem operands_iff : ReadsAt inp leavesOut called level.tightness xs e ↔ ReadsOperands inp level xs e := by
  cases level <;> exact Iff.rfl

theorem operand (h : ReadsAt inp leavesOut false (level.tightness + 1) xs e) : ReadsOperand inp level xs e := by
  cases level with
  | relation => exact ReadsOperands.relation h
  | sum => exact ReadsOperands.sum h
  | product => exact ReadsUnary.operand h

end ReadsAt

theorem ReadsAccess.congr {e₁ e₂ : Expr} (heq : e₁.unplaced = e₂.unplaced)
    (h : ReadsAccess inp called xs e₁) : ReadsAccess inp called xs e₂ := by
  intro c d hspells hcalled
  obtain ⟨hstart, haccess⟩ := h c d hspells hcalled
  exact ⟨hstart, fun Q f hf => haccess Q f fun e' hsame => hf e' (Eq.trans hsame heq)⟩

theorem isWritable_false (h : e.isWritable called = true) (hmethod : e.isImplicitMethod = false) :
    e.isWritable false = true := by
  cases e with
  | member target n quoted span =>
    simp only [Expr.isWritable, Bool.and_eq_true] at h ⊢
    exact ⟨h.1, by simp [hmethod]⟩
  | _ => exact h

/-- What is called is read before its arguments. A call without parentheses is read as such in parentheses only. -/
theorem reads_callee (hown : ∀ called, e.isWritable called = true → (called = true → e.isImplicitCall = false) →
      ReadsAt inp leavesOut called e.tightness xs e) (hw : e.isWritable true = true) :
    ReadsAccess inp true (grouped (e.tightness < 5 || e.isImplicitCall) xs) e := by
  by_cases hgroup : (decide (e.tightness < 5) || e.isImplicitCall) = true
  · have hmethod : e.isImplicitMethod = false := by
      cases e <;> simp [Expr.tightness, Expr.isImplicitCall] at hgroup <;> rfl
    have hexpr : ReadsExpression inp leavesOut xs e :=
      (hown false (isWritable_false hw hmethod) (by simp)).mono (Nat.zero_le _)
    simpa only [grouped, hgroup, if_true] using hexpr.group
  · simp only [Bool.or_eq_true, decide_eq_true_eq, not_or, Bool.not_eq_true] at hgroup
    have htight : e.tightness = 5 := by
      have hle : e.tightness ≤ 5 := by
        cases e <;> simp [Expr.tightness]
        next op _ _ _ => cases op <;> decide
      omega
    have hread := hown true hw fun _ => hgroup.2
    rw [htight] at hread
    rw [htight, hgroup.2]
    exact hread

/-- A call without parentheses is read where no parenthesis follows. -/
theorem reads_implicitCall {target : Expr} {n : String} {quoted : Bool} {span : Span}
    (htarget : ReadsAccess inp false xs target)
    (hmethod : (Expr.member target n quoted span').isImplicitMethod = true) :
    ReadsAccess inp false (xs ++ [.sign ".", .name n quoted])
      (.call (.member target n quoted span') [] true span) := by
  have hmethod : (Expr.member target n quoted default).isImplicitMethod = true := hmethod
  have hnamed : named false target n quoted = .call (.member target n quoted default) [] true default := by
    simp [named, hmethod]
  have hread : ReadsAccess inp false _ (named false target n quoted) := reads_member htarget
  exact hread.congr (by rw [hnamed]; rfl)

theorem exists_level (h : op ≠ .range) : ∃ level : Level, op.tightness = level.tightness := by
  cases op with
  | range => exact absurd rfl h
  | equal | notEqual | less | greater | lessEqual | greaterEqual | isIn => exact ⟨.relation, rfl⟩
  | plus | minus | or | xor => exact ⟨.sum, rfl⟩
  | times | divide | wholeDivide | modulo | and => exact ⟨.product, rfl⟩

theorem exists_eq_of_isOpenRange {span : Span}
    (h : (Expr.binary op left right span).isOpenRange leavesOut = true) :
    ∃ span', right = .constant "" .string span' := by
  rw [Expr.isOpenRange.eq_def] at h
  split at h
  · next heq =>
    simp only [Bool.and_eq_true, beq_iff_eq] at h
    cases heq
    exact ⟨_, by rw [h.1]⟩
  · cases h

theorem exists_eq_of_isImplicitMethod (h : e.isImplicitMethod = true) :
    ∃ target n quoted span, e = .member target n quoted span := by
  cases e with
  | member target n quoted span => exact ⟨target, n, quoted, span, rfl⟩
  | _ => cases h

/-- An operator joins what is read on the levels of its operands. -/
theorem reads_operator {span : Span}
    (hleft : ∀ k, ReadsAt inp leavesOut false k (grouped (left.tightness < k) xs) left)
    (hright : ∀ k, ReadsAt inp leavesOut false k (grouped (right.tightness < k) ys) right) :
    ReadsAt inp leavesOut called op.tightness
      (grouped (left.tightness < max 1 op.tightness) xs ++ op.lexeme ::
        if (Expr.binary op left right span).isOpenRange leavesOut then []
        else grouped (right.tightness < op.tightness + 1) ys)
      (.binary op left right span) := by
  by_cases hrange : op = .range
  · subst hrange
    by_cases hopen : (Expr.binary .range left right span).isOpenRange leavesOut = true
    · rw [if_pos hopen]
      obtain ⟨span', rfl⟩ := exists_eq_of_isOpenRange hopen
      exact reads_openRange (hleft 1) hopen
    · rw [if_neg hopen]
      exact reads_range (hleft 1) (hright 1)
  · have hclosed : (Expr.binary op left right span).isOpenRange leavesOut = false := by
      cases op <;> first | rfl | exact absurd rfl hrange
    obtain ⟨level, hlevel⟩ := exists_level hrange
    have hpos : max 1 op.tightness = level.tightness := by cases level <;> rw [hlevel] <;> rfl
    rw [hclosed, if_neg (by decide), hpos, hlevel]
    have hleft := ReadsAt.operands_iff.1 (hleft level.tightness)
    have hright := ReadsAt.operand (hright (level.tightness + 1))
    exact ReadsAt.operands_iff.2 (reads_binary hlevel hleft hright)

mutual

theorem reads_own (called : Bool) (e : Expr) (hw : e.isWritable called = true)
    (hcalled : called = true → e.isImplicitCall = false) :
    ReadsAt inp leavesOut called e.tightness (e.lexemes true leavesOut) e := by
  cases e with
  | constant value kind span => exact reads_constant hw
  | name n quoted span => exact reads_name (by simpa [Expr.isWritable] using hw)
  | member target n quoted span =>
    simp only [Expr.isWritable, Bool.and_eq_true, Bool.or_eq_true, Bool.not_eq_true'] at hw
    have htarget : ReadsAccess inp false _ target := (reads_own false target hw.1 (by simp)).at_level 5
    have hmember : named called target n quoted = .member target n quoted default := by
      rcases hw.2 with hcalled | hother
      · simp [named, hcalled]
      · have hother : (Expr.member target n quoted default).isImplicitMethod = false := hother
        simp [named, hother]
    have hread : ReadsAccess inp called _ (named called target n quoted) := reads_member htarget
    exact hread.congr (by rw [hmember]; rfl)
  | scope target n span =>
    simp only [Expr.isWritable] at hw
    exact reads_scope ((reads_own false target hw (by simp)).at_level 5)
  | index target indices span =>
    simp only [Expr.isWritable, Bool.and_eq_true, Bool.not_eq_true'] at hw
    obtain ⟨⟨htarget, hliteral⟩, hindices⟩ := hw
    exact reads_index ((reads_own false target htarget (by simp)).at_level 5) hliteral
      (reads_arguments (reads_all indices hindices))
  | unary op operand span =>
    simp only [Expr.isWritable] at hw
    exact reads_unary ((reads_own false operand hw (by simp)).at_level 4)
  | binary op left right span =>
    simp only [Expr.isWritable, Bool.and_eq_true] at hw
    rw [Expr.lexemes]
    exact reads_operator (reads_own false left hw.1 (by simp)).at_level
      (reads_own false right hw.2 (by simp)).at_level
  | set items span =>
    simp only [Expr.isWritable] at hw
    exact reads_set (reads_arguments (reads_all items hw))
  | call callee args implicit span =>
    simp only [Expr.isWritable, Bool.and_eq_true] at hw
    cases implicit with
    | false =>
      exact reads_call (reads_callee (fun called => reads_own called callee) hw.1.1)
        (reads_arguments (reads_all args hw.1.2))
    | true =>
      obtain rfl : called = false := Bool.eq_false_iff.2 fun h => absurd (hcalled h) (by simp [Expr.isImplicitCall])
      obtain ⟨⟨hcallee, -⟩, hlast⟩ := hw
      simp only [Bool.not_true, Bool.false_or, Bool.and_eq_true, List.isEmpty_iff] at hlast
      obtain ⟨hmethod, rfl⟩ := hlast
      obtain ⟨target, n, quoted, span', rfl⟩ := exists_eq_of_isImplicitMethod hmethod
      simp only [Expr.isWritable, Bool.and_eq_true] at hcallee
      exact reads_implicitCall ((reads_own false target hcallee.1 (by simp)).at_level 5) hmethod
termination_by sizeOf e

theorem reads_all (es : List Expr) (hw : Expr.areWritable es = true) :
    ∀ e ∈ es, ReadsExpression inp leavesOut (e.lexemes true leavesOut) e := by
  match es with
  | [] => simp
  | e :: rest =>
    simp only [Expr.areWritable, Bool.and_eq_true] at hw
    have hfirst : ReadsExpression inp leavesOut (e.lexemes true leavesOut) e :=
      (reads_own false e hw.1 (by simp)).mono (Nat.zero_le _)
    intro e' hmem
    rcases mem_cons.1 hmem with rfl | hmem
    · exact hfirst
    · exact reads_all rest hw.2 e' hmem
termination_by sizeOf es

end

theorem reads_expression (hw : e.isWritable false = true) :
    ReadsExpression inp leavesOut (e.lexemes true leavesOut) e :=
  (reads_own false e hw (by simp)).mono (Nat.zero_le _)

/-- **Reading an expression inverts writing it.** Let an expression be written with the parentheses that the
levels ask for, and with parentheses around a call without parentheses that is itself called, its ranges with or
without an empty upper end. If what follows cannot go on with an expression, reading gives the expression back,
up to places, uses exactly its tokens, and notes no issue. -/
theorem expression_inverts_writing {inp : Input} {leavesOut : Expr → Bool} {e : Expr} {c d : Cursor}
    (hwritable : e.isWritable false = true) (hspells : c.Spells (e.lexemes true leavesOut) d)
    (hstop : ¬ Continues 0 (d.head inp))
    (hopen : e.isOpenRange leavesOut = true → (d.head inp).isOpIn [",", "]", ":", ")"] = true) :
    ∃ e' h, expression inp c = .ok e' d h ∧ e'.unplaced = e.unplaced ∧
      d.rest = c.rest.drop (e.lexemes true leavesOut).length ∧ d.issues = c.issues := by
  obtain ⟨-, e', h, hread, hsame⟩ := reads_expression hwritable c d hspells hstop hopen
  exact ⟨e', h, hread, hsame, hspells.rest_and_issues⟩

theorem exists_spells_before_semicolon {xs : List Lexeme} (hplain : ∀ x ∈ xs, x.spelledBy x.token = true) :
    ∃ d, (ofLexemes (xs ++ [.sign ";"])).Spells xs d ∧ ¬ Continues 0 (d.head ⟨"", (Lexeme.sign ";").token⟩) := by
  obtain ⟨d, hspells, hrest⟩ := exists_spells_ofLexemes hplain [.sign ";"]
  refine ⟨d, hspells, ?_⟩
  rw [head_eq hrest]
  exact not_continues_of_sign (s := ";") (by decide) (by decide) (by decide)

/-- `not (A or B.Get) in [1 .., (C.Find)(2)]` -/
def nestedExpr : Expr :=
  let var name : Expr := .name name false default
  let number text : Expr := .constant text .number default
  let method target name : Expr := .call (.member target name false default) [] true default
  .binary .isIn (.unary .not (.binary .or (var "A") (method (var "B") "Get") default) default)
    (.set [.binary .range (number "1") (.constant "" .string default) default,
      .call (method (var "C") "Find") [number "2"] false default] default) default

/-- All kinds of parentheses, and a range that is open before a comma. -/
theorem expression_inverts_nested_writing :
    let text := nestedExpr.lexemes true fun _ => true
    nestedExpr.isWritable false = true ∧ text.length = 22 ∧
      ∃ e' d h, expression ⟨"", (Lexeme.word "then").token⟩ (ofLexemes (text ++ [.word "then"])) = .ok e' d h ∧
        e'.unplaced = nestedExpr.unplaced ∧ d.rest = [(Lexeme.word "then").token] := by
  intro text
  have hw : nestedExpr.isWritable false = true := by decide
  have hplain : ∀ x ∈ text, x.spelledBy x.token = true := by decide
  obtain ⟨d, hspells, hrest⟩ := exists_spells_ofLexemes hplain [.word "then"]
  have hhead : d.head ⟨"", (Lexeme.word "then").token⟩ = (Lexeme.word "then").token := head_eq hrest
  have hstop : ¬ Continues 0 (d.head ⟨"", (Lexeme.word "then").token⟩) := by
    rw [hhead]
    exact not_continues_of_word (w := "then") (by decide) (by decide)
  obtain ⟨e', h, hread, hsame, -⟩ := expression_inverts_writing hw hspells hstop nofun
  exact ⟨hw, by decide, e', d, h, hread, hsame, hrest⟩

/-- A call of the call `A.Get`, which takes no parentheses, with the argument 1. -/
def calledCall : Expr :=
  .call (.call (.member (.name "A" false default) "Get" false default) [] true default)
    [.constant "1" .number default] false
    default

/-- **The levels alone do not ask for enough parentheses.** They ask for none in `A.Get(1)`, where the call
`A.Get` is called; but this is read as one call. -/
theorem called_call_misread :
    let text := calledCall.lexemes false fun _ => false
    calledCall.isWritable false = true ∧ ∃ e' d h, (ofLexemes (text ++ [.sign ";"])).Spells text d ∧
      ¬ Continues 0 (d.head ⟨"", (Lexeme.sign ";").token⟩) ∧
      expression ⟨"", (Lexeme.sign ";").token⟩ (ofLexemes (text ++ [.sign ";"])) = .ok e' d h ∧
      e'.unplaced ≠ calledCall.unplaced := by
  intro text
  -- the same text is also that of a call of `Get` with the argument
  let plainCall : Expr :=
    .call (.member (.name "A" false default) "Get" false default) [.constant "1" .number default] false default
  have htext : text = plainCall.lexemes true fun _ => false := rfl
  have hplain : ∀ x ∈ text, x.spelledBy x.token = true := by decide
  obtain ⟨d, hspells, hstop⟩ := exists_spells_before_semicolon hplain
  have hw : plainCall.isWritable false = true := by decide
  obtain ⟨-, e', h, hread, hsame⟩ := reads_expression hw _ d (htext ▸ hspells) hstop nofun
  refine ⟨by decide, e', d, h, hspells, hstop, hread, ?_⟩
  rw [hsame.eq]
  nofun

end AlLint.Reading
