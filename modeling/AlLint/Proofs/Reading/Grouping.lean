import AlLint.Proofs.Reading.ExprInverse

/-!
# How `xor` groups

`xor` is read on the level of sums, with `+`, `-` and `or`: of two operators of that level the left one groups
first, and an operator of products groups before either. So `xor` is looser than `and`, where the manual of the
language has the two on one level.
-/

namespace AlLint

/-- The lexemes of an expression where only signs and negation bind as tightly: in parentheses if it is looser. -/
def Expr.operandLexemes (leavesOut : Expr → Bool) (e : Expr) : List Lexeme :=
  grouped (e.tightness < 4) (e.lexemes true leavesOut)

namespace Reading

open Cursor

variable {inp : Input} {leavesOut : Expr → Bool} {xs ys zs : List Lexeme} {a b e : Expr} {o x m : BinaryOp}
  {inner outer : Span}

theorem reads_operandLexemes (h : e.isWritable false = true) : ReadsUnary inp (e.operandLexemes leavesOut) e :=
  (reads_own false e h (by simp)).at_level 4

theorem ReadsUnary.sum (h : ReadsUnary inp xs e) : ReadsOperand inp .sum xs e := h.operand.operands.sum

theorem reads_sum_of_sum (ho : o.tightness = 2) (hx : x.tightness = 2) (ha : ReadsUnary inp xs a)
    (hb : ReadsUnary inp ys b) (he : ReadsUnary inp zs e) :
    ReadsOperands inp .sum (xs ++ o.lexeme :: ys ++ x.lexeme :: zs) (.binary x (.binary o a b inner) e outer) :=
  reads_binary hx (reads_binary ho ha.sum.operands hb.sum) he.sum

theorem reads_sum_of_product (hx : x.tightness = 2) (hm : m.tightness = 3) (ha : ReadsUnary inp xs a)
    (hb : ReadsUnary inp ys b) (he : ReadsUnary inp zs e) :
    ReadsOperands inp .sum (xs ++ x.lexeme :: (ys ++ m.lexeme :: zs)) (.binary x a (.binary m b e inner) outer) :=
  reads_binary hx ha.sum.operands (reads_binary hm hb.operand.operands he.operand).sum

/-- **`xor` is an operator of sums.** If `+`, `-` or `or` stands before the operand to the left of `xor`, the
operand belongs to that operator, and what it makes is the left operand of `xor`. An operator of products behind
`xor` takes the operands around it first, and what it makes is the right operand of `xor`. -/
theorem xor_groups_as_sum (leavesOut : Expr → Bool) {c d : Cursor} (ha : a.isWritable false = true)
    (hb : b.isWritable false = true) (he : e.isWritable false = true) (hend : ¬ Continues 0 (d.head inp)) :
    (∀ o ∈ [BinaryOp.plus, .minus, .or],
      c.Spells (a.operandLexemes leavesOut ++ o.lexeme :: b.operandLexemes leavesOut ++
        BinaryOp.xor.lexeme :: e.operandLexemes leavesOut) d →
      ∃ tree h, expression inp c = .ok tree d h ∧
        tree.unplaced = (Expr.binary .xor (.binary o a b default) e default).unplaced) ∧
    ∀ m ∈ [BinaryOp.times, .divide, .wholeDivide, .modulo, .and], c.Spells (a.operandLexemes leavesOut ++
        BinaryOp.xor.lexeme :: (b.operandLexemes leavesOut ++ m.lexeme :: e.operandLexemes leavesOut)) d →
      ∃ tree h, expression inp c = .ok tree d h ∧
        tree.unplaced = (Expr.binary .xor a (.binary m b e default) default).unplaced := by
  have hsums : ∀ o ∈ [BinaryOp.plus, .minus, .or], o.tightness = 2 := by decide
  have hproducts : ∀ m ∈ [BinaryOp.times, .divide, .wholeDivide, .modulo, .and], m.tightness = 3 := by decide
  -- what is read as a sum that no operator follows is the whole expression
  have hread : ∀ {xs left right}, ReadsOperands inp .sum xs (.binary .xor left right default) → c.Spells xs d →
      (expression inp c).Gives (Same (.binary .xor left right default)) d := by
    intro xs left right hsum hspells
    have hexpr : ReadsExpression inp leavesOut xs _ := hsum.relation.operands.expression
    exact (hexpr c d hspells hend (by simp [Expr.isOpenRange])).2
  exact ⟨fun o ho => hread (reads_sum_of_sum (hsums o ho) rfl (reads_operandLexemes ha) (reads_operandLexemes hb)
      (reads_operandLexemes he)),
    fun m hm => hread (reads_sum_of_product rfl (hproducts m hm) (reads_operandLexemes ha) (reads_operandLexemes hb)
      (reads_operandLexemes he))⟩

/-- `A`, `-B` and `(C or D)` with two operators between them. -/
def threeOperands (first second : BinaryOp) : List Lexeme :=
  [.name "A" false, first.lexeme, .sign "-", .name "B" false, second.lexeme, .sign "(", .name "C" false, .word "or",
    .name "D" false, .sign ")"]

theorem threeOperands_spelled (first second : BinaryOp) :
    ∀ x ∈ threeOperands first second, x.spelledBy x.token = true := by
  cases first <;> cases second <;> decide

theorem xor_groups_as_sum_operands :
    let inp : Input := ⟨"", (Lexeme.sign ";").token⟩
    let a : Expr := .name "A" false default
    let b : Expr := .unary .minus (.name "B" false default) default
    let e : Expr := .binary .or (.name "C" false default) (.name "D" false default) default
    (∃ d tree h, expression inp (ofLexemes (threeOperands .plus .xor ++ [.sign ";"])) = .ok tree d h ∧
      tree.unplaced = .binary .xor (.binary .plus a b default) e default) ∧
    ∃ d tree h, expression inp (ofLexemes (threeOperands .xor .and ++ [.sign ";"])) = .ok tree d h ∧
      tree.unplaced = .binary .xor a (.binary .and b e default) default := by
  intro inp a b e
  have hw : a.isWritable false = true ∧ b.isWritable false = true ∧ e.isWritable false = true := by decide
  obtain ⟨d, hspells, hend⟩ := exists_spells_before_semicolon (threeOperands_spelled .plus .xor)
  obtain ⟨d', hspells', hend'⟩ := exists_spells_before_semicolon (threeOperands_spelled .xor .and)
  exact ⟨⟨d, (xor_groups_as_sum (fun _ => false) hw.1 hw.2.1 hw.2.2 hend).1 .plus (by decide) hspells⟩,
    ⟨d', (xor_groups_as_sum (fun _ => false) hw.1 hw.2.1 hw.2.2 hend').2 .and (by decide) hspells'⟩⟩

/-- **`xor` is not an operator of products.** In `A + -B xor (C or D)` it does not take `-B` from the sum. -/
theorem xor_not_read_as_product :
    let a : Expr := .name "A" false default
    let b : Expr := .unary .minus (.name "B" false default) default
    let e : Expr := .binary .or (.name "C" false default) (.name "D" false default) default
    ∃ d tree h, expression ⟨"", (Lexeme.sign ";").token⟩ (ofLexemes (threeOperands .plus .xor ++ [.sign ";"])) =
      .ok tree d h ∧
      tree.unplaced ≠ .binary .plus a (.binary .xor b e default) default := by
  intro a b e
  obtain ⟨d, hspells, hend⟩ := exists_spells_before_semicolon (threeOperands_spelled .plus .xor)
  have hwritable : (Expr.binary .xor (.binary .plus a b default) e default).isWritable false = true := by decide
  have hexpr : ReadsExpression ⟨"", (Lexeme.sign ";").token⟩ (fun _ => false) _ _ := reads_expression hwritable
  obtain ⟨-, tree, h, hread, hsame⟩ := hexpr _ d hspells hend (by simp [Expr.isOpenRange])
  refine ⟨d, tree, h, hread, ?_⟩
  rw [hsame.eq]
  simp [Expr.unplaced]

end Reading

end AlLint
