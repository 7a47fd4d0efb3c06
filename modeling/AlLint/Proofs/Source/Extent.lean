import Mathlib.Tactic.SplitIfs
import AlLint.Source.Piece

/-!
# How far a piece goes

The rules that measure a piece, in the form that proofs use: what each of them says of a text that starts with a
character `c`, by conditions on `c` and on what follows in place of patterns.
-/

namespace AlLint.Piece

open Text List

theorem commentLength_cons (c : Char) (rest : List Char) : commentLength (c :: rest) =
    if c = '*' ∧ rest.head? = some '/' then some 2 else (commentLength rest).map (· + 1) := by
  rw [commentLength.eq_def]
  split
  · contradiction
  · next heq =>
    obtain ⟨rfl, rfl⟩ := List.cons.inj heq
    rfl
  · next hnot heq =>
    obtain ⟨rfl, rfl⟩ := List.cons.inj heq
    rw [if_neg]
    rintro ⟨rfl, hhead⟩
    obtain ⟨more, rfl⟩ := head?_eq_some_iff.1 hhead
    exact hnot _ rfl rfl

theorem stringLength_cons (c : Char) (rest : List Char) : stringLength (c :: rest) =
    if c = '\'' then
      if rest.head? = some '\'' then some (((stringLength rest.tail).map (· + 2)).getD 1) else some 1
    else if c = '\n' then none
    else (stringLength rest).map (· + 1) := by
  rw [stringLength.eq_def]
  split
  · contradiction
  · next heq =>
    obtain ⟨rfl, rfl⟩ := List.cons.inj heq
    rw [if_pos rfl, head?_cons, if_pos rfl, tail_cons]
    split
    · next hrest => rw [hrest]; rfl
    · next hrest => rw [hrest]; rfl
  · next hnot heq =>
    obtain ⟨rfl, rfl⟩ := List.cons.inj heq
    by_cases hc : c = '\''
    · have hhead : rest.head? ≠ some '\'' := by
        intro hhead
        obtain ⟨more, rfl⟩ := head?_eq_some_iff.1 hhead
        exact hnot _ hc rfl
      rw [if_pos hc, if_pos hc, if_neg hhead]
    · rw [if_neg hc, if_neg hc]

theorem fractionLength_cons (c : Char) (rest : List Char) : fractionLength (c :: rest) =
    if c = '.' ∧ (rest.head?.map isDecimal).getD false = true then run isDecimal rest.tail + 2 else 0 := by
  rw [fractionLength.eq_def]
  split
  · next heq =>
    obtain ⟨rfl, rfl⟩ := List.cons.inj heq
    simp
  · next hnot =>
    rw [if_neg]
    rintro ⟨rfl, hdigit⟩
    cases rest with
    | nil => cases hdigit
    | cons d rest => exact hnot d rest rfl

/-- What a piece is that starts with none of the marks of lines, comments and quotes. -/
def plainExtent (c : Char) (cs : List Char) : PieceKind × Nat :=
    if isGap c then (.gap, run isGap cs)
    else if Text.isDecimal c then
      match numberLength cs with
      | some n => (.number, n)
      | none => (.stray, 0)
    else if Text.isWordStart c then (.word, run Text.isWordChar cs)
    else if isPair c cs then (.operator, 1)
    else if singleOperators.contains c then (.operator, 0)
    else (.stray, 0)

theorem extent_eq (c : Char) (cs : List Char) : extent c cs =
    if c = '\n' then (.newline, 0)
    else if c = '\r' ∧ cs.head? = some '\n' then (.newline, 1)
    else if c = '/' ∧ cs.head? = some '/' then
      if cs.tail.head? = some '/' then (.docComment, lineLength cs.tail.tail + 2) else
        (.lineComment, lineLength cs.tail + 1)
    else if c = '/' ∧ cs.head? = some '*' then
      match commentLength cs.tail with
      | some n => (.blockComment, n + 1)
      | none => (.openComment, cs.length)
    else if c = '#' then (.directive, lineLength cs)
    else if c = '"' then
      let n := run (fun d => d != '"' && d != '\n') cs
      if (cs.drop n).head? = some '"' then (.quotedName, n + 1) else (.openName, n)
    else if c = '\'' then
      match stringLength cs with
      | some n => (.string, n)
      | none => (.openString, lineLength cs)
    else plainExtent c cs := by
  unfold extent
  split
  · rfl
  · rfl
  · rfl
  · next rest hdoc =>
    have : rest.head? ≠ some '/' := by
      intro h
      obtain ⟨rest', rfl⟩ := head?_eq_some_iff.1 h
      exact hdoc _ rfl
    simp [this]
  · rfl
  · simp
  · simp
  · rfl
  · next hline hdirective hname hstring hreturn _ hslash hstar =>
    have hreturn : ¬(c = '\r' ∧ cs.head? = some '\n') := by
      rintro ⟨hc, hhead⟩
      obtain ⟨rest, hcs⟩ := head?_eq_some_iff.1 hhead
      exact hreturn rest hc hcs
    have hslash : ¬(c = '/' ∧ cs.head? = some '/') := by
      rintro ⟨hc, hhead⟩
      obtain ⟨rest, hcs⟩ := head?_eq_some_iff.1 hhead
      exact hslash rest hc hcs
    have hstar : ¬(c = '/' ∧ cs.head? = some '*') := by
      rintro ⟨hc, hhead⟩
      obtain ⟨rest, hcs⟩ := head?_eq_some_iff.1 hhead
      exact hstar rest hc hcs
    rw [if_neg hline, if_neg hreturn, if_neg hslash, if_neg hstar, if_neg hdirective, if_neg hname, if_neg hstring]
    rfl

theorem extent_operator {c : Char} {cs : List Char} {n : Nat} (h : extent c cs = (.operator, n)) :
    isPair c cs = true ∧ n = 1 ∨ c ∈ singleOperators ∧ n = 0 := by
  unfold extent at h
  split at h
  case h_9 =>
    split_ifs at h with hgap hdigit hword hpair hsingle
    · cases h
    · split at h <;> cases h
    · cases h
    · cases h
      exact .inl ⟨hpair, rfl⟩
    · cases h
      exact .inr ⟨contains_iff_mem.1 hsingle, rfl⟩
    · cases h
  all_goals first | cases h | (dsimp only at h; split at h <;> cases h) | (split at h <;> cases h)

end AlLint.Piece
