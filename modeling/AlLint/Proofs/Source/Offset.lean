import Mathlib.Data.Prod.Lex
import AlLint.Source.Span

/-!
# Lines and columns of offsets

The scanner finds lines and columns by walking over the text from its start. Here they are told by the offset
alone: the line is one more than the number of line feeds before the offset, and the column is counted from the
last of these. Nothing else ends a line, neither a carriage return nor a form feed.

The two agree (`after_ofOffset`), so it does not matter which pieces the text was cut into on the way, and an
offset that comes later in the text has a later line, or a later column in the same line (`strictMonoOn_place`).
-/

namespace AlLint.Position

open List

variable {cs : List Char} {o : Nat} {c : Char}

/-- The offset after the last line feed before the offset `o`, or the start of the text. -/
def lineStart (cs : List Char) : Nat → Nat
  | 0 => 0
  | o + 1 => if cs[o]? = some '\n' then o + 1 else lineStart cs o

def ofOffset (cs : List Char) (o : Nat) : Position :=
  ⟨o, 1 + (cs.take o).count '\n', o - lineStart cs o + 1⟩

/-- Line and column of a position. Places are ordered by line, and within a line by column. -/
def place (p : Position) : ℕ ×ₗ ℕ := toLex (p.line, p.column)

theorem lineStart_le (cs : List Char) (o : Nat) : lineStart cs o ≤ o := by
  induction o with
  | zero => exact Nat.le_refl 0
  | succ o ih =>
    rw [lineStart]
    split
    · exact Nat.le_refl _
    · omega

theorem count_take_succ (h : cs[o]? = some c) :
    (cs.take (o + 1)).count '\n' = (cs.take o).count '\n' + if c = '\n' then 1 else 0 := by
  rw [take_add_one, h, Option.toList_some, count_append, count_singleton]
  simp only [beq_iff_eq]

theorem ofOffset_succ (h : cs[o]? = some c) :
    ofOffset cs (o + 1) = (ofOffset cs o).step c := by
  have hcount := count_take_succ h
  have hle := lineStart_le cs o
  by_cases hc : c = '\n'
  · rw [if_pos hc] at hcount
    have hstart : lineStart cs (o + 1) = o + 1 := by rw [lineStart, if_pos (h.trans (congrArg some hc))]
    rw [step, if_pos hc, ofOffset, hcount, hstart, ofOffset, Nat.sub_self]
    rfl
  · rw [if_neg hc] at hcount
    have hstart : lineStart cs (o + 1) = lineStart cs o := by
      rw [lineStart, if_neg]
      intro hfeed
      exact hc (Option.some.inj (h.symm.trans hfeed))
    rw [step, if_neg hc, ofOffset, hcount, hstart, ofOffset]
    simp only [mk.injEq, true_and, Nat.add_zero]
    omega

/-- **Walking over a stretch of the text leads to the position that the text tells.** -/
theorem after_ofOffset (before chars rest : List Char) :
    (ofOffset (before ++ chars ++ rest) before.length).after chars =
      ofOffset (before ++ chars ++ rest) (before.length + chars.length) := by
  induction chars generalizing before with
  | nil => rfl
  | cons c chars ih =>
    have hchar : (before ++ c :: chars ++ rest)[before.length]? = some c := by simp
    have hsplit : before ++ c :: chars ++ rest = (before ++ [c]) ++ chars ++ rest := by simp
    have hnext := ih (before ++ [c])
    rw [← hsplit, length_append, length_singleton, ofOffset_succ hchar] at hnext
    rw [length_cons, Nat.add_comm chars.length, ← Nat.add_assoc, ← hnext]
    rfl

theorem place_lt_step (p : Position) (c : Char) : p.place < (p.step c).place := by
  rw [place, place, Prod.Lex.toLex_lt_toLex, step]
  split
  · exact .inl (Nat.lt_succ_self _)
  · exact .inr ⟨rfl, Nat.lt_succ_self _⟩

/-- **Places come in the order of their offsets.** -/
theorem strictMonoOn_place (cs : List Char) : StrictMonoOn (fun o => (ofOffset cs o).place) {o | o ≤ cs.length} := by
  intro a ha b hb hab
  rw [Set.mem_ofPred_eq] at hb
  -- from `a` on, each further character comes later
  induction b with
  | zero => omega
  | succ b ih =>
    have hstep : (ofOffset cs b).place < (ofOffset cs (b + 1)).place := by
      rw [ofOffset_succ (getElem?_eq_getElem (by omega))]
      exact place_lt_step _ _
    rcases Nat.lt_succ_iff_lt_or_eq.1 hab with h | rfl
    · exact (ih (by omega) h).trans hstep
    · exact hstep

end AlLint.Position

namespace AlLint.Span

/-- The span from one offset of a text to another. -/
def ofOffsets (cs : List Char) (start stop : Nat) : Span :=
  (Position.ofOffset cs start).spanTo (Position.ofOffset cs stop)

def first (s : Span) : ℕ ×ₗ ℕ := toLex (s.line, s.column)

/-- Where a span ends: the place after its last character. -/
def past (s : Span) : ℕ ×ₗ ℕ := toLex (s.endLine, s.endColumn)

end AlLint.Span
