import AlLint.Formula.Value

/-!
# What the program is run by

Documents and formulas are read by what the program runs on. It words what is wrong with them, and it can break
down over them, for instance over one that is nested too deeply. None of this is decided by the program, so all
of it is given.
-/

namespace AlLint

/-- Why a text gives no documents: it is none of them, which is foreseen, or reading it broke down. -/
inductive Unread where
  | malformed (detail : String)
  | broken (b : Breakdown)

structure Host where
  documents : String → Except Unread (List Document)
  /-- Reads the only document of a text. -/
  document : String → Except Unread Document
  /-- How reading a formula breaks down, if it does. -/
  breakdown? : String → Option Breakdown
  /-- What is wrong with a text that is no formula. -/
  complaint : String → String
  /-- What went wrong in a formula, given what its names stand for. -/
  detail : String → Formula.Environment → Formula.Mishap → String

end AlLint
