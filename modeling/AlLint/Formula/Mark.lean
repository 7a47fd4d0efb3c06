import AlLint.Source.Span

/-!
# Which value is which

Two values can be equal and still be two. Formulas can tell them apart, so values carry marks: what is read
twice from one place has one mark, and what is made twice has two. Of some values there is only one, whoever
makes it: nothing, truth values, small numbers, and texts of one character.
-/

namespace AlLint.Formula

/-- What tells a value from other values with the same content. -/
inductive Mark where
  | only
  /-- A literal, by its place in the formula. -/
  | literal (place : Nat)
  | given (name : String)
  /-- A key of the mappings that a formula was given. Equal keys are one. -/
  | key (text : String)
  | made (step : Nat)
  /-- A part of the file with some number, by its kind and where it stands. -/
  | piece (file : Nat) (kind : String) (span : Span)
  | type (file : Nat) (start : Nat)
  | inside (whole : Mark) (place : Nat)
  | named (whole : Mark) (name : String)
deriving DecidableEq, Repr

namespace Mark

def file : Mark → Nat
  | piece file .. | type file _ => file
  | inside whole _ | named whole _ => whole.file
  | _ => 0

def single (file : Nat) (kind : String) : Mark := piece file kind default

end Mark

end AlLint.Formula
