/-!
# Formulas

The formulas that rules are written in: literals, names, logic, comparisons, arithmetic, calls, items and
slices, displays of lists, tuples, sets and mappings, and comprehensions. Some forms are read but never
evaluated; of them only the name is kept.
-/

namespace AlLint.Formula

inductive Literal where
  | none
  | bool (b : Bool)
  | int (n : Nat)
  | float (f : Float)
  | imaginary (f : Float)
  | text (s : String)
  | bytes (bs : List UInt8)
  | ellipsis

inductive Unary where
  | not
  | minus
  | plus
  | invert
deriving DecidableEq, Repr

inductive Operator where
  | add
  | subtract
  | multiply
  | divide
  | floorDivide
  | modulo
  | power
  | matrixMultiply
  | shiftLeft
  | shiftRight
  | bitOr
  | bitXor
  | bitAnd
deriving DecidableEq, Repr

inductive Comparison where
  | equal
  | notEqual
  | less
  | lessEqual
  | greater
  | greaterEqual
  | isIn
  | notIn
  | same
  | notSame
deriving DecidableEq, Repr

/-- A clause of a comprehension: what takes the items, where they come from, and which of them count. -/
structure Clause (term : Type) where
  target : term
  source : term
  conditions : List term

inductive Term where
  /-- A literal. Its place tells it from other literals with the same value. -/
  | literal (value : Literal) (place : Nat)
  | name (id : String)
  /-- Parts joined by `and`, or else by `or`. -/
  | junction (isAnd : Bool) (parts : List Term)
  | unary (op : Unary) (operand : Term)
  | binary (op : Operator) (left right : Term)
  | relation (first : Term) (rest : List (Comparison × Term))
  | choice (test ifTrue ifFalse : Term)
  | access (value : Term) (name : String)
  | call (callee : Term) (args : List Term) (named : List (String × Term))
  | item (value index : Term)
  | slice (value : Term) (start stop step : Option Term)
  | list (items : List Term)
  | tuple (items : List Term)
  | set (items : List Term)
  | dict (entries : List (Term × Term))
  /-- A mapping display that takes in the entries of another mapping. -/
  | unpacking
  | generator (element : Term) (clauses : List (Clause Term))
  | listOf (element : Term) (clauses : List (Clause Term))
  | setOf (element : Term) (clauses : List (Clause Term))
  | dictOf (key value : Term) (clauses : List (Clause Term))
  | starred (items : Term)
  | unsupported (node : String)

namespace Term

mutual

/-- Whether the items of a comprehension may be given to a formula: a name, an attribute, an item, or several such. -/
def isTarget : Term → Bool
  | name _ | access .. | item .. | slice .. => true
  | tuple items | list items => areTargets items
  | starred items => isTarget items
  | _ => false

def areTargets : List Term → Bool
  | [] => true
  | f :: rest => isTarget f && areTargets rest

end

end Term

end AlLint.Formula
