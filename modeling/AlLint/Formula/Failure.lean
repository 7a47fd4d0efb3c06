import AlLint.Text.Quoted

/-!
# What can go wrong with a formula

A formula can be no formula at all, it can use something that formulas may not use, or its evaluation can fail on the
values that it meets.
-/

namespace AlLint

/-- An error of what the program runs on: its kind and its text. -/
structure Breakdown where
  kind : String
  message : String
deriving DecidableEq, Repr

namespace Formula

inductive Refusal where
  | node (name : String)
  | unaryOperator
  | binaryOperator
  | privateAttribute
  | blockedAttribute (name : String)
  | method (name : String)
  | unknownName (name : String)
  | unsafeCall
  | dictUnpacking
  | targetLength
  | target
deriving DecidableEq, Repr

def Refusal.message : Refusal → String
  | .node name => s!"unsupported expression node: {name}"
  | .unaryOperator => "unsupported unary operator"
  | .binaryOperator => "unsupported binary operator"
  | .privateAttribute => "access to private attributes is not allowed"
  | .blockedAttribute name => s!"attribute '{name}' is not allowed"
  | .method name => s!"method '{name}' is not allowed"
  | .unknownName name => s!"unknown identifier '{name}'"
  | .unsafeCall => "call to unsafe function is not allowed"
  | .dictUnpacking => "dict unpacking is not supported"
  | .targetLength => "comprehension target length mismatch"
  | .target => "unsupported comprehension target"

inductive Mishap where
  | type
  | value
  | zeroDivision
  | index
  | key
  | noAttribute
  | overflow
  | memory
  | lookup
  | undecodable
  | depth
  /-- The evaluation came to something that formulas are not meant to reach, and what it meets there is not
  described. -/
  | beyond
deriving DecidableEq, Repr

def Mishap.name : Mishap → String
  | .type => "TypeError"
  | .value => "ValueError"
  | .zeroDivision => "ZeroDivisionError"
  | .index => "IndexError"
  | .key => "KeyError"
  | .noAttribute => "AttributeError"
  | .overflow => "OverflowError"
  | .memory => "MemoryError"
  | .lookup => "LookupError"
  | .undecodable => "UnicodeDecodeError"
  | .depth => "RecursionError"
  | .beyond => "Exception"

inductive Stop where
  | refused (r : Refusal)
  | failed (e : Mishap)
deriving DecidableEq, Repr

inductive Failure where
  | invalid (formula complaint : String)
  | nullCharacter
  | broken (b : Breakdown)
  | refused (r : Refusal)
  | failed (formula : String) (e : Mishap) (detail : String)
deriving DecidableEq, Repr

def Failure.message : Failure → String
  | .invalid formula complaint => s!"invalid expression {Text.quoted formula}: {complaint}"
  | .nullCharacter => "source code string cannot contain null bytes"
  | .broken b => b.message
  | .refused r => r.message
  | .failed formula e detail => s!"{Text.quoted formula} failed: {e.name}: {detail}"

end Formula

end AlLint
