import AlLint.Keyed
import AlLint.Text.Case

/-!
# Declared types

A type as it is written in a declaration: `Code[20]`, a record of some table, `array[3] of Text`, or a label with
its text.
-/

namespace AlLint

/-- A declared type. `text` is how the source writes it, `element` is the element type of an array, and `start`
is the place of its first character, if it is written at all. -/
structure TypeRef where
  name : String
  text : String := ""
  subtype : Option String := none
  length : Option String := none
  temporary : Bool := false
  element : Option TypeRef := none
  start : Option Nat := none

namespace TypeRef

def key (t : TypeRef) : String := Text.lower t.name

def isRecord (t : TypeRef) : Bool := t.key == "record"

def isOption (t : TypeRef) : Bool := t.key == "option"

def isLabel (t : TypeRef) : Bool := t.key == "label"

def isDialog (t : TypeRef) : Bool := t.key == "dialog"

end TypeRef

structure Label where
  text : String
  comment : Option String
  locked : Bool
  properties : Keyed String

end AlLint
