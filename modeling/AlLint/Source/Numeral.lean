import AlLint.Text.Digit

/-!
# Whole numbers in source text

Identifiers of objects and fields, ordinals and placeholder numbers are whole numbers written in decimal digits of
any script. A numeral of more than 4300 digits, leading zeros included, is refused.
-/

namespace AlLint

structure Oversized where
  digits : Nat
deriving DecidableEq, Repr

def maxDigits : Nat := 4300

def digitAdvice : String := "use sys.set_int_max_str_digits() to increase the limit"

def Oversized.message (o : Oversized) : String :=
  s!"Exceeds the limit ({maxDigits} digits) for integer string conversion: value has {o.digits} digits; {digitAdvice}"

def longNumberMessage : String :=
  s!"Exceeds the limit ({maxDigits} digits) for integer string conversion; {digitAdvice}"

def numeral (cs : List Char) : Except Oversized Nat :=
  if cs.length ≤ maxDigits then .ok (Text.decimalNumber cs) else .error ⟨cs.length⟩

def wholeNumber? (s : String) : Except Oversized (Option Nat) :=
  let cs := s.toList
  if !cs.isEmpty && cs.all Text.isDigitForm then (numeral cs).map some else .ok none

end AlLint
