import AlLint.Decimal.Nearest
import AlLint.Text.Blank
import AlLint.Text.Case
import AlLint.Text.Digit
import AlLint.Text.Quoted
import AlLint.Text.Search

/-!
# Durations

A duration is a number of milliseconds, seconds, minutes or hours, seconds if it does not say. The number may have a
fraction, its digits may be of any script, and the unit may be written in any letter case.
-/

namespace AlLint

inductive DurationError where
  | invalid (text : String)
  | notPositive (text : String)
  /-- A unit that is one only without regard to case, and not a known one in lower case. -/
  | unknownUnit (unit : String)
deriving DecidableEq, Repr

def DurationError.message : DurationError → String
  | .invalid text => s!"invalid duration {Text.quoted text} (use e.g. 500ms, 30s, 2m, 1h)"
  | .notPositive text => s!"duration must be positive, got {Text.quoted text}"
  | .unknownUnit unit => Text.quoted unit

namespace Duration

def units : List (String × Float) := [("ms", 0.001), ("s", 1.0), ("m", 60.0), ("h", 3600.0)]

/-- Splits a number with or without a fraction from the start of some characters. Gives the digits before and
after the point, and what follows. -/
def number? (cs : List Char) : Option (List Char × List Char × List Char) :=
  let whole := cs.takeWhile Text.isDecimal
  let rest := cs.dropWhile Text.isDecimal
  if whole.isEmpty then none
  else
    match rest with
    | '.' :: after =>
      let fraction := after.takeWhile Text.isDecimal
      if fraction.isEmpty then some (whole, [], rest) else some (whole, fraction, after.dropWhile Text.isDecimal)
    | _ => some (whole, [], rest)

def unit? (cs : List Char) : Option String :=
  if cs.isEmpty then some "s"
  else if units.any fun u => u.1.toList == cs.map Text.asciiFold then some (String.ofList cs)
  else none

def value (whole fraction : List Char) : Float :=
  Decimal.ofScale (Text.decimalNumber (whole ++ fraction)) (-fraction.length)

def ofText (text : String) : Except DurationError Float :=
  match number? (text.toList.dropWhile Text.isBlank) with
  | none => .error (.invalid text)
  | some (whole, fraction, rest) =>
    match unit? (Text.dropAround Text.isBlank rest) with
    | none => .error (.invalid text)
    | some unit =>
      match units.find? fun u => u.1 == Text.lower unit with
      | none => .error (.unknownUnit (Text.lower unit))
      | some (_, length) =>
        let seconds := value whole fraction * length
        if seconds ≤ 0 then .error (.notPositive text) else .ok seconds

end Duration

end AlLint
