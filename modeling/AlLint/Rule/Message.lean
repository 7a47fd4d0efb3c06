import AlLint.Document.Basic

/-!
# Messages with places for values

A template is cut into plain characters and places, a place being a percent sign with the digits after it. All
places are filled at once, so the text of a value is not looked at again. A place whose number has no value
stays as it is.
-/

namespace AlLint.Message

/-- A part of a template: a character, or the digits of a place. -/
inductive Part where
  | plain (c : Char)
  | place (digits : List Char)
deriving DecidableEq, Repr

def cut : List Char → List Part
  | [] => []
  | c :: cs =>
    let digits := cs.takeWhile Text.isDecimal
    if c = '%' ∧ digits ≠ [] then .place digits :: cut (cs.dropWhile Text.isDecimal)
    else .plain c :: cut cs
termination_by cs => cs.length
decreasing_by
  · have := (List.dropWhile_suffix Text.isDecimal (l := cs)).length_le
    simp only [List.length_cons]; omega
  · simp

def Part.chars : Part → List Char
  | .plain c => [c]
  | .place digits => '%' :: digits

/-- Why a template cannot be filled: the number of a place has too many digits, or one in the value for a place. -/
inductive Unfilled where
  | place (o : Oversized)
  | value
deriving DecidableEq, Repr

def Unfilled.message : Unfilled → String
  | .place o => o.message
  | .value => longNumberMessage

/-- A part with its place filled. Places are numbered from one. -/
def Part.fill (args : List Document) : Part → Except Unfilled (List Char)
  | .plain c => .ok [c]
  | .place digits => do
    match ← (numeral digits).mapError .place with
    | 0 => .ok ('%' :: digits)
    | i + 1 =>
      match args[i]? with
      | none => .ok ('%' :: digits)
      | some arg => (arg.shownOr .value).map String.toList

def render (template : String) (args : List Document) : Except Unfilled String :=
  ((cut template.toList).mapM (Part.fill args)).map fun parts => String.ofList parts.flatten

end AlLint.Message
