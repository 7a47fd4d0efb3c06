import AlLint.Text.Blank

/-!
# Finding and splitting

Where some characters stand inside others, and what stands between their places. Places do not overlap, and are
found from the left; what is to be found from the right is found from the left in reverse. The same holds of
bytes and anything else that can be compared.
-/

namespace AlLint.Text

variable {α : Type} [BEq α]

def splitFirst? (pattern : List α) : List α → Option (List α × List α)
  | [] => if pattern.isEmpty then some ([], []) else none
  | c :: cs =>
    if pattern.isPrefixOf (c :: cs) then some ([], (c :: cs).drop pattern.length)
    else (splitFirst? pattern cs).map fun (before, after) => (c :: before, after)

def findFirst? (pattern cs : List α) : Option Nat := (splitFirst? pattern cs).map fun parts => parts.1.length

def findLast? (pattern cs : List α) : Option Nat :=
  (findFirst? pattern.reverse cs.reverse).map fun place => cs.length - place - pattern.length

def splitAt (pattern : List α) : Nat → List α → List (List α)
  | 0, cs => [cs]
  | limit + 1, cs =>
    match splitFirst? pattern cs with
    | some (before, after) => before :: splitAt pattern limit after
    | none => [cs]

def splitAtRight (pattern : List α) (limit : Nat) (cs : List α) : List (List α) :=
  ((splitAt pattern.reverse limit cs.reverse).map List.reverse).reverse

/-- The words between blanks. After `limit` words the rest is kept as it is. -/
def splitBlanks {α : Type} (isBlank : α → Bool) : Nat → List α → List (List α)
  | limit, cs =>
    match cs.dropWhile isBlank, limit with
    | [], _ => []
    | rest, 0 => [rest]
    | rest, limit + 1 => rest.takeWhile (!isBlank ·) :: splitBlanks isBlank limit (rest.dropWhile (!isBlank ·))

def splitBlanksRight {α : Type} (isBlank : α → Bool) (limit : Nat) (cs : List α) : List (List α) :=
  ((splitBlanks isBlank limit cs.reverse).map List.reverse).reverse

def countOf (pattern cs : List α) : Nat := (splitAt pattern cs.length cs).length - 1

/-- Puts something between all characters, and before and after them, at most `limit` times. -/
def interleave {α : Type} (text : List α) : Nat → List α → List α
  | 0, cs => cs
  | _ + 1, [] => text
  | limit + 1, c :: cs => text ++ c :: interleave text limit cs

def replace (pattern text : List α) (limit : Nat) (cs : List α) : List α :=
  if pattern.isEmpty then interleave text limit cs else text.intercalate (splitAt pattern limit cs)

end AlLint.Text
