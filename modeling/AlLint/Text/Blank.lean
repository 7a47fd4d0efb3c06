import AlLint.Text.Ranges

/-!
# Blank characters

Spaces, tabs, line and page ends of any kind, and what is left of a text without the ones at its ends.
-/

namespace AlLint.Text

def blankRanges : Ranges := [
  (9, 13), (28, 32), (133, 133), (160, 160), (5760, 5760), (8192, 8202), (8232, 8233),
  (8239, 8239), (8287, 8287), (12288, 12288)]

def isBlank (c : Char) : Bool := blankRanges.mem c.toNat

def dropTrailing {α : Type} (p : α → Bool) (xs : List α) : List α := (xs.reverse.dropWhile p).reverse

def dropAround {α : Type} (p : α → Bool) (xs : List α) : List α := dropTrailing p (xs.dropWhile p)

def strip (s : String) : String := String.ofList (dropAround isBlank s.toList)

end AlLint.Text
