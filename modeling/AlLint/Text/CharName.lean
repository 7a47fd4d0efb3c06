import AlLint.Text.Normal

/-!
# Characters by name

The names of Latin letters with and without marks, and of some punctuation. They may be written in small
letters. The names of other characters are not known here.
-/

namespace AlLint.Text

/-- What stands after the letter in the name of a letter with a mark, and the mark. -/
def markNames : List (String × Char) := [
  (" WITH GRAVE", '\u0300'), (" WITH ACUTE", '\u0301'), (" WITH CIRCUMFLEX", '\u0302'), (" WITH TILDE", '\u0303'),
  (" WITH MACRON", '\u0304'), (" WITH BREVE", '\u0306'), (" WITH DOT ABOVE", '\u0307'), (" WITH DIAERESIS", '\u0308'),
  (" WITH RING ABOVE", '\u030a'), (" WITH DOUBLE ACUTE", '\u030b'), (" WITH CARON", '\u030c'),
  (" WITH CEDILLA", '\u0327'), (" WITH OGONEK", '\u0328')]

def signNames : List (String × Char) := [
  ("NO-BREAK SPACE", '\u00a0'), ("POUND SIGN", '£'), ("SECTION SIGN", '§'), ("COPYRIGHT SIGN", '©'),
  ("DEGREE SIGN", '°'), ("PLUS-MINUS SIGN", '±'), ("MICRO SIGN", 'µ'), ("MIDDLE DOT", '·'),
  ("LATIN SMALL LETTER SHARP S", 'ß'), ("HYPHEN", '‐'), ("EN DASH", '–'), ("EM DASH", '—'), ("LEFT SINGLE QUOTATION MARK", '‘'),
  ("RIGHT SINGLE QUOTATION MARK", '’'), ("LEFT DOUBLE QUOTATION MARK", '“'), ("RIGHT DOUBLE QUOTATION MARK", '”'),
  ("BULLET", '•'), ("HORIZONTAL ELLIPSIS", '…'), ("EURO SIGN", '€'), ("RIGHTWARDS ARROW", '→')]

/-- The letter of a name that begins with `start`, as it is or with a mark. -/
def letterNamed? (start : String) (shape : Char → Char) (name : List Char) : Option Char :=
  match name.drop start.length with
  | c :: rest =>
    if name.take start.length ≠ start.toList ∨ !c.isUpper then none
    else if rest.isEmpty then some (shape c)
    else (markNames.lookup (String.ofList rest)).bind (together? (shape c))
  | [] => none

def charNamed? (name : List Char) : Option Char :=
  let name := name.map Char.toUpper
  signNames.lookup (String.ofList name)
    <|> letterNamed? "LATIN CAPITAL LETTER " id name
    <|> letterNamed? "LATIN SMALL LETTER " Char.toLower name

end AlLint.Text
