import AlLint.Text.Digit
import AlLint.Text.Letter

/-!
# Word characters

What an identifier is made of: letters, anything that stands for a number, and the underscore.
-/

namespace AlLint.Text

def isLetterOrNumeric (c : Char) : Bool := isLetter c || isNumeric c

def isWordChar (c : Char) : Bool := isLetterOrNumeric c || c == '_'

/-- A character that may start an identifier: a word character that is no decimal digit. -/
def isWordStart (c : Char) : Bool := isWordChar c && !isDecimal c

end AlLint.Text
