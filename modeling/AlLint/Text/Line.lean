/-!
# Lines

A line ends at a line feed, a carriage return, the two together, a vertical tab, a form feed, one of
the three information separators, the next-line control, or a line or paragraph separator. A text that
ends with a line end has no empty line after it.
-/

namespace AlLint.Text

def isLineEnd (c : Char) : Bool :=
  c == '\n' || c == '\r' || c == '\x0b' || c == '\x0c' || c == '\x1c' || c == '\x1d' || c == '\x1e' ||
    c == '\u0085' || c == '\u2028' || c == '\u2029'

/-- Splits after each line end. Each line comes with its own end; `line` is what has been read of the
current one, in reverse. -/
def splitLines (line : List Char) : List Char → List (List Char × List Char)
  | [] => if line.isEmpty then [] else [(line.reverse, [])]
  | '\r' :: '\n' :: rest => (line.reverse, ['\r', '\n']) :: splitLines [] rest
  | c :: rest =>
    if isLineEnd c then (line.reverse, [c]) :: splitLines [] rest else splitLines (c :: line) rest

def lines (s : String) : List String := (splitLines [] s.toList).map fun l => String.ofList l.1

/-- Writes carriage returns, alone or before a line feed, as line feeds. -/
def unifyLines : List Char → List Char
  | '\r' :: '\n' :: rest => '\n' :: unifyLines rest
  | '\r' :: rest => '\n' :: unifyLines rest
  | c :: rest => c :: unifyLines rest
  | [] => []

end AlLint.Text
