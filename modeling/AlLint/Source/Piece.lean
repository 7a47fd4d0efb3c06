import AlLint.Text.Word

/-!
# Pieces of a source text

A text is cut from the front into pieces: tokens, comments, gaps and what belongs nowhere. The kind of
a piece and its length are decided by its first characters; the first rule that applies wins. Nothing is
left out, so the pieces put together again are the text.
-/

namespace AlLint

inductive PieceKind where
  /-- A line feed, with the carriage return before it. -/
  | newline
  | gap
  /-- `///` to the end of the line. -/
  | docComment
  /-- `//` to the end of the line. -/
  | lineComment
  /-- `/*` to the next `*/`. -/
  | blockComment
  /-- `/*` that is never closed, to the end of the text. -/
  | openComment
  /-- `#` to the end of the line. -/
  | directive
  | number
  | word
  | quotedName
  /-- A name whose closing quote is missing, to the end of the line. -/
  | openName
  /-- A string between single quotes; two single quotes stand for one. -/
  | string
  /-- A string whose closing quote is missing, to the end of the line. -/
  | openString
  | operator
  | stray
deriving DecidableEq, Repr

structure Piece where
  kind : PieceKind
  chars : List Char
deriving DecidableEq, Repr

namespace Piece

def run (p : Char → Bool) (cs : List Char) : Nat := (cs.takeWhile p).length

def isGap (c : Char) : Bool := c == ' ' || c == '\t' || c == '\x0c' || c == '\x0b' || c == '\r'

def lineLength (cs : List Char) : Nat := run (· != '\n') cs

/-- The number of characters through the first `*/`. -/
def commentLength : List Char → Option Nat
  | [] => none
  | '*' :: '/' :: _ => some 2
  | _ :: rest => (commentLength rest).map (· + 1)

/-- The number of characters through the quote that closes a string. A pair of quotes is part of the string
unless nothing closes the string after it; then the first of the two does. -/
def stringLength : List Char → Option Nat
  | [] => none
  | '\'' :: '\'' :: rest =>
    match stringLength rest with
    | some n => some (n + 2)
    | none => some 1
  | c :: rest =>
    if c = '\'' then some 1 else if c = '\n' then none else (stringLength rest).map (· + 1)

/-- Whether a word is a mark that may follow a number: nothing, a date, time, date-time or big-integer mark. -/
def isNumberMark : List Char → Bool
  | [] => true
  | [c] => "dDtTlL".toList.contains c
  | [c, d] => (c == 'd' || c == 'D') && (d == 't' || d == 'T')
  | _ => false

def fractionLength : List Char → Nat
  | '.' :: d :: rest => if Text.isDecimal d then run Text.isDecimal rest + 2 else 0
  | _ => 0

/-- The length of a number after its first digit. What follows the number may not run on as a word; a
fraction is given up if it does. -/
def numberLength (cs : List Char) : Option Nat :=
  let whole := run Text.isDecimal cs
  let fraction := fractionLength (cs.drop whole)
  let mark := ((cs.drop whole).drop fraction).takeWhile Text.isWordChar
  if isNumberMark mark then some (whole + fraction + mark.length)
  else if fraction > 0 then some whole
  else none

def pairOperators : List (Char × Char) := [
  (':', '='), ('+', '='), ('-', '='), ('*', '='), ('/', '='), (':', ':'), ('.', '.'), ('<', '>'),
  ('<', '='), ('>', '=')]

def singleOperators : List Char := "-+*/=<>()[]\x7b\x7d,;:.@?&|".toList

def isPair (c : Char) : List Char → Bool
  | d :: _ => pairOperators.contains (c, d)
  | [] => false

/-- The kind of the piece that starts with `c` and goes on in `cs`, and how many characters of `cs` belong to it. -/
def extent (c : Char) (cs : List Char) : PieceKind × Nat :=
  match c, cs with
  | '\n', _ => (.newline, 0)
  | '\r', '\n' :: _ => (.newline, 1)
  | '/', '/' :: '/' :: rest => (.docComment, lineLength rest + 2)
  | '/', '/' :: rest => (.lineComment, lineLength rest + 1)
  | '/', '*' :: rest =>
    match commentLength rest with
    | some n => (.blockComment, n + 1)
    | none => (.openComment, cs.length)
  | '#', _ => (.directive, lineLength cs)
  | '"', _ =>
    let n := run (fun d => d != '"' && d != '\n') cs
    if (cs.drop n).head? = some '"' then (.quotedName, n + 1) else (.openName, n)
  | '\'', _ =>
    match stringLength cs with
    | some n => (.string, n)
    | none => (.openString, lineLength cs)
  | _, _ =>
    if isGap c then (.gap, run isGap cs)
    else if Text.isDecimal c then
      match numberLength cs with
      | some n => (.number, n)
      | none => (.stray, 0)
    else if Text.isWordStart c then (.word, run Text.isWordChar cs)
    else if isPair c cs then (.operator, 1)
    else if singleOperators.contains c then (.operator, 0)
    else (.stray, 0)

def cut : List Char → List Piece
  | [] => []
  | c :: cs => ⟨(extent c cs).1, c :: cs.take (extent c cs).2⟩ :: cut (cs.drop (extent c cs).2)
termination_by cs => cs.length
decreasing_by simp only [List.length_cons, List.length_drop]; omega

theorem flatMap_cut (cs : List Char) : (cut cs).flatMap chars = cs := by
  fun_induction cut cs with
  | case1 => rfl
  | case2 c cs ih => simp [ih]

end Piece

end AlLint
