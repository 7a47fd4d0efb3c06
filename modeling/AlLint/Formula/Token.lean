import AlLint.Decimal.Nearest
import AlLint.Formula.Syntax
import AlLint.Text.Blank
import AlLint.Text.Line
import AlLint.Text.Name
import AlLint.Text.Normal

/-!
# Tokens of formulas

A formula is cut into keywords, names, numbers, quoted texts and marks. Between brackets line ends are blanks;
elsewhere they end the formula. A text that cannot be cut has no tokens.
-/

namespace AlLint.Formula

/-- How a quoted text is to be read: backslashes as they are, as bytes, with formulas inside. -/
structure Quotation where
  raw : Bool := false
  bytes : Bool := false
  formatted : Bool := false
deriving DecidableEq, Repr

inductive Token where
  | keyword (text : String)
  | name (text : String)
  | number (value : Literal)
  | quoted (how : Quotation) (body : List Char)
  | mark (text : String)
  | lineEnd

def marks : List String := [
  "...", "**=", "//=", ">>=", "<<=", "**", "//", "<<", ">>", "<=", ">=", "==", "!=", "->", ":=", "+=", "-=",
  "*=", "/=", "%=", "@=", "&=", "|=", "^=", "<>", "+", "-", "*", "/", "%", "@", "&", "|", "^", "~", "<", ">",
  "(", ")", "[", "]", "\x7b", "\x7d", ",", ":", ".", ";", "="]

def keywords : List String := [
  "False", "None", "True", "and", "as", "assert", "async", "await", "break", "class", "continue", "def", "del",
  "elif", "else", "except", "finally", "for", "from", "global", "if", "import", "in", "is", "lambda",
  "nonlocal", "not", "or", "pass", "raise", "return", "try", "while", "with", "yield"]

def startsWord (c : Char) : Bool := c == '_' || c.isAlpha || c.toNat ≥ 128

def continuesWord (c : Char) : Bool := startsWord c || c.isDigit

/-! ## Numbers -/

def digit? (c : Char) : Option Nat :=
  if '0' ≤ c ∧ c ≤ '9' then some (c.toNat - '0'.toNat)
  else if 'a' ≤ c ∧ c ≤ 'f' then some (c.toNat - 'a'.toNat + 10)
  else if 'A' ≤ c ∧ c ≤ 'F' then some (c.toNat - 'A'.toNat + 10)
  else none

def isDigitOf (base : Nat) (c : Char) : Bool := (digit? c).any (· < base)

def valueOf (base : Nat) (cs : List Char) : Nat := cs.foldl (fun n c => n * base + (digit? c).getD 0) 0

/-- Splits digits of a base from the start, with single underscores between them. Gives the digits and what
follows; none if an underscore is not between digits. -/
def digits? (base : Nat) : List Char → Option (List Char × List Char)
  | '_' :: d :: rest => if isDigitOf base d then (digits? base rest).map fun (ds, after) => (d :: ds, after) else none
  | '_' :: [] => none
  | c :: rest =>
    if isDigitOf base c then (digits? base rest).map fun (ds, after) => (c :: ds, after) else some ([], c :: rest)
  | [] => some ([], [])

def wordsAfterNumber : List String := ["and", "else", "for", "if", "in", "is", "or", "not"]

def endsNumber : List Char → Bool
  | [] => true
  | c :: rest => !continuesWord c || wordsAfterNumber.any fun w => w.toList.isPrefixOf (c :: rest)

/-- The exponent at the start of some characters, and what follows; none if it is malformed. An `e` that no
digit follows is no exponent. -/
def exponent? (cs : List Char) : Option (Option Int × List Char) :=
  match cs with
  | e :: rest =>
    if e == 'e' || e == 'E' then
      match rest with
      | s :: d :: more =>
        if s == '+' || s == '-' then
          if isDigitOf 10 d then
            (digits? 10 (d :: more)).map fun (ds, after) =>
              let size : Int := valueOf 10 ds
              (some (if s == '-' then -size else size), after)
          else none
        else if isDigitOf 10 s then
          (digits? 10 rest).map fun (ds, after) => (some (valueOf 10 ds : Int), after)
        else some (none, cs)
      | [s] =>
        if isDigitOf 10 s then some (some (valueOf 10 [s] : Int), [])
        else if s == '+' || s == '-' then none
        else some (none, cs)
      | [] => some (none, cs)
    else some (none, cs)
  | [] => some (none, [])

/-- The fraction at the start of some characters: its digits, or none without a point, and what follows. -/
def fraction? : List Char → Option (Option (List Char) × List Char)
  | '.' :: d :: rest =>
    if isDigitOf 10 d then (digits? 10 (d :: rest)).map fun (ds, after) => (some ds, after)
    else some (some [], d :: rest)
  | ['.'] => some (some [], [])
  | cs => some (none, cs)

def maxLiteralDigits : Nat := 4300

/-- The decimal number at the start of some characters, and what follows. A whole number that is not zero does
not start with a zero. -/
def decimal? (cs : List Char) : Option (Literal × List Char) := do
  let (whole, rest) ← if (cs.head?.map (isDigitOf 10)).getD false then digits? 10 cs else some ([], cs)
  let (fraction, rest) ← fraction? rest
  let (exponent, rest) ← exponent? rest
  let imaginary := rest.head? == some 'j' || rest.head? == some 'J'
  let rest := if imaginary then rest.tail else rest
  let after := fraction.getD []
  let value := Decimal.ofScale (valueOf 10 (whole ++ after)) (exponent.getD 0 - after.length)
  if !endsNumber rest then none
  else if imaginary then some (.imaginary value, rest)
  else if fraction.isSome || exponent.isSome then some (.float value, rest)
  else if whole.length > maxLiteralDigits then none
  else if whole.length > 1 && whole.head? == some '0' && whole.any (· ≠ '0') then none
  else some (.int (valueOf 10 whole), rest)

/-- The whole number of some base at the start of some characters, after the letter for the base. -/
def based? (base : Nat) (cs : List Char) : Option (Literal × List Char) := do
  let (ds, rest) ← digits? base cs
  if ds.isEmpty || !endsNumber rest || (rest.head?.map (isDigitOf 10)).getD false then none
  else some (.int (valueOf base ds), rest)

def number? : List Char → Option (Literal × List Char)
  | '0' :: c :: rest =>
    if c == 'x' || c == 'X' then based? 16 rest
    else if c == 'o' || c == 'O' then based? 8 rest
    else if c == 'b' || c == 'B' then based? 2 rest
    else decimal? ('0' :: c :: rest)
  | cs => decimal? cs

/-! ## Quoted texts -/

/-- The body of a text between single quotation marks, and what follows. A line end is only allowed after a
backslash. -/
def shortBody? (quote : Char) : List Char → Option (List Char × List Char)
  | [] => none
  | '\\' :: c :: rest => (shortBody? quote rest).map fun (body, after) => ('\\' :: c :: body, after)
  | c :: rest =>
    if c == quote then some ([], rest)
    else if c == '\n' then none
    else (shortBody? quote rest).map fun (body, after) => (c :: body, after)

def longBody? (quote : Char) : List Char → Option (List Char × List Char)
  | [] => none
  | '\\' :: c :: rest => (longBody? quote rest).map fun (body, after) => ('\\' :: c :: body, after)
  | c :: rest =>
    if c == quote && rest.take 2 == [quote, quote] then some ([], rest.drop 2)
    else (longBody? quote rest).map fun (body, after) => (c :: body, after)

def body? (quote : Char) (cs : List Char) : Option (List Char × List Char) :=
  if cs.take 2 == [quote, quote] then longBody? quote (cs.drop 2) else shortBody? quote cs

/-- How a text with some letters before its quotation mark is to be read, if they are allowed there. -/
def Quotation.ofLetters? (letters : List Char) : Option Quotation :=
  match letters.map Char.toLower with
  | [] | ['u'] => some {}
  | ['r'] => some { raw := true }
  | ['b'] => some { bytes := true }
  | ['f'] => some { formatted := true }
  | ['b', 'r'] | ['r', 'b'] => some { raw := true, bytes := true }
  | ['f', 'r'] | ['r', 'f'] => some { raw := true, formatted := true }
  | _ => none

/-! ## All tokens -/

/-- The keyword or name that a word is. Names are kept in their normal form; keywords have no other form. -/
def Token.ofWord? (cs : List Char) : Option Token :=
  let word := String.ofList cs
  if keywords.contains word then some (.keyword word)
  else if Text.isName cs then some (.name (String.ofList (Text.normalForm cs)))
  else none

def wordOrText? (cs : List Char) : Option (Token × List Char) :=
  let letters := cs.takeWhile continuesWord
  let rest := cs.dropWhile continuesWord
  let plain := (Token.ofWord? letters).map (·, rest)
  match rest with
  | q :: after =>
    if q == '\'' || q == '"' then
      match Quotation.ofLetters? letters with
      | some how => (body? q after).map fun (body, rest) => (.quoted how body, rest)
      | none => plain
    else plain
  | [] => plain

def token? (cs : List Char) : Option (Token × List Char) :=
  match cs with
  | [] => none
  | c :: rest =>
    if c == '\'' || c == '"' || startsWord c then wordOrText? cs
    else if isDigitOf 10 c || (c == '.' && (rest.head?.map (isDigitOf 10)).getD false) then
      (number? cs).map fun (value, rest) => (.number value, rest)
    else (marks.find? fun m => m.toList.isPrefixOf cs).map fun m => (.mark m, cs.drop m.length)

def maxDepth : Nat := 200

def depthAfter (depth : Nat) : Token → Nat
  | .mark "(" | .mark "[" | .mark "\x7b" => depth + 1
  | .mark ")" | .mark "]" | .mark "\x7d" => depth - 1
  | _ => depth

def isIndented (cs : List Char) : Bool :=
  let blank := fun c : Char => c == ' ' || c == '\t' || c == '\x0c'
  match cs.head?, (cs.dropWhile blank).head? with
  | some first, some c => blank first && c ≠ '\n' && c ≠ '#'
  | _, _ => false

/-- Cuts characters into tokens, with `depth` brackets open. Each step takes at least one character, so as many steps
as there are characters are enough. -/
def cut : Nat → Nat → List Char → Option (List Token)
  | _, _, [] => some []
  | 0, _, _ => none
  | steps + 1, depth, c :: rest =>
    if c == ' ' || c == '\t' || c == '\x0c' then cut steps depth rest
    else if c == '#' then cut steps depth (rest.dropWhile (· ≠ '\n'))
    else if c == '\n' then
      if depth > 0 then cut steps depth rest
      else if isIndented rest then none
      else (cut steps depth rest).map (.lineEnd :: ·)
    else if c == '\\' then
      match rest with
      | '\n' :: more => cut steps depth more
      | _ => none
    else
      match token? (c :: rest) with
      | none => none
      | some (t, after) =>
        if depthAfter depth t > maxDepth then none
        else (cut steps (depthAfter depth t) after).map (t :: ·)

def Token.isLineEnd : Token → Bool
  | .lineEnd => true
  | _ => false

def startsIndented : List Char → Bool
  | '\\' :: '\n' :: rest => isIndented rest
  | _ => false

def tokens? (cs : List Char) : Option (List Token) :=
  let cs := Text.unifyLines cs
  if startsIndented cs then none else (cut cs.length 0 cs).map (Text.dropAround Token.isLineEnd)

end AlLint.Formula
