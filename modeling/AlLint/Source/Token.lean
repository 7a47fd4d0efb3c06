import AlLint.Source.Issue
import AlLint.Source.Piece
import AlLint.Text.Case

/-!
# Tokens

A token carries the comments that stand between it and the token before, so that documentation can be found
from the declaration that follows it. Names and keywords are compared without regard to case.
-/

namespace AlLint

inductive TokenKind where
  | ident
  | quoted
  | string
  | number
  | op
  | eof
deriving DecidableEq, Repr

/-- A token: its text in the source, the value that the text stands for, and where it is. -/
structure Token where
  kind : TokenKind
  text : String
  value : String
  span : Span
  start : Nat
  stop : Nat
  leading : List Comment
deriving Repr

namespace Token

/-- The word that an unquoted identifier is, in lower case; nothing for other tokens. -/
def lower (t : Token) : String := if t.kind = .ident then Text.lower t.value else ""

def isWordIn (t : Token) (words : List String) : Bool :=
  t.kind == .ident && words.contains (Text.lower t.value)

def isWord (t : Token) (word : String) : Bool := t.isWordIn [word]

def isOpIn (t : Token) (ops : List String) : Bool := t.kind == .op && ops.contains t.text

def isOp (t : Token) (op : String) : Bool := t.isOpIn [op]

def isName (t : Token) : Bool := t.kind == .ident || t.kind == .quoted

def isQuoted (t : Token) : Bool := t.kind == .quoted

def found (t : Token) : Found := if t.kind = .eof then none else some t.text

/-- The documentation comments right before a token: the last ones of those that lead it. -/
def docs (t : Token) : List Comment :=
  (t.leading.reverse.takeWhile (·.kind == .doc)).reverse

end Token

inductive LiteralKind where
  | string
  | number
  | date
  | boolean
deriving DecidableEq, Repr

def LiteralKind.label : LiteralKind → String
  | .string => "string"
  | .number => "number"
  | .date => "date"
  | .boolean => "boolean"

/-- A number with a date, time or date-time mark is a date. -/
def LiteralKind.ofNumber (text : String) : LiteralKind :=
  let cs := (Text.lower text).toList
  let marked := ["dt".toList, "d".toList, "t".toList].any (·.isSuffixOf cs)
  if marked && !(cs.all Text.isDigitForm && !cs.isEmpty) then .date else .number

end AlLint
