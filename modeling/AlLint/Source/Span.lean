/-!
# Positions in a source text

Lines and columns start at one. The end column of a span is the one after its last character.
-/

namespace AlLint

structure Span where
  line : Nat
  column : Nat
  endLine : Nat
  endColumn : Nat
deriving DecidableEq, Repr, Inhabited

def Span.covering (first last : Span) : Span := ⟨first.line, first.column, last.endLine, last.endColumn⟩

/-- A place in a text: how many characters are before it, and its line and column. -/
structure Position where
  offset : Nat
  line : Nat
  column : Nat
deriving DecidableEq, Repr, Inhabited

namespace Position

def start : Position := ⟨0, 1, 1⟩

/-- The place after one more character. Only a line feed ends a line. -/
def step (p : Position) (c : Char) : Position :=
  if c = '\n' then ⟨p.offset + 1, p.line + 1, 1⟩ else ⟨p.offset + 1, p.line, p.column + 1⟩

def after (p : Position) (cs : List Char) : Position := cs.foldl step p

@[simp]
theorem after_nil (p : Position) : p.after [] = p := rfl

def spanTo (p q : Position) : Span := ⟨p.line, p.column, q.line, q.column⟩

end Position

/-- The kinds of comment: to the end of a line, documentation to the end of a line, or a block. -/
inductive CommentKind where
  | line
  | doc
  | block
deriving DecidableEq, Repr

def CommentKind.label : CommentKind → String
  | .line => "line"
  | .doc => "doc"
  | .block => "block"

structure Comment where
  kind : CommentKind
  text : String
  span : Span
deriving DecidableEq, Repr

end AlLint
