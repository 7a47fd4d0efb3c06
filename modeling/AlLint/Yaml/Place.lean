/-!
# Places in a text

What separates the parts of a text: blanks, line ends, and lines that mark where a document starts or ends. A
place is known by how many characters are before it, by its line, and by its column.
-/

namespace AlLint.Yaml

def isBreak (c : Char) : Bool := c == '\n' || c == '\r' || c == '\u0085' || c == '\u2028' || c == '\u2029'

def isBlank (c : Char) : Bool := c == ' ' || c == '\t'

def breakChar (c : Char) : Char := if c == '\u2028' || c == '\u2029' then c else '\n'

def gapFirst : List Char → Bool
  | [] => true
  | c :: _ => isBlank c || isBreak c

def startsMark (mark : String) (cs : List Char) : Bool := mark.toList.isPrefixOf cs && gapFirst (cs.drop 3)

def separates (cs : List Char) : Bool := startsMark "---" cs || startsMark "..." cs

/-- What a line end and further ones after it stand for inside of a scalar: one that is alone is a blank, and
otherwise the first one is left out. -/
def folded (first : Char) (more : List Char) : List Char :=
  if breakChar first ≠ '\n' then first :: more else if more.isEmpty then [' '] else more

/-- A place in a text, and what follows. Lines and columns are counted from zero. -/
structure Place where
  index : Nat := 0
  line : Nat := 0
  column : Nat := 0
  rest : List Char

namespace Place

/-- The place after a character. A mark of the order of bytes takes no column. -/
def forward (p : Place) : Place :=
  match p.rest with
  | [] => p
  | c :: rest =>
    if isBreak c then { index := p.index + 1, line := p.line + 1, column := 0, rest }
    else { p with index := p.index + 1, column := if c == '\ufeff' then p.column else p.column + 1, rest }

def skip : Nat → Place → Place
  | 0, p => p
  | n + 1, p => skip n p.forward

def upTo (p : Place) (rest : List Char) : Place := p.skip (p.rest.length - rest.length)

/-- The place before the next token: after blanks, comments and line ends. Tells whether a line ended. -/
def next (p : Place) : Place × Bool :=
  go false false p.rest p
where
  /-- Goes on with what is left of the text. -/
  go (ended comment : Bool) : List Char → Place → Place × Bool
    | [], p => (p, ended)
    | c :: cs, p =>
      if isBreak c then go true false cs p.forward
      else if comment || c == ' ' then go ended comment cs p.forward
      else if c == '#' then go ended true cs p.forward
      else (p, ended)

end Place

end AlLint.Yaml
