import AlLint.Yaml.Place

/-!
# Plain scalars

A plain scalar has no quotes and ends where something else starts: a comment, a colon that ends a key, between
brackets one of the marks that have a meaning there. It goes on in the next lines for as long as they are
indented enough, and a tab ends it.
-/

namespace AlLint.Yaml

def isFlowMark (c : Char) : Bool := [',', '[', ']', '\x7b', '\x7d'].contains c

def indicators : List Char := [
  '-', '?', ':', ',', '[', ']', '\x7b', '\x7d', '#', '&', '*', '!', '|', '>', '\'', '"', '%', '@', '\x60']

/-- Whether a plain scalar may start here. Some marks may start one if no gap follows. -/
def startsPlain (inFlow : Bool) : List Char → Bool
  | [] => false
  | c :: cs =>
    if gapFirst [c] then false
    else if indicators.contains c then !gapFirst cs && (c == '-' || (!inFlow && (c == '?' || c == ':')))
    else true

def endsPlain (inFlow : Bool) : List Char → Bool
  | [] => true
  | c :: cs =>
    gapFirst [c] || (c == ':' && (gapFirst cs || (inFlow && (cs.head?.map isFlowMark).getD false))) ||
      (inFlow && (isFlowMark c || c == '?'))

def plainPart (inFlow : Bool) : List Char → List Char × List Char
  | [] => ([], [])
  | c :: cs =>
    if endsPlain inFlow (c :: cs) then ([], c :: cs)
    else
      let (part, rest) := plainPart inFlow cs
      (c :: part, rest)

/-- What follows a part of a plain scalar: what the gap stands for, unless the scalar ends there, whether a line
ended in it, and the place after it. -/
structure Gap where
  text : Option (List Char)
  endsLine : Bool
  column : Nat
  rest : List Char

/-- The line ends at the start of some characters, without the blanks around them. There are none if a line separates
documents. -/
def plainBreaks (column : Nat) : List Char → Option (List Char) × Nat × List Char
  | [] => (some [], column, [])
  | c :: cs =>
    if c == ' ' then plainBreaks (column + 1) cs
    else if isBreak c then
      if separates cs then (none, 0, cs)
      else
        let (more, column, rest) := plainBreaks 0 cs
        (more.map (breakChar c :: ·), column, rest)
    else (some [], column, c :: cs)

def gap (column : Nat) (cs : List Char) : Gap :=
  let blanks := cs.takeWhile (· == ' ')
  match cs.dropWhile (· == ' ') with
  | [] => { text := some blanks, endsLine := false, column := column + blanks.length, rest := [] }
  | c :: rest =>
    if isBreak c then
      if separates rest then { text := none, endsLine := true, column := 0, rest }
      else
        let (more, column, rest) := plainBreaks 0 rest
        { text := more.map (folded c), endsLine := true, column, rest }
    else { text := some blanks, endsLine := false, column := column + blanks.length, rest := c :: rest }

/-- Reads a plain scalar whose lines after the first one start at column `limit` or after it. `spaces` stand
before the next part. Gives the scalar, whether its last gap has a line end, and what follows. Each step takes
at least one character. -/
def plain (inFlow : Bool) (limit : Nat) : Nat → (spaces : List Char) → (ended : Bool) → (column : Nat) → List Char →
    List Char × Bool × List Char
  | 0, _, ended, _, cs => ([], ended, cs)
  | steps + 1, spaces, ended, column, cs =>
    match plainPart inFlow cs with
    | ([], _) => ([], ended, cs)
    | (part, rest) =>
      let g := gap (column + part.length) rest
      match g.text with
      | none | some [] => (spaces ++ part, g.endsLine, g.rest)
      | some text =>
        if g.rest.head? == some '#' || (!inFlow && g.column < limit) then (spaces ++ part, g.endsLine, g.rest)
        else
          let (more, ended, rest) := plain inFlow limit steps text g.endsLine g.column g.rest
          (spaces ++ part ++ more, ended, rest)

end AlLint.Yaml
