import AlLint.Yaml.Plain
import AlLint.Yaml.Quoted

/-!
# Tokens

A text is cut into scalars and marks. Where lines are indented further, a token opens a block, and where they
are not any more, one closes it. That a scalar or a bracketed value is a key shows only at the colon after it,
so the places where a key may start are remembered: a key is on one line and not too long. A line in the column
of a block of keys has to start with a key.
-/

namespace AlLint.Yaml

inductive Token where
  | documentStart
  | documentEnd
  | sequenceStart
  | mappingStart
  | blockEnd
  | flowSequenceStart
  | flowSequenceEnd
  | flowMappingStart
  | flowMappingEnd
  | entry
  | flowEntry
  | key
  | value
  | scalar (text : List Char) (isPlain : Bool)
deriving DecidableEq, Repr

/-- Where a key may start: the number of its first token, whether one has to start there, and the place. -/
structure KeyStart where
  token : Nat
  required : Bool
  index : Nat
  line : Nat
  column : Nat

def maxKeyLength : Nat := 1024

/-- What is known between two tokens. A block has the column that it is indented to; outside of blocks there is
none. -/
structure Scan where
  place : Place
  depth : Nat := 0
  indent : Option Nat := none
  outer : List (Option Nat) := []
  mayKey : Bool := true
  /-- Where keys may have started, by the number of brackets that were open. -/
  starts : List (Nat × KeyStart) := []
  tokens : Array Token := #[]

namespace Scan

def inFlow (s : Scan) : Bool := 0 < s.depth

def push (s : Scan) (t : Token) : Scan := { s with tokens := s.tokens.push t }

def pushMark (s : Scan) (width : Nat) (t : Token) : Scan := { s.push t with place := s.place.skip width }

def isStale (s : Scan) (k : KeyStart) : Bool := k.line ≠ s.place.line || s.place.index - k.index > maxKeyLength

def dropStale (s : Scan) : Option Scan :=
  if s.starts.any fun e => s.isStale e.2 && e.2.required then none
  else some { s with starts := s.starts.filter fun e => !s.isStale e.2 }

/-- Forgets the start of a key between the brackets that are open. Fails if the key was required. -/
def dropStart (s : Scan) : Option Scan :=
  match s.starts.lookup s.depth with
  | some { required := true, .. } => none
  | _ => some { s with starts := s.starts.filter fun e => e.1 ≠ s.depth }

def saveStart (s : Scan) : Option Scan :=
  if s.mayKey then do
    let s ← s.dropStart
    let required := !s.inFlow && s.indent = some s.place.column
    let start : KeyStart :=
      { token := s.tokens.size, required, index := s.place.index, line := s.place.line, column := s.place.column }
    return { s with starts := (s.depth, start) :: s.starts }
  else some s

/-- Closes the blocks that are indented further than a column; all blocks without one. Steps are bounded by the
blocks that are open. -/
def closeBlocks (column : Option Nat) : List (Option Nat) → Scan → Scan
  | [], s => s
  | indent :: outer, s =>
    let isDeeper :=
      match s.indent, column with
      | none, _ => false
      | some _, none => true
      | some i, some c => c < i
    if isDeeper then closeBlocks column outer { s.push .blockEnd with indent, outer } else s

/-- Closes the blocks that are indented further than a column. Between brackets indentation does not count. -/
def unwind (s : Scan) (column : Option Nat) : Scan := if s.inFlow then s else closeBlocks column s.outer s

/-- Opens a block at a column unless the column is that of the current one. The token for it goes before the
token with some number. -/
def openBlock (s : Scan) (column before : Nat) (t : Token) : Scan :=
  let isDeeper :=
    match s.indent with
    | none => true
    | some i => i < column
  if isDeeper then
    { s with indent := some column, outer := s.indent :: s.outer, tokens := s.tokens.insertIdxIfInBounds before t }
  else s

def documentMark (s : Scan) (t : Token) : Option Scan := do
  let s ← (s.unwind none).dropStart
  return { s with mayKey := false }.pushMark 3 t

def openFlow (s : Scan) (t : Token) : Option Scan := do
  let s ← s.saveStart
  return { s with depth := s.depth + 1, mayKey := true }.pushMark 1 t

def closeFlow (s : Scan) (t : Token) : Option Scan := do
  if s.depth = 0 then none
  let s ← s.dropStart
  return { s with depth := s.depth - 1, mayKey := false }.pushMark 1 t

def flowEntry (s : Scan) : Option Scan := do
  let s ← s.dropStart
  return { s with mayKey := true }.pushMark 1 .flowEntry

def blockMark (s : Scan) (block t : Token) (mayKey : Bool) : Option Scan := do
  if !s.inFlow && !s.mayKey then none
  let s := if s.inFlow then s else s.openBlock s.place.column s.tokens.size block
  let s ← s.dropStart
  return { s with mayKey }.pushMark 1 t

/-- A colon. If a key may have started before it, the key was one. -/
def value (s : Scan) : Option Scan :=
  match s.starts.lookup s.depth with
  | some start =>
    let s := { s with starts := s.starts.filter fun e => e.1 ≠ s.depth }
    let s := { s with tokens := s.tokens.insertIdxIfInBounds start.token .key }
    let s := if s.inFlow then s else s.openBlock start.column start.token .mappingStart
    some ({ s with mayKey := false }.pushMark 1 .value)
  | none => s.blockMark .mappingStart .value !s.inFlow

def quotedScalar (s : Scan) (quote : Char) : Option Scan := do
  let s ← s.saveStart
  let (text, rest) ← quoted? quote s.place.rest.length s.place.rest.tail
  return { s.push (.scalar text false) with place := s.place.upTo rest, mayKey := false }

def plainScalar (s : Scan) : Option Scan := do
  let s ← s.saveStart
  let cs := s.place.rest
  let limit := (s.indent.map (· + 1)).getD 0
  let (text, mayKey, rest) := plain s.inFlow limit (cs.length + 1) [] false s.place.column cs
  return { s.push (.scalar text true) with place := s.place.upTo rest, mayKey }

def token (s : Scan) : Option Scan :=
  match s.place.rest with
  | [] => none
  | c :: cs =>
    if s.place.column = 0 && startsMark "---" (c :: cs) then s.documentMark .documentStart
    else if s.place.column = 0 && startsMark "..." (c :: cs) then s.documentMark .documentEnd
    else if c == '[' then s.openFlow .flowSequenceStart
    else if c == '\x7b' then s.openFlow .flowMappingStart
    else if c == ']' then s.closeFlow .flowSequenceEnd
    else if c == '\x7d' then s.closeFlow .flowMappingEnd
    else if c == ',' then s.flowEntry
    else if c == '-' && gapFirst cs then s.blockMark .sequenceStart .entry true
    else if c == '?' && (s.inFlow || gapFirst cs) then s.blockMark .mappingStart .key !s.inFlow
    else if c == ':' && (s.inFlow || gapFirst cs) then s.value
    else if c == '\'' || c == '"' then s.quotedScalar c
    else if startsPlain s.inFlow (c :: cs) then s.plainScalar
    else none

/-- Goes to the next token. After a line end outside of brackets a key may start. -/
def next (s : Scan) : Option Scan := do
  let (place, ended) := s.place.next
  let s := { s with place, mayKey := s.mayKey || (ended && !s.inFlow) }
  let s ← s.dropStale
  return s.unwind (some place.column)

/-- Reads all tokens. Each but the last step takes at least one character. -/
def run : Nat → Scan → Option (Array Token)
  | 0, _ => none
  | steps + 1, s => do
    let s ← s.next
    if s.place.rest.isEmpty then
      let s ← (s.unwind none).dropStart
      return s.tokens
    else run steps (← s.token)

end Scan

/-- The tokens of a text. A mark of the order of bytes at its start is left out. -/
def Token.scan (cs : List Char) : Option (List Token) :=
  let place : Place := { rest := cs }
  let place := if cs.head? == some '\ufeff' then place.forward else place
  (Scan.run (cs.length + 1) { place }).map Array.toList

end AlLint.Yaml
