import AlLint.Formula.Args
import AlLint.Text.Find

/-!
# Methods of texts and bytes

Texts and bytes are searched, split and cut alike: a text is a row of characters, and bytes are a row of bytes,
of which only those of ASCII are letters, digits or blanks. What a method leaves as it is stays the same value.
-/

namespace AlLint.Formula

/-- A kind of row: how a row is a value, which rows are arguments, and what can be searched for. A new row is
one that is put together, not cut out. -/
structure RowKind (α : Type) where
  value : List α → Mark → Value
  newValue : List α → Mark → Value
  row? : Value → Option (List α)
  pattern : Value → Except Mishap (List α)
  isBlank : α → Bool

def RowKind.row {α : Type} (k : RowKind α) (v : Value) : Except Mishap (List α) :=
  match k.row? v with
  | some row => .ok row
  | none => .error .type

def textRow? : Value → Option (List Char)
  | .text s _ => some s.toList
  | _ => none

def textRows : RowKind Char where
  value := .ofChars
  newValue cs := .ofNewText (String.ofList cs)
  row? := textRow?
  pattern v := ((textRow? v).map .ok).getD (.error .type)
  isBlank := Text.isBlank

def byteRow? : Value → Option (List UInt8)
  | .bytes bs _ => some bs
  | _ => none

def bytePattern (v : Value) : Except Mishap (List UInt8) :=
  match v with
  | .bytes bs _ => .ok bs
  | _ =>
    match v.place? with
    | some i => do return [← byteOf i]
    | none => .error .type

def isBlankByte (b : UInt8) : Bool := b == 32 || (9 ≤ b && b ≤ 13)

def byteRows : RowKind UInt8 where
  value := .ofBytes
  newValue := .ofNewBytes
  row? := byteRow?
  pattern := bytePattern
  isBlank := isBlankByte

section

variable {α : Type} [BEq α] (k : RowKind α)

def searchBound (length default : Int) : Option Value → Except Mishap Int
  | none => .ok default
  | some v => do
    match ← v.bound? with
    | none => return default
    | some i => return if i < 0 then max 0 (i + length) else i

/-- The part of a row that is searched: where it starts, and what it holds; none if the bounds leave nothing,
not even an empty row. -/
def searched {α : Type} (cs : List α) (start stop : Option Value) : Except Mishap (Option (Nat × List α)) := do
  let length : Int := cs.length
  let first ← searchBound length 0 start
  let last ← searchBound length length stop
  let last := min last length
  return if last < first then none else some (first.toNat, (cs.take last.toNat).drop first.toNat)

def searchFor (find : List α → List α → Option Nat) (cs : List α) (a : Args) : Except Mishap (Option Nat) := do
  let args ← a.byPlace 1 3
  let part ← searched cs args[1]? args[2]?
  let pattern ← k.pattern (args.headD .none)
  return part.bind fun (first, cs) => (find pattern cs).map (first + ·)

def foundValue (place : Option Nat) (m : Mark) : Value := .ofInt ((place.map Int.ofNat).getD (-1)) m

def countIn (cs : List α) (a : Args) : Except Mishap Nat := do
  let args ← a.byPlace 1 3
  let part ← searched cs args[1]? args[2]?
  let pattern ← k.pattern (args.headD .none)
  match part with
  | none => return 0
  | some (_, cs) => return if pattern.isEmpty then cs.length + 1 else Text.countOf pattern cs

/-- Whether one of several rows fits. Values before the first that fits have to be rows. -/
def anyFits (fits : List α → Bool) : List Value → Except Mishap Bool
  | [] => .ok false
  | v :: rest => do if fits (← k.row v) then return true else anyFits fits rest

def hasAffix (fits : List α → List α → Bool) (cs : List α) (a : Args) : Except Mishap Value := do
  let args ← a.byPlace 1 3
  let part ← searched cs args[1]? args[2]?
  let affixes :=
    match args.headD .none with
    | .tuple items _ => items
    | v => [v]
  return .bool (← anyFits k (fun affix => (part.map fun p => fits affix p.2).getD false) affixes)

def stripped (a : Args) : Except Mishap (α → Bool) := do
  match ← a.byPlace 0 1 with
  | [] | [.none] => return k.isBlank
  | args => return (← k.row (args.headD .none)).contains

/-- A limit, where a negative one is none. There are never more parts than items. -/
def limitArg {α : Type} (cs : List α) : Option Value → Except Mishap Nat
  | none => .ok (cs.length + 1)
  | some v => do
    let i ← v.counted 64
    return if i < 0 then cs.length + 1 else min i.toNat (cs.length + 1)

/-- A list of the parts of a row. A part that is all of it is the row itself. -/
def partsOf (own : Value) (cs : List α) (parts : List (List α)) (m : Mark) : Value :=
  match parts with
  | [part] => .list [if part.length = cs.length then own else k.value part (.inside m 0)] m
  | parts => .listOf k.value parts m

def splitRow (atPattern : List α → Nat → List α → List (List α)) (atBlanks : Nat → List α → List (List α))
    (own : Value) (cs : List α) (a : Args) (m : Mark) : Except Mishap Value := do
  match ← a.byName ["sep", "maxsplit"] with
  | [separator, limit] =>
    let limit ← limitArg cs limit
    match separator.getD .none with
    | .none =>
      let parts := atBlanks limit cs
      return if limit = 0 then .listOf k.value parts m else partsOf k own cs parts m
    | v =>
      let pattern ← k.row v
      if pattern.isEmpty then .error .value else return partsOf k own cs (atPattern pattern limit cs) m
  | _ => .error .type

def cutOut (own : Value) (cs part : List α) (m : Mark) : Value :=
  if part.length = cs.length then own else k.value part m

def replaceIn (own : Value) (cs : List α) (a : Args) (m : Mark) : Except Mishap Value := do
  let args ← a.byPlace 2 3
  let pattern ← k.row (args.headD .none)
  let text ← k.row (args.getD 1 .none)
  let limit ← limitArg cs args[2]?
  let isFound := pattern.isEmpty || (Text.findFirst? pattern cs).isSome
  return if limit = 0 || pattern == text || !isFound then own else k.newValue (Text.replace pattern text limit cs) m

def rowMethod (own : Value) (cs : List α) (name : String) (a : Args) (m : Mark) : Except Mishap Value :=
  match name with
  | "strip" => do return cutOut k own cs (Text.dropAround (← stripped k a) cs) m
  | "lstrip" => do return cutOut k own cs (cs.dropWhile (← stripped k a)) m
  | "rstrip" => do return cutOut k own cs (Text.dropTrailing (← stripped k a) cs) m
  | "startswith" => hasAffix k (fun affix cs => affix.isPrefixOf cs) cs a
  | "endswith" => hasAffix k (fun affix cs => affix.isSuffixOf cs) cs a
  | "split" => splitRow k Text.splitAt (Text.splitBlanks k.isBlank) own cs a m
  | "rsplit" => splitRow k Text.splitAtRight (Text.splitBlanksRight k.isBlank) own cs a m
  | "replace" => replaceIn k own cs a m
  | "find" => do return foundValue (← searchFor k Text.findFirst? cs a) m
  | "rfind" => do return foundValue (← searchFor k Text.findLast? cs a) m
  | "index" => do
    match ← searchFor k Text.findFirst? cs a with
    | some place => return .ofInt place m
    | none => .error .value
  | "count" => do return .ofInt (← countIn k cs a) m
  | _ => .error .type

def linesOf (split : List α → List (List α × List α)) (own : Value) (cs : List α) (a : Args) (m : Mark) :
    Except Mishap Value := do
  let keepsEnds ←
    match ← a.byName ["keepends"] with
    | [some v] => do pure (decide ((← v.counted 32) ≠ 0))
    | _ => pure false
  return partsOf k own cs ((split cs).map fun l => if keepsEnds then l.1 ++ l.2 else l.1) m

end

def textMethod (own : Value) (s : String) (name : String) (a : Args) (m : Mark) : Except Mishap Value :=
  let cs := s.toList
  match name with
  | "lower" => a.plain (.ofNewText (Text.lower s) m)
  | "upper" => a.plain (.ofNewText (Text.upper s) m)
  | "casefold" => a.plain (.ofNewText (Text.caseFold s) m)
  | "splitlines" => linesOf textRows (Text.splitLines []) own cs a m
  | "isdigit" => a.plain (.bool (!cs.isEmpty && cs.all Text.isDigitForm))
  | "isalpha" => a.plain (.bool (!cs.isEmpty && cs.all Text.isLetter))
  | "isalnum" => a.plain (.bool (!cs.isEmpty && cs.all Text.isLetterOrNumeric))
  | "isupper" => a.plain (.bool (Text.isUpperText s))
  | "islower" => a.plain (.bool (Text.isLowerText s))
  | _ => rowMethod textRows own cs name a m

/-- The ASCII character that a byte is. Bytes outside of ASCII are no letters. -/
def asciiChar (b : UInt8) : Char := if b < 128 then Char.ofNat b.toNat else '\x00'

def mapLetters (f : Char → Char) (bs : List UInt8) : List UInt8 :=
  bs.map fun b => if (asciiChar b).isAlpha then UInt8.ofNat (f (asciiChar b)).toNat else b

def splitByteLines (line : List UInt8) : List UInt8 → List (List UInt8 × List UInt8)
  | [] => if line.isEmpty then [] else [(line.reverse, [])]
  | 13 :: 10 :: rest => (line.reverse, [13, 10]) :: splitByteLines [] rest
  | b :: rest =>
    if b == 10 || b == 13 then (line.reverse, [b]) :: splitByteLines [] rest else splitByteLines (b :: line) rest

def bytesMethod (own : Value) (bs : List UInt8) (name : String) (a : Args) (m : Mark) : Except Mishap Value :=
  let cs := bs.map asciiChar
  match name with
  | "lower" => a.plain (.ofNewBytes (mapLetters Char.toLower bs) m)
  | "upper" => a.plain (.ofNewBytes (mapLetters Char.toUpper bs) m)
  | "splitlines" => linesOf byteRows (splitByteLines []) own bs a m
  | "isdigit" => a.plain (.bool (!cs.isEmpty && cs.all Char.isDigit))
  | "isalpha" => a.plain (.bool (!cs.isEmpty && cs.all Char.isAlpha))
  | "isalnum" => a.plain (.bool (!cs.isEmpty && cs.all Char.isAlphanum))
  | "isupper" => a.plain (.bool (cs.any Char.isUpper && !cs.any Char.isLower))
  | "islower" => a.plain (.bool (cs.any Char.isLower && !cs.any Char.isUpper))
  | _ => rowMethod byteRows own bs name a m

end AlLint.Formula
