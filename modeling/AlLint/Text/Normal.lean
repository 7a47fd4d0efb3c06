import AlLint.Text.NormalData

/-!
# Normal forms

Characters that only look different, such as wide or ornamented letters, have one normal form. A text is taken
apart into what its characters are made of, marks on one letter are put in order, and letters and marks are put
together again as far as there are characters for them. The syllables of one script are made of their letters by
arithmetic.
-/

namespace AlLint.Text

/-! ## Data -/

def hexNumber (cs : List Char) : Nat :=
  cs.foldl (fun n c => n * 16 + (if c.isDigit then c.toNat - '0'.toNat else c.toNat - 'A'.toNat + 10)) 0

structure PartsEntry where
  low : Nat
  high : Nat
  parts : List Nat

def PartsEntry.covers (e : PartsEntry) (n : Nat) : Bool := e.low ≤ n && n ≤ e.high

/-- The entries that an item of a table writes. They are about the code point `next` if the item does not tell. -/
def PartsEntry.ofItem (parts : List Char → List Nat) (next : Nat) (cs : List Char) : List PartsEntry :=
  match cs.splitOn '|', cs.splitOn ':' with
  | [code, row], _ => row.mapIdx fun i c => ⟨hexNumber code + i, hexNumber code + i, [c.toNat]⟩
  | _, [codes, made] =>
    let bounds := codes.splitOn '-'
    [⟨hexNumber (bounds.headD []), hexNumber (bounds.getLastD []), parts made⟩]
  | _, _ => [⟨next, next, parts cs⟩]

/-- The entries that some items write, the first of them after the code points before `next`. -/
def entriesFrom (parts : List Char → List Nat) (next : Nat) : List (List Char) → List PartsEntry
  | [] => []
  | cs :: rest =>
    let found := PartsEntry.ofItem parts next cs
    found ++ entriesFrom parts ((found.getLast?.map (·.high + 1)).getD next) rest

def tableEntries (parts : List Char → List Nat) (table : String) : List PartsEntry :=
  entriesFrom parts 0 (table.toList.splitOnP fun c => c == ' ' || c == '\n')

def pairEntries : Thunk (List PartsEntry) := .mk fun _ => tableEntries (·.map Char.toNat) pairTable

/-- Adds an entry whose parts are taken apart as the entries before it tell. -/
def addApart (entries : List PartsEntry) (e : PartsEntry) : List PartsEntry :=
  { e with parts := e.parts.flatMap fun n => ((entries.find? (·.covers n)).map (·.parts)).getD [n] } :: entries

def looseEntries : Thunk (List PartsEntry) := .mk fun _ =>
  tableEntries (·.map Char.toNat) looseTable ++ pairEntries.get.foldl addApart []

def markEntries : Thunk (List PartsEntry) := .mk fun _ => tableEntries (fun cs => [hexNumber cs]) classTable

def markClass (c : Char) : Nat := ((markEntries.get.find? (·.covers c.toNat)).bind (·.parts.head?)).getD 0

/-! ## Syllables -/

/-- The first syllable, and the letters that may come first, second and last in one. The last one may be missing. -/
def syllables : Nat × Nat × Nat × Nat := (0xAC00, 0x1100, 0x1161, 0x11A7)

def syllableParts? (n : Nat) : Option (List Nat) :=
  let (start, first, second, last) := syllables
  if start ≤ n && n < start + 19 * 21 * 28 then
    let k := n - start
    let letters := [first + k / (21 * 28), second + k % (21 * 28) / 28]
    some (if k % 28 = 0 then letters else letters ++ [last + k % 28])
  else none

def syllableOf? (a b : Nat) : Option Nat :=
  let (start, first, second, last) := syllables
  if first ≤ a && a < first + 19 && second ≤ b && b < second + 21 then
    some (start + ((a - first) * 21 + (b - second)) * 28)
  else if start ≤ a && a < start + 19 * 21 * 28 && (a - start) % 28 = 0 && last < b && b < last + 28 then
    some (a + (b - last))
  else none

/-! ## Normal forms -/

def takeApart (c : Char) : List Char :=
  let n := c.toNat
  if n < 128 then [c]
  else
    match syllableParts? n with
    | some parts => parts.map Char.ofNat
    | none =>
      match looseEntries.get.find? (·.covers n) with
      | some { low, parts := [part], .. } => [Char.ofNat (part + (n - low))]
      | some { parts, .. } => parts.map Char.ofNat
      | none => [c]

/-- Puts a character before others that are in order. A mark goes behind those of a lower class. -/
def putMark (c : Char) : List Char → List Char
  | [] => [c]
  | d :: rest => if 0 < markClass d && markClass d < markClass c then d :: putMark c rest else c :: d :: rest

def orderMarks (cs : List Char) : List Char := cs.foldr putMark []

def together? (a b : Char) : Option Char :=
  match syllableOf? a.toNat b.toNat with
  | some n => some (Char.ofNat n)
  | none => (pairEntries.get.find? fun e => e.parts = [a.toNat, b.toNat]).map fun e => Char.ofNat e.low

/-- Puts characters together with a letter before them. `marks` are those in between that stayed, in reverse,
and the last of them has the class `last`. A mark is only put together with the letter if none of its own or a
higher class is in between. -/
def putTogether (letter : Char) (marks : List Char) (last : Nat) : List Char → List Char
  | [] => letter :: marks.reverse
  | c :: rest =>
    let isNear := marks.isEmpty || last < markClass c
    match if isNear then together? letter c else none with
    | some d => putTogether d marks last rest
    | none =>
      if markClass c = 0 then letter :: (marks.reverse ++ putTogether c [] 0 rest)
      else putTogether letter (c :: marks) (markClass c) rest

def normalForm (cs : List Char) : List Char :=
  if cs.all fun c => c.toNat < 128 then cs
  else
    match orderMarks (cs.flatMap takeApart) with
    | [] => []
    | c :: rest => putTogether c [] 0 rest

end AlLint.Text
