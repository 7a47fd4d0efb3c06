import AlLint.Text.CaseData

/-!
# Letter case

Lower-casing, upper-casing and case folding of whole texts. A case change may make a text longer, and
one of them looks around: a capital sigma becomes the final form at the end of a word. Names and
keywords are compared through `lower`.
-/

namespace AlLint.Text

def mapCase (move : Nat → Nat) (expansions : List (Nat × List Nat)) (c : Char) : List Char :=
  match expansions.lookup c.toNat with
  | some codes => codes.map Char.ofNat
  | none => [Char.ofNat (move c.toNat)]

def upperChar (c : Char) : List Char :=
  let n := c.toNat
  if 8064 ≤ n && n < 8112 then [Char.ofNat (iotaRows.getD ((n - 8064) / 16) 0 + n % 8), 'Ι']
  else mapCase (unshifted lowerShifts) upperExpansions c

def isTitle (c : Char) : Bool := titleRanges.mem c.toNat

/-- Capitals are the characters that have small letters, and some others. -/
def isUpper (c : Char) : Bool :=
  (shifted lowerShifts c.toNat != c.toNat && !isTitle c) || capitalRanges.mem c.toNat

def isLower (c : Char) : Bool := (upperChar c != [c] && !isTitle c) || smallRanges.mem c.toNat

def isCased (c : Char) : Bool := isUpper c || isLower c || isTitle c

/-- A character that is looked through when searching for the letters around a sigma. -/
def isCaseIgnorable (c : Char) : Bool := caseIgnorableRanges.mem c.toNat

def casedAhead (cs : List Char) : Bool :=
  match cs.dropWhile isCaseIgnorable with
  | [] => false
  | c :: _ => isCased c

/-- The lower-case form of one character. `before` holds the characters before it, nearest first. -/
def lowerChar (before : List Char) (c : Char) (after : List Char) : List Char :=
  if c.toNat < 128 then [c.toLower]
  else if c == 'Σ' then (if casedAhead before && !casedAhead after then ['ς'] else ['σ'])
  else mapCase (shifted lowerShifts) lowerExpansions c

/-- Lower-cases the characters of a text that follow `before` (nearest first). -/
def lowerFrom (before : List Char) : List Char → List Char
  | [] => []
  | c :: rest => lowerChar before c rest ++ lowerFrom (c :: before) rest

def lower (s : String) : String := String.ofList (lowerFrom [] s.toList)

def upper (s : String) : String := String.ofList (s.toList.flatMap upperChar)

/-- The letters of the one script whose capitals are the older letters. They fold to capitals. -/
def foldsUp (c : Char) : Bool := (Ranges.ofGaps 0 [5024, 85, 3, 5, 38771, 79]).mem c.toNat

/-- What a character is compared by: the small letters of its capitals, apart from a few. -/
def foldChar (c : Char) : List Char :=
  if c == 'ı' then [c]
  else if c == 'ẞ' then ['s', 's']
  else if foldsUp c then upperChar c
  else (upperChar c).flatMap (mapCase (shifted lowerShifts) lowerExpansions)

def caseFold (s : String) : String := String.ofList (s.toList.flatMap foldChar)

def isUpperText (s : String) : Bool :=
  s.toList.any isUpper && !s.toList.any fun c => isLower c || isTitle c

def isLowerText (s : String) : Bool :=
  s.toList.any isLower && !s.toList.any fun c => isUpper c || isTitle c

def startsUpper (s : String) : Bool := (s.toList.head?.map isUpper).getD false

def startsLower (s : String) : Bool := (s.toList.head?.map isLower).getD false

end AlLint.Text
