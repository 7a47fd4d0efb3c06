import AlLint.Formula.Item

/-!
# Filling in values

A template is a text with places for values: a percent sign, and a letter that says how to write the value.
Between them stand flags, a width and a precision. A place may name its value, which is then looked up in a
mapping. Bytes are templates too, as the texts of the characters with their numbers.
-/

namespace AlLint.Formula.Format

structure Spec where
  leftAligned : Bool := false
  zeroPadded : Bool := false
  showSign : Bool := false
  blankSign : Bool := false
  alternate : Bool := false
  width : Nat := 0
  precision : Option Nat := none

def fixedDigits (n d places : Nat) : List Char :=
  let scaled := Decimal.roundHalfEven (n * Nat.pow 10 places) d
  let digits := Nat.toDigits 10 scaled
  let padded := List.replicate (places + 1 - digits.length) '0' ++ digits
  let whole := padded.take (padded.length - places)
  if places = 0 then whole else whole ++ '.' :: padded.drop (padded.length - places)

/-- The exponent of the first digit of a fraction that is not zero, starting from a guess that is not too small. -/
def leadingExponent (n d : Nat) : Nat → Int → Int
  | 0, e => e
  | steps + 1, e =>
    let isReached := if e < 0 then n * Nat.pow 10 (-e).toNat ≥ d else n ≥ d * Nat.pow 10 e.toNat
    if isReached then e else leadingExponent n d steps (e - 1)

/-- The digits of a fraction with one digit before the point and some after it, and the exponent. -/
def scientificDigits (n d places : Nat) : List Char × Int :=
  if n = 0 then (List.replicate (places + 1) '0', 0)
  else
    let guess : Int := (Nat.toDigits 10 n).length - (Nat.toDigits 10 d).length + 1
    let e := leadingExponent n d 4 guess
    let shift : Int := places - e
    let scaled := if shift < 0 then Decimal.roundHalfEven n (d * Nat.pow 10 (-shift).toNat)
      else Decimal.roundHalfEven (n * Nat.pow 10 shift.toNat) d
    let digits := Nat.toDigits 10 scaled
    -- rounding up may give one digit more
    if digits.length > places + 1 then (digits.dropLast, e + 1) else (digits, e)

def exponentText (mark : Char) (e : Int) : List Char :=
  let digits := Nat.toDigits 10 e.natAbs
  mark :: (if e < 0 then '-' else '+') :: (if digits.length < 2 then '0' :: digits else digits)

def pointed (digits : List Char) : List Char :=
  match digits with
  | d :: ds => if ds.isEmpty then [d] else d :: '.' :: ds
  | [] => []

def withPoint (spec : Spec) (digits : List Char) : List Char :=
  if spec.alternate && !digits.contains '.' then digits ++ ['.'] else digits

/-- More digits than any number that is not exact has, before or after the point. All after them are zeros. -/
def maxPlaces : Nat := 1100

def zeroExtended (digits : Nat → List Char) (places : Nat) : List Char :=
  digits (min places maxPlaces) ++ List.replicate (places - maxPlaces) '0'

def realText (letter : Char) (spec : Spec) (f : Float) : List Char :=
  let isUpper := letter.isUpper
  let precision := spec.precision.getD 6
  if f.isNaN then if isUpper then "NAN".toList else "nan".toList
  else if f.isInf then if isUpper then "INF".toList else "inf".toList
  else
    let (n, d) := Decimal.toFraction f.abs
    let n := n.toNat
    let mark := if isUpper then 'E' else 'e'
    let fixed := zeroExtended (fixedDigits n d)
    let scientific := fun places =>
      (zeroExtended (fun p => (scientificDigits n d p).1) places, (scientificDigits n d (min places maxPlaces)).2)
    match letter.toLower with
    | 'f' => withPoint spec (fixed precision)
    | 'e' =>
      let (digits, e) := scientific precision
      withPoint spec (pointed digits) ++ exponentText mark e
    | _ =>
      let count := if precision = 0 then 1 else precision
      let (digits, e) := scientific (count - 1)
      let trim := fun cs : List Char =>
        if spec.alternate || !cs.contains '.' then withPoint spec cs
        else Text.dropTrailing (· == '.') (Text.dropTrailing (· == '0') cs)
      if e < -4 || e ≥ count then trim (pointed digits) ++ exponentText mark e
      else trim (fixed (count - 1 - e).toNat)

def padNumber (spec : Spec) (isNegative : Bool) (before digits : List Char) : List Char :=
  let sign := if isNegative then ['-'] else if spec.showSign then ['+'] else if spec.blankSign then [' '] else []
  let missing := spec.width - (sign.length + before.length + digits.length)
  if spec.leftAligned then sign ++ before ++ digits ++ List.replicate missing ' '
  else if spec.zeroPadded then sign ++ before ++ List.replicate missing '0' ++ digits
  else List.replicate missing ' ' ++ sign ++ before ++ digits

def padText (spec : Spec) (cs : List Char) : List Char :=
  let cs := (spec.precision.map cs.take).getD cs
  let blanks := List.replicate (spec.width - cs.length) ' '
  if spec.leftAligned then cs ++ blanks else blanks ++ cs

def wholeText (spec : Spec) (letter : Char) (i : Int) : Except Mishap (List Char) := do
  let base := match letter with
    | 'x' | 'X' => 16
    | 'o' => 8
    | _ => 10
  let digits := Nat.toDigits base i.natAbs
  if base = 10 && digits.length > maxShownDigits then .error .value
  let digits := if letter == 'X' then digits.map Char.toUpper else digits
  let digits := List.replicate (spec.precision.getD 0 - digits.length) '0' ++ digits
  let before := if spec.alternate && base ≠ 10 then ['0', letter] else []
  return padNumber spec (i < 0) before digits

def escaped (cs : List Char) : List Char :=
  cs.flatMap fun c =>
    if c.toNat < 128 then [c]
    else if c.toNat < 256 then '\\' :: 'x' :: Text.hex 2 c.toNat
    else if c.toNat < 0x10000 then '\\' :: 'u' :: Text.hex 4 c.toNat
    else '\\' :: 'U' :: Text.hex 8 c.toNat

def charsOf (bs : List UInt8) : List Char := bs.map fun b => Char.ofNat b.toNat

def bytesOf (cs : List Char) : List UInt8 := cs.map fun c => UInt8.ofNat c.toNat

def writeString (isBytes : Bool) (v : Value) : Except Mishap (List Char) :=
  match isBytes, v with
  | false, v => do return (← v.shown).toList
  | true, .bytes bs _ => .ok (charsOf bs)
  | true, _ => .error .type

def writeChar (isBytes : Bool) (v : Value) : Except Mishap (List Char) :=
  let limit := if isBytes then 256 else 0x110000
  match isBytes, v with
  | false, .text s _ => if s.length = 1 then .ok s.toList else .error .type
  | true, .bytes [b] _ => .ok (charsOf [b])
  | _, v =>
    match v.place? with
    | some i => if 0 ≤ i ∧ i < limit then .ok [Char.ofNat i.toNat] else .error .overflow
    | none => .error .type

def write (isBytes : Bool) (spec : Spec) (letter : Char) (v : Value) : Except Mishap (List Char) :=
  match letter with
  | 's' => do return padText spec (← writeString isBytes v)
  | 'r' => do
    let cs := (← v.quoted).toList
    return padText spec (if isBytes then escaped cs else cs)
  | 'a' => do return padText spec (escaped (← v.quoted).toList)
  | 'c' => do return padText { spec with precision := none } (← writeChar isBytes v)
  | 'd' | 'i' | 'u' =>
    match v.number? with
    | some (.whole i) => wholeText spec 'd' i
    | some (.real f) =>
      if f.isNaN then .error .value
      else if f.isInf then .error .overflow
      else
        let (n, d) := Decimal.toFraction f
        wholeText spec 'd' (n.tdiv d)
    | _ => .error .type
  | 'x' | 'X' | 'o' =>
    match v.number? with
    | some (.whole i) => wholeText spec letter i
    | _ => .error .type
  | 'f' | 'F' | 'e' | 'E' | 'g' | 'G' => do
    let f ←
      match v.number? with
      | some (.whole i) => Number.ofWhole i
      | some (.real f) => .ok f
      | _ => .error .type
    return padNumber spec (Decimal.isNegative f && !f.isNaN) [] (realText letter spec f)
  | _ => if isBytes && letter == 'b' then do return padText spec (← writeString isBytes v) else .error .value

structure Values where
  items : List Value
  named : Option (List (Value × Value)) := none
  isExcused : Bool := false

def Values.next (vs : Values) : Except Mishap (Value × Values) :=
  match vs.items with
  | v :: rest => .ok (v, { vs with items := rest })
  | [] => .error .type

/-- A number, or a star that takes its number from the values. It must fit into some bits with a sign. -/
def numberOrStar (bits : Nat) (vs : Values) (cs : List Char) : Except Mishap (Option Int × Values × List Char) :=
  match cs with
  | '*' :: rest => do
    let (v, vs) ← vs.next
    let i ← v.counted bits
    return (some i, vs, rest)
  | _ =>
    let digits := cs.takeWhile Char.isDigit
    let n := digits.foldl (fun n c => n * 10 + (c.toNat - '0'.toNat)) 0
    if digits.isEmpty then .ok (none, vs, cs)
    else if n < Nat.pow 2 (bits - 1) then .ok (some (n : Nat), vs, cs.dropWhile Char.isDigit)
    else .error .value

def flags (spec : Spec) : List Char → Spec × List Char
  | '-' :: cs => flags { spec with leftAligned := true } cs
  | '0' :: cs => flags { spec with zeroPadded := true } cs
  | '+' :: cs => flags { spec with showSign := true } cs
  | ' ' :: cs => flags { spec with blankSign := true } cs
  | '#' :: cs => flags { spec with alternate := true } cs
  | cs => (spec, cs)

/-- A name between round brackets, which may hold brackets itself. -/
def placeName : Nat → List Char → Except Mishap (List Char × List Char)
  | _, [] => .error .value
  | depth, c :: cs =>
    match c, depth with
    | ')', 0 => .ok ([], cs)
    | ')', depth + 1 => do
      let (name, rest) ← placeName depth cs
      return (c :: name, rest)
    | '(', depth => do
      let (name, rest) ← placeName (depth + 1) cs
      return (c :: name, rest)
    | _, depth => do
      let (name, rest) ← placeName depth cs
      return (c :: name, rest)

/-- A stretch of a filled template. A value that is written as it is stands for itself. -/
structure Stretch where
  text : List Char
  self : Option Value := none

def fillPlace (isBytes : Bool) (vs : Values) (cs : List Char) : Except Mishap (Stretch × Values × List Char) := do
  let (vs, cs) ←
    match cs with
    | '(' :: rest =>
      match vs.named with
      | none => .error .type
      | some entries => do
        let (name, rest) ← placeName 0 rest
        let key : Value := if isBytes then .bytes (bytesOf name) .only else .text (String.ofList name) .only
        match ← Value.entryOf? entries key with
        | some v => pure ({ vs with items := [v] }, rest)
        | none => .error .key
    | _ => pure (vs, cs)
  let (spec, cs) := flags {} cs
  let (width, vs, cs) ← numberOrStar 64 vs cs
  let spec :=
    match width with
    | some w => { spec with width := w.natAbs, leftAligned := spec.leftAligned || w < 0 }
    | none => spec
  let (spec, vs, cs) ←
    match cs with
    | '.' :: rest => do
      let (precision, vs, rest) ← numberOrStar 32 vs rest
      pure ({ spec with precision := some ((precision.getD 0).toNat) }, vs, rest)
    | _ => pure (spec, vs, cs)
  let cs :=
    match cs with
    | c :: rest => if c == 'l' || c == 'h' || c == 'L' then rest else cs
    | [] => cs
  match cs with
  | [] => .error .value
  | letter :: rest => do
    let (v, vs) ← vs.next
    let text ← write isBytes spec letter v
    let self :=
      match v with
      | .text s _ => if letter == 's' && !spec.showSign && !spec.blankSign && s.toList == text then some v else none
      | _ => none
    return ({ text, self }, vs, rest)

/-- Fills all places of a template. Two percent signs are one in the text. Each place takes a character, so as
many steps as there are characters are enough. -/
def fillAll (isBytes : Bool) : Nat → Values → List Char → Except Mishap (List Stretch)
  | _, vs, [] => if vs.items.isEmpty || vs.isExcused then .ok [] else .error .type
  | 0, _, _ => .error .value
  | steps + 1, vs, '%' :: '%' :: cs => do return { text := ['%'] } :: (← fillAll isBytes steps vs cs)
  | steps + 1, vs, '%' :: cs => do
    let (stretch, vs, rest) ← fillPlace isBytes vs cs
    return stretch :: (← fillAll isBytes steps vs rest)
  | steps + 1, vs, cs => do
    let plain := cs.takeWhile (· != '%')
    return { text := plain } :: (← fillAll isBytes steps vs (cs.dropWhile (· != '%')))

/-- The values for a template. The items of a tuple are several values; a value that has items of its own need
not be used. -/
def valuesOf (isBytes : Bool) (v : Value) : Values :=
  match v with
  | .tuple items _ => { items }
  | .dict entries _ | .mapping entries _ => { items := [v], named := some entries, isExcused := true }
  | .list .. => { items := [v], isExcused := true }
  | .bytes .. => { items := [v], isExcused := !isBytes }
  | _ => { items := [v] }

/-- A text with its places filled. One without places stays the same, and so does a value that is the whole text. -/
def fillText (template : String) (own : Mark) (v : Value) (m : Mark) : Except Mishap Value := do
  let cs := template.toList
  match ← fillAll false (cs.length + 1) (valuesOf false v) cs with
  | [{ text := _, self := some v }] => return v
  | stretches =>
    if cs.contains '%' then return .ofChars (stretches.flatMap Stretch.text) m else return .text template own

def fillBytes (template : List UInt8) (v : Value) (m : Mark) : Except Mishap Value := do
  let stretches ← fillAll true (template.length + 1) (valuesOf true v) (charsOf template)
  return .ofBytes (bytesOf (stretches.flatMap Stretch.text)) m

end AlLint.Formula.Format
