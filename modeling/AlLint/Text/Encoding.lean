/-!
# Encodings

Texts are stored as bytes in some encoding. Decoding reads one character after the other. Bytes that stand for
no character are set apart, as many at a time as belong together: those of a character that breaks off, or else
a single unit.
-/

namespace AlLint.Text

inductive Encoding where
  | ascii
  | latin
  | western
  | utf8
  | utf8Signed
  /-- Units of two bytes, the low byte first if `isLittle`, or as the first unit says. -/
  | utf16 (isLittle : Option Bool)
  | utf32 (isLittle : Option Bool)
deriving DecidableEq, Repr

inductive Decoded where
  | char (c : Char)
  | bad (bytes : List UInt8)
deriving Repr

namespace Encoding

def names : List (Encoding × List String) := [
  (.ascii, ["ascii", "646", "ansi_x3.4_1968", "ansi_x3_4_1968", "ansi_x3.4_1986", "cp367", "csascii",
    "ibm367", "iso646_us", "iso_646.irv_1991", "iso_ir_6", "us", "us_ascii"]),
  (.latin, ["latin_1", "8859", "cp819", "csisolatin1", "ibm819", "iso8859", "iso8859_1",
    "iso_8859_1", "iso_8859_1_1987", "iso_ir_100", "l1", "latin", "latin1"]),
  (.western, ["cp1252", "1252", "windows_1252"]),
  (.utf8, ["utf_8", "u8", "utf", "utf8", "utf8_ucs2", "utf8_ucs4", "cp65001"]),
  (.utf8Signed, ["utf_8_sig"]),
  (.utf16 none, ["utf_16", "u16", "utf16"]),
  (.utf16 (some true), ["utf_16_le", "unicodelittleunmarked", "utf_16le"]),
  (.utf16 (some false), ["utf_16_be", "unicodebigunmarked", "utf_16be"]),
  (.utf32 none, ["utf_32", "u32", "utf32"]),
  (.utf32 (some true), ["utf_32_le", "utf_32le"]),
  (.utf32 (some false), ["utf_32_be", "utf_32be"])]

/-- A name in small letters, with what is neither letter nor digit nor point between its words written as an
underscore. -/
def plainName (isBetween : Bool) : List Char → List Char
  | [] => []
  | c :: cs =>
    if c.isAlphanum || c == '.' then (if isBetween then ['_', c.toLower] else [c.toLower]) ++ plainName false cs
    else plainName true cs

def ofName? (name : String) : Option Encoding :=
  let plain := String.ofList (plainName false (name.toList.dropWhile fun c => !(c.isAlphanum || c == '.')))
  (names.find? fun e => e.2.contains plain).map Prod.fst

end Encoding

/-! ## Single bytes -/

/-- The characters of the bytes from 128 to 159 in the western encoding; zero for none. -/
def westernChars : List Nat := [
  0x20AC, 0, 0x201A, 0x0192, 0x201E, 0x2026, 0x2020, 0x2021, 0x02C6, 0x2030, 0x0160, 0x2039, 0x0152,
    0, 0x017D, 0, 0, 0x2018,
  0x2019, 0x201C, 0x201D, 0x2022, 0x2013, 0x2014, 0x02DC, 0x2122, 0x0161, 0x203A, 0x0153, 0, 0x017E, 0x0178]

def decodeWestern (b : UInt8) : Decoded :=
  if 128 ≤ b && b < 160 then
    match westernChars[b.toNat - 128]? with
    | some (n + 1) => .char (Char.ofNat (n + 1))
    | _ => .bad [b]
  else .char (Char.ofNat b.toNat)

def decodeAscii (b : UInt8) : Decoded := if b < 128 then .char (Char.ofNat b.toNat) else .bad [b]

/-! ## Characters of several bytes -/

/-- How many bytes follow a first byte, between which bounds the first of them lies, and what the first byte
adds to the number of the character. -/
def leadOf? (b : UInt8) : Option (Nat × UInt8 × UInt8 × Nat) :=
  if b < 0xC2 then none
  else if b < 0xE0 then some (1, 0x80, 0xBF, b.toNat - 0xC0)
  else if b < 0xF0 then some (2, if b = 0xE0 then 0xA0 else 0x80, if b = 0xED then 0x9F else 0xBF, b.toNat - 0xE0)
  else if b < 0xF5 then some (3, if b = 0xF0 then 0x90 else 0x80, if b = 0xF4 then 0x8F else 0xBF, b.toNat - 0xF0)
  else none

/-- The bytes that continue a character, as many as there are up to `count`. The first lies between two bounds. -/
def continuing (low high : UInt8) : Nat → List UInt8 → List UInt8
  | count + 1, b :: rest => if low ≤ b && b ≤ high then b :: continuing 0x80 0xBF count rest else []
  | _, _ => []

def decodeUtf8 : List UInt8 → List Decoded
  | [] => []
  | b :: rest =>
    if b < 0x80 then .char (Char.ofNat b.toNat) :: decodeUtf8 rest
    else
      match leadOf? b with
      | none => .bad [b] :: decodeUtf8 rest
      | some (count, low, high, start) =>
        let more := continuing low high count rest
        (if more.length = count then .char (Char.ofNat (more.foldl (fun n b => n * 64 + (b.toNat - 0x80)) start))
          else .bad (b :: more)) :: decodeUtf8 (rest.drop more.length)
termination_by bs => bs.length
decreasing_by all_goals simp only [List.length_cons, List.length_drop]; omega

def unitOf (isLittle : Bool) (bs : List UInt8) : Nat :=
  (if isLittle then bs.reverse else bs).foldl (fun n b => n * 256 + b.toNat) 0

def isHighHalf (n : Nat) : Bool := 0xD800 ≤ n && n < 0xDC00

def isLowHalf (n : Nat) : Bool := 0xDC00 ≤ n && n < 0xE000

/-- Decodes units of two bytes. A character may take two of them. -/
def decodeUtf16 (isLittle : Bool) : List UInt8 → List Decoded
  | [] => []
  | [a] => [.bad [a]]
  | a :: b :: rest =>
    let n := unitOf isLittle [a, b]
    if isLowHalf n then .bad [a, b] :: decodeUtf16 isLittle rest
    else if isHighHalf n then
      match rest with
      | c :: d :: rest' =>
        let k := unitOf isLittle [c, d]
        if isLowHalf k then
          .char (Char.ofNat (0x10000 + (n - 0xD800) * 0x400 + (k - 0xDC00))) :: decodeUtf16 isLittle rest'
        else .bad [a, b] :: decodeUtf16 isLittle (c :: d :: rest')
      | _ => [.bad (a :: b :: rest)]
    else .char (Char.ofNat n) :: decodeUtf16 isLittle rest

def decodeUtf32 (isLittle : Bool) : List UInt8 → List Decoded
  | a :: b :: c :: d :: rest =>
    let n := unitOf isLittle [a, b, c, d]
    (if n.isValidChar then .char (Char.ofNat n) else .bad [a, b, c, d]) :: decodeUtf32 isLittle rest
  | [] => []
  | bs => [.bad bs]

/-- Whether the low byte comes first, and the bytes after a mark that says so. Without a mark it does. -/
def byteOrder (width : Nat) (bs : List UInt8) : Bool × List UInt8 :=
  let unit := bs.take width
  if unit.length = width && unitOf true unit = 0xFEFF then (true, bs.drop width)
  else if unit.length = width && unitOf false unit = 0xFEFF then (false, bs.drop width)
  else (true, bs)

def Encoding.decode (e : Encoding) (bs : List UInt8) : List Decoded :=
  match e with
  | ascii => bs.map decodeAscii
  | latin => bs.map fun b => .char (Char.ofNat b.toNat)
  | western => bs.map decodeWestern
  | utf8 => decodeUtf8 bs
  | utf8Signed => decodeUtf8 (if [0xEF, 0xBB, 0xBF].isPrefixOf bs then bs.drop 3 else bs)
  | utf16 (some isLittle) => decodeUtf16 isLittle bs
  | utf16 none =>
    let (isLittle, bs) := byteOrder 2 bs
    decodeUtf16 isLittle bs
  | utf32 (some isLittle) => decodeUtf32 isLittle bs
  | utf32 none =>
    let (isLittle, bs) := byteOrder 4 bs
    decodeUtf32 isLittle bs

end AlLint.Text
