import AlLint.Formula.Token
import AlLint.Text.CharName

/-!
# What quoted texts stand for

A backslash starts an escape: a character that could not be written, or one given by its number or its name. A
backslash before any other character stands for itself.
-/

namespace AlLint.Formula

def escapes : List (Char × Char) := [
  ('\\', '\\'), ('\'', '\''), ('"', '"'), ('a', '\x07'), ('b', '\x08'), ('f', '\x0c'), ('n', '\n'),
  ('r', '\r'), ('t', '\t'), ('v', '\x0b')]

def escapeWidth? (bytes : Bool) : Char → Option Nat
  | 'x' => some 2
  | 'u' => if bytes then none else some 4
  | 'U' => if bytes then none else some 8
  | _ => none

def spanName? : List Char → Option (List Char × List Char)
  | '\x7b' :: cs =>
    match cs.dropWhile (· != '\x7d') with
    | _ :: rest => some (cs.takeWhile (· != '\x7d'), rest)
    | [] => none
  | _ => none

def unescape? (bytes : Bool) : Nat → List Char → Option (List Char)
  | _, [] => some []
  | 0, _ => none
  | steps + 1, '\\' :: c :: rest =>
    if c == '\n' then unescape? bytes steps rest
    else
      match escapes.lookup c with
      | some e => (unescape? bytes steps rest).map (e :: ·)
      | none =>
        if isDigitOf 8 c then
          let octal := (c :: rest).take 3 |>.takeWhile (isDigitOf 8)
          let n := valueOf 8 octal
          (unescape? bytes steps ((c :: rest).drop octal.length)).map (Char.ofNat (if bytes then n % 256 else n) :: ·)
        else
          match escapeWidth? bytes c with
          | some width =>
            let hex := rest.take width
            let n := valueOf 16 hex
            if hex.length = width && hex.all (isDigitOf 16) && n < 0x110000 then
              (unescape? bytes steps (rest.drop width)).map (Char.ofNat n :: ·)
            else none
          | none =>
            if c == 'N' && !bytes then do
              let (name, rest) ← spanName? rest
              let d ← Text.charNamed? name
              let cs ← unescape? bytes steps rest
              return d :: cs
            else (unescape? bytes steps rest).map fun cs => '\\' :: c :: cs
  | steps + 1, c :: rest => (unescape? bytes steps rest).map (c :: ·)

def Quotation.contents? (how : Quotation) (body : List Char) : Option (List Char) :=
  if how.bytes && body.any (·.toNat ≥ 128) then none
  else if how.raw then some body
  else unescape? how.bytes body.length body

def joined? (texts : List (Quotation × List Char)) : Option Literal := do
  let parts ← texts.mapM fun (how, body) => how.contents? body
  if texts.all (·.1.bytes) then some (.bytes (parts.flatten.map fun c => c.toNat.toUInt8))
  else if texts.any (·.1.bytes) then none
  else some (.text (String.ofList parts.flatten))

/-! ## Texts with formulas inside -/

/-- Splits the plain characters of a text from the brace after them: one that opens a place for a formula or,
inside of a format, closes it. Outside of formats a doubled brace stands for itself, and none that closes may
stand alone. -/
def plainPart? (raw inFormat : Bool) : Nat → List Char → Option (List Char × List Char)
  | _, [] => some ([], [])
  | 0, _ => none
  | steps + 1, '\\' :: 'N' :: '\x7b' :: rest =>
    if raw then (plainPart? raw inFormat steps ('N' :: '\x7b' :: rest)).map fun (plain, after) =>
      ('\\' :: plain, after)
    else
      -- braces around the name of a character
      let name := rest.takeWhile (· != '\x7d')
      (plainPart? raw inFormat steps ((rest.dropWhile (· != '\x7d')).drop 1)).map fun (plain, after) =>
        ("\\N\x7b".toList ++ name ++ '\x7d' :: plain, after)
  | steps + 1, '\\' :: '\\' :: rest =>
    if raw then (plainPart? raw inFormat steps ('\\' :: rest)).map fun (plain, after) => ('\\' :: plain, after)
    else (plainPart? raw inFormat steps rest).map fun (plain, after) => ('\\' :: '\\' :: plain, after)
  | steps + 1, c :: rest =>
    if c == '\x7b' || c == '\x7d' then
      if !inFormat && rest.head? == some c then
        (plainPart? raw inFormat steps rest.tail).map fun (plain, after) => (c :: plain, after)
      else if !inFormat && c == '\x7d' then none
      else some ([], c :: rest)
    else (plainPart? raw inFormat steps rest).map fun (plain, after) => (c :: plain, after)

/-- Splits a formula inside a text from what follows it. `closers` are the brackets that are open, and `quote`
the quotation mark of the text that is open. The formula ends before a mark that is in no bracket and no
text. -/
def slotFormula? : Nat → List Char → Option (List Char) → List Char → Option (List Char × List Char)
  | 0, _, _, _ => none
  | _, _, _, [] => none
  | steps + 1, closers, some quote, c :: rest =>
    if c == '\\' then none
    else if quote.isPrefixOf (c :: rest) then
      (slotFormula? steps closers none ((c :: rest).drop quote.length)).map fun (f, after) => (quote ++ f, after)
    else (slotFormula? steps closers (some quote) rest).map fun (f, after) => (c :: f, after)
  | steps + 1, closers, none, c :: rest =>
    let more := fun closers => (slotFormula? steps closers none rest).map fun (f, after) => (c :: f, after)
    if c == '\\' || c == '#' then none
    else if c == '\'' || c == '"' then
      let quote := if rest.take 2 == [c, c] then [c, c, c] else [c]
      (slotFormula? steps closers (some quote) ((c :: rest).drop quote.length)).map fun (f, after) =>
        (quote ++ f, after)
    else if c == '(' then more (')' :: closers)
    else if c == '[' then more (']' :: closers)
    else if c == '\x7b' then more ('\x7d' :: closers)
    else
      match closers with
      | closer :: outer =>
        if c == ')' || c == ']' || c == '\x7d' then if c == closer then more outer else none else more closers
      | [] =>
        if c == '!' || c == '=' || c == '<' || c == '>' then
          match rest with
          | '=' :: after =>
            -- a comparison
            (slotFormula? steps [] none after).map fun (f, after) => (c :: '=' :: f, after)
          | _ => if c == '<' || c == '>' then more [] else some ([], c :: rest)
        else if c == ':' || c == '\x7d' then some ([], c :: rest)
        else if c == ')' || c == ']' then none
        else more []

/-- What follows a formula in its place: an equals sign, and how the value is to be shown. -/
def afterFormula? (cs : List Char) : Option (List Char) :=
  let isSpace := fun c : Char => c == ' ' || ('\t' ≤ c && c ≤ '\r')
  let cs := if cs.head? == some '=' then cs.tail.dropWhile isSpace else cs
  match cs with
  | '!' :: c :: rest => if ['s', 'r', 'a'].contains c then some rest else none
  | _ => some cs

/-- The formulas in a text, and the brace that ends it if it is the format of a place. Places may stand in the
format of a place, but not deeper. -/
def formulas? (raw : Bool) : Nat → Nat → List Char → Option (List (List Char) × List Char)
  | 0, _, _ => none
  | steps + 1, depth, cs => do
    let (plain, rest) ← plainPart? raw (0 < depth) (cs.length + 1) cs
    if !raw && (unescape? false plain.length plain).isNone then none
    match rest with
    | '\x7b' :: rest => do
      if depth ≥ 2 then none
      let (formula, rest) ← slotFormula? (rest.length + 1) [] none rest
      let (inner, rest) ←
        match ← afterFormula? rest with
        | ':' :: rest => formulas? raw steps (depth + 1) rest
        | rest => some ([], rest)
      match rest with
      | '\x7d' :: rest => do
        let (others, rest) ← formulas? raw steps depth rest
        return (formula :: inner ++ others, rest)
      | _ => none
    | _ => return ([], rest)

/-- The formulas in a text; none if it cannot be read. A text without formulas has none in it. -/
def Quotation.formulas? (how : Quotation) (body : List Char) : Option (List (List Char)) :=
  if how.formatted then
    match Formula.formulas? how.raw (body.length + 1) 0 body with
    | some (formulas, []) => some formulas
    | _ => none
  else (how.contents? body).map fun _ => []

end AlLint.Formula
