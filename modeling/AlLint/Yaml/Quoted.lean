import AlLint.Yaml.Place

/-!
# Quoted scalars

A quoted scalar may go over several lines: a line end with the blanks around it is one blank, and further line
ends are kept. No line of it separates documents. Between single quotes only the quote itself is special, which
is written twice; between double quotes a backslash starts an escape.
-/

namespace AlLint.Yaml

/-- The line ends at the start of some characters, without the blanks around them, and what follows. -/
def breaks? : List Char → Option (List Char × List Char)
  | [] => some ([], [])
  | c :: cs =>
    if isBlank c then breaks? cs
    else if isBreak c then
      if separates cs then none else (breaks? cs).map fun (more, rest) => (breakChar c :: more, rest)
    else some ([], c :: cs)

/-- What a line end stands for with the blanks and line ends after it, and what follows. -/
def lineEnd? (first : Char) (cs : List Char) : Option (List Char × List Char) :=
  if separates cs then none else (breaks? cs).map fun (more, rest) => (folded first more, rest)

def escapes : List (Char × Char) := [
  ('0', '\x00'), ('a', '\x07'), ('b', '\x08'), ('t', '\t'), ('\t', '\t'), ('n', '\n'), ('v', '\x0b'), ('f', '\x0c'),
  ('r', '\r'), ('e', '\x1b'), (' ', ' '), ('"', '"'), ('\\', '\\'), ('/', '/'), ('N', '\u0085'), ('_', '\u00a0'),
  ('L', '\u2028'), ('P', '\u2029')]

def escapeWidth? : Char → Option Nat
  | 'x' => some 2
  | 'u' => some 4
  | 'U' => some 8
  | _ => none

def digit? (c : Char) : Option Nat :=
  if '0' ≤ c ∧ c ≤ '9' then some (c.toNat - '0'.toNat)
  else if 'a' ≤ c ∧ c ≤ 'f' then some (c.toNat - 'a'.toNat + 10)
  else if 'A' ≤ c ∧ c ≤ 'F' then some (c.toNat - 'A'.toNat + 10)
  else none

def hexChar? (width : Nat) (cs : List Char) : Option Char := do
  let digits ← (cs.take width).mapM digit?
  let n := digits.foldl (fun n d => n * 16 + d) 0
  if digits.length = width && n < 0x110000 then some (Char.ofNat n) else none

/-- What an escape stands for after its backslash, and what follows. A line end stands for nothing. -/
def escape? : List Char → Option (List Char × List Char)
  | [] => none
  | c :: cs =>
    match escapes.lookup c, escapeWidth? c with
    | some e, _ => some ([e], cs)
    | none, some width => (hexChar? width cs).map fun e => ([e], cs.drop width)
    | none, none => if isBreak c then if separates cs then none else breaks? cs else none

/-- Reads a scalar up to the quote that closes it. Each step takes at least one character. -/
def quoted? (quote : Char) : Nat → List Char → Option (List Char × List Char)
  | 0, _ => none
  | _, [] => none
  | steps + 1, c :: cs => do
    let goOn (text rest : List Char) : Option (List Char × List Char) :=
      (quoted? quote steps rest).map fun (more, rest) => (text ++ more, rest)
    if c == quote then
      if quote == '\'' && cs.head? == some quote then goOn [quote] cs.tail else some ([], cs)
    else if c == '\\' && quote == '"' then do
      let (text, rest) ← escape? cs
      goOn text rest
    else if isBreak c then do
      let (text, rest) ← lineEnd? c cs
      goOn text rest
    else if isBlank c then
      match cs.dropWhile isBlank with
      | [] => none
      | d :: rest =>
        if isBreak d then do
          let (text, rest) ← lineEnd? d rest
          goOn text rest
        else goOn (c :: cs.takeWhile isBlank) (d :: rest)
    else goOn [c] cs

end AlLint.Yaml
