import AlLint.Decimal.Nearest
import AlLint.Document.Basic
import AlLint.Source.Numeral
import AlLint.Yaml.Quoted

/-!
# What plain scalars stand for

A scalar that is written without quotes is a truth value, a number or nothing if it looks like one, and a text
otherwise. Numbers may be grouped with underscores, start with a sign, and be binary, octal or hexadecimal.
Dates and numbers with places of sixty are left as texts.
-/

namespace AlLint.Yaml

def trueWords : List String := ["yes", "Yes", "YES", "true", "True", "TRUE", "on", "On", "ON"]

def falseWords : List String := ["no", "No", "NO", "false", "False", "FALSE", "off", "Off", "OFF"]

def nullWords : List String := ["", "~", "null", "Null", "NULL"]

/-- What is wrong with a text: it is no document, or a number has no digits or too many. -/
inductive Error where
  | malformed
  | noDigits (base : Nat)
  | oversized (o : Oversized)

def Error.message : Error → String
  | malformed => "not valid YAML"
  | noDigits base => s!"invalid literal for int() with base {base}: ''"
  | oversized o => o.message

def isDigitOf (base : Nat) (c : Char) : Bool := c == '_' || (digit? c).any (· < base)

def valueOf (base : Nat) (cs : List Char) : Nat :=
  cs.foldl (fun n c => ((digit? c).map (n * base + ·)).getD n) 0

def sign : List Char → Bool × List Char
  | '-' :: cs => (true, cs)
  | '+' :: cs => (false, cs)
  | cs => (false, cs)

def decimalOf (cs : List Char) : Except Error Nat := (numeral (cs.filter (· ≠ '_'))).mapError .oversized

def basedOf (base : Nat) (cs : List Char) : Except Error Nat :=
  if cs.all (· == '_') then .error (.noDigits base) else .ok (valueOf base cs)

def isGrouped : List Char → Bool
  | c :: cs => '0' ≤ c && c ≤ '9' && cs.all (isDigitOf 10)
  | [] => false

def whole? (cs : List Char) : Option (Except Error Nat) :=
  match cs with
  | ['0'] => some (.ok 0)
  | '0' :: 'b' :: (c :: rest) => if (c :: rest).all (isDigitOf 2) then some (basedOf 2 (c :: rest)) else none
  | '0' :: 'x' :: (c :: rest) => if (c :: rest).all (isDigitOf 16) then some (basedOf 16 (c :: rest)) else none
  | '0' :: rest => if rest.all (isDigitOf 8) then some (.ok (valueOf 8 rest)) else none
  | _ => if isGrouped cs then some (decimalOf cs) else none

def exponent? (cs : List Char) : Option (List Char × Int) :=
  let fraction := cs.takeWhile (isDigitOf 10)
  match cs.dropWhile (isDigitOf 10) with
  | [] => some (fraction, 0)
  | e :: s :: (d :: ds) =>
    if (e == 'e' || e == 'E') && (s == '+' || s == '-') && (d :: ds).all (fun c => '0' ≤ c && c ≤ '9') then
      let size : Int := valueOf 10 (d :: ds)
      some (fraction, if s == '-' then -size else size)
    else none
  | _ => none

def decimal (before after : List Char) (exponent : Int) : Float :=
  let digits := after.filter (· ≠ '_')
  Decimal.ofScale (valueOf 10 (before ++ digits)) (exponent - digits.length)

def fraction? (signed : Bool) (cs : List Char) : Option Float :=
  let text := String.ofList cs
  if [".inf", ".Inf", ".INF"].contains text then some Decimal.infinity
  else if [".nan", ".NaN", ".NAN"].contains text && !signed then some (0.0 / 0.0)
  else
    let before := cs.takeWhile (· ≠ '.')
    match cs.dropWhile (· ≠ '.') with
    | '.' :: after =>
      if before.isEmpty then
        if signed || !isGrouped (after.take 1) then none
        else (exponent? after).map fun (digits, e) => decimal [] digits e
      else if isGrouped before then (exponent? after).map fun (digits, e) => decimal before digits e
      else none
    | _ => none

def resolve (cs : List Char) : Except Error Document :=
  let text := String.ofList cs
  if trueWords.contains text then .ok (.bool true)
  else if falseWords.contains text then .ok (.bool false)
  else if nullWords.contains text then .ok .null
  else
    let (negative, rest) := sign cs
    let signed := rest.length ≠ cs.length
    match whole? rest, fraction? signed rest with
    | some n, _ => n.map fun n => .int (if negative then -n else n)
    | none, some f => .ok (.float (if negative then -f else f))
    | none, none => .ok (.text text)

end AlLint.Yaml
