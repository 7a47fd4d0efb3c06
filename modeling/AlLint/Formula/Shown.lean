import AlLint.Decimal.Nearest
import AlLint.Formula.PartText

/-!
# Values as texts

A text shows itself; inside another value it is quoted.
-/

namespace AlLint.Formula

def maxShownDigits : Nat := 4300

/-- A whole number as a text. Numbers with too many digits have none. -/
def shownInt (i : Int) : Except Mishap String :=
  let digits := Nat.toDigits 10 i.natAbs
  if digits.length > maxShownDigits then .error .value
  else .ok (String.ofList (if i < 0 then '-' :: digits else digits))

def shownComponent (f : Float) : String :=
  let s := Decimal.text f
  if ".0".toList.isSuffixOf s.toList then String.ofList (s.toList.take (s.length - 2)) else s

def shownComplex (re im : Float) : String :=
  let imaginary := shownComponent im
  if re == 0 && 1 / re > 0 then imaginary ++ "j"
  else
    let signed := if imaginary.toList.head? == some '-' then imaginary else "+" ++ imaginary
    "(" ++ shownComponent re ++ signed ++ "j)"

namespace Value

def helperName (h : Helper) : String := ((Helper.byName.find? fun e => e.2 == h).map Prod.fst).getD ""

def shownEntries (entries : List String) : String := "\x7b" ++ ", ".intercalate entries ++ "\x7d"

mutual

def quoted : Value → Except Mishap String
  | none => .ok "None"
  | bool b => .ok (shownBool b)
  | int i _ => shownInt i
  | float f _ => .ok (Decimal.text f)
  | complex re im _ => .ok (shownComplex re im)
  | bytes bs _ => .ok (Text.quotedBytes bs)
  | ellipsis => .ok "Ellipsis"
  | text s _ => .ok (Text.quoted s)
  | list items _ => do return shownList (← quotedItems items)
  | tuple items _ => do
    match ← quotedItems items with
    | [item] => return "(" ++ item ++ ",)"
    | items => return "(" ++ ", ".intercalate items ++ ")"
  | set items _ _ => do
    match ← quotedItems items with
    | [] => return "set()"
    | items => return shownEntries items
  | dict entries _ => do return shownEntries (← quotedEntries entries)
  | mapping entries _ => do return "mappingproxy(" ++ shownEntries (← quotedEntries entries) ++ ")"
  | view .keys entries _ => do return "dict_keys(" ++ shownList (← quotedKeys entries) ++ ")"
  | view .values entries _ => do return "dict_values(" ++ shownList (← quotedValues entries) ++ ")"
  | view .items entries _ => do return "dict_items(" ++ shownList (← quotedPairs entries) ++ ")"
  | generator _ => .ok "<generator>"
  | helper h => .ok ("<function " ++ helperName h ++ ">")
  | method _ name _ => .ok ("<function " ++ name ++ ">")
  | part p _ => .ok p.shown

def quotedItems : List Value → Except Mishap (List String)
  | [] => .ok []
  | v :: rest => do
    let first ← quoted v
    let rest ← quotedItems rest
    return first :: rest

def quotedEntries : List (Value × Value) → Except Mishap (List String)
  | [] => .ok []
  | (k, v) :: rest => do
    let key ← quoted k
    let value ← quoted v
    let rest ← quotedEntries rest
    return (key ++ ": " ++ value) :: rest

def quotedKeys : List (Value × Value) → Except Mishap (List String)
  | [] => .ok []
  | (k, _) :: rest => do
    let key ← quoted k
    return key :: (← quotedKeys rest)

def quotedValues : List (Value × Value) → Except Mishap (List String)
  | [] => .ok []
  | (_, v) :: rest => do
    let value ← quoted v
    return value :: (← quotedValues rest)

def quotedPairs : List (Value × Value) → Except Mishap (List String)
  | [] => .ok []
  | (k, v) :: rest => do
    let key ← quoted k
    let value ← quoted v
    return ("(" ++ key ++ ", " ++ value ++ ")") :: (← quotedPairs rest)

end

def shown : Value → Except Mishap String
  | text s _ => .ok s
  | mapping entries _ => do return shownEntries (← quotedEntries entries)
  | v => v.quoted

end Value

end AlLint.Formula
