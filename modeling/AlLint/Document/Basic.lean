import AlLint.Decimal.Text
import AlLint.Document.Moment
import AlLint.Source.Numeral
import AlLint.Text.Quoted

/-!
# Documents

The values that configuration files, rule files and the arguments of messages are made of, and how messages show
them.
-/

namespace AlLint

inductive Document where
  | null
  | bool (b : Bool)
  | int (i : Int)
  | float (f : Float)
  | text (s : String)
  | moment (m : Moment)
  | bytes (bs : List UInt8)
  | list (items : List Document)
  | tuple (items : List Document)
  | set (items : List Document)
  | map (entries : List (Document × Document))
deriving Inhabited

namespace Document

def typeName : Document → String
  | null => "NoneType"
  | bool _ => "bool"
  | int _ => "int"
  | float _ => "float"
  | text _ => "str"
  | moment m => m.typeName
  | bytes _ => "bytes"
  | list _ => "list"
  | tuple _ => "tuple"
  | set _ => "set"
  | map _ => "dict"

mutual

/-- A value as it stands inside another one: texts are quoted. -/
def quoted : Document → String
  | null => "None"
  | bool b => if b then "True" else "False"
  | int i => toString i
  | float f => Decimal.text f
  | text s => Text.quoted s
  | moment m => m.quoted
  | bytes bs => Text.quotedBytes bs
  | list items => "[" ++ quotedItems items ++ "]"
  | tuple items => "(" ++ quotedItems items ++ if items.length = 1 then ",)" else ")"
  | set items => if items.isEmpty then "set()" else "\x7b" ++ quotedItems items ++ "\x7d"
  | map entries => "\x7b" ++ quotedEntries entries ++ "\x7d"

def quotedItems : List Document → String
  | [] => ""
  | [d] => quoted d
  | d :: rest => quoted d ++ ", " ++ quotedItems rest

def quotedEntries : List (Document × Document) → String
  | [] => ""
  | [(k, v)] => quoted k ++ ": " ++ quoted v
  | (k, v) :: rest => quoted k ++ ": " ++ quoted v ++ ", " ++ quotedEntries rest

end

/-- A value as a message shows it: a text stands for itself. -/
def shown : Document → String
  | text s => s
  | moment m => m.shown
  | d => d.quoted

mutual

/-- Whether a value can be written: no whole number in it has more digits than a numeral may have. -/
def isWritable : Document → Bool
  | int i => (Nat.toDigits 10 i.natAbs).length ≤ maxDigits
  | list items | tuple items | set items => areWritable items
  | map entries => entriesWritable entries
  | _ => true

def areWritable : List Document → Bool
  | [] => true
  | d :: rest => d.isWritable && areWritable rest

def entriesWritable : List (Document × Document) → Bool
  | [] => true
  | (k, v) :: rest => k.isWritable && v.isWritable && entriesWritable rest

end

mutual

/-- The type of the first part of a value that can be changed. A tuple cannot, but what it holds may. -/
def changeable? : Document → Option String
  | list _ => some "list"
  | set _ => some "set"
  | map _ => some "dict"
  | tuple items => firstChangeable? items
  | _ => none

def firstChangeable? : List Document → Option String
  | [] => none
  | d :: rest => d.changeable? <|> firstChangeable? rest

end

def shownOr {ε : Type} (e : ε) (d : Document) : Except ε String := if d.isWritable then .ok d.shown else .error e

def asNumber? : Document → Option (Int ⊕ Float)
  | bool b => some (.inl (if b then 1 else 0))
  | int i => some (.inl i)
  | float f => some (.inr f)
  | _ => none

/-- Whether two scalars are the same key of a mapping. Numbers are compared by value, and a truth value is a
number. -/
def sameKey (a b : Document) : Bool :=
  match a.asNumber?, b.asNumber? with
  | some (.inl i), some (.inl j) => i == j
  | some (.inr f), some (.inr g) => f == g
  | some (.inl i), some (.inr f) => Float.ofInt i == f
  | some (.inr f), some (.inl i) => Float.ofInt i == f
  | none, none =>
    match a, b with
    | null, null => true
    | text s, text t => s == t
    | bytes bs, bytes cs => bs == cs
    | moment m, moment n => m.same n
    | _, _ => false
  | _, _ => false

def get? (entries : List (Document × Document)) (key : String) : Option Document :=
  (entries.find? fun e => e.1.sameKey (text key)).map Prod.snd

def insertKey : List (Document × Document) → Document → Document → List (Document × Document)
  | [], key, value => [(key, value)]
  | (k, v) :: rest, key, value =>
    if k.sameKey key then (k, value) :: rest else (k, v) :: insertKey rest key value

end Document

end AlLint
