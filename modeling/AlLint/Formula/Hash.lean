import AlLint.Formula.Number

/-!
# Hashes

The places of items in a set follow from numbers that are computed from them. Equal numbers have one hash,
whatever their kind: a whole number stands for its remainder by a prime, a fraction for the quotient of the
remainders. What has no fixed hash is left out: texts, for instance, are scattered anew by every run.
-/

namespace AlLint.Formula.Hash

def modulus : Nat := Nat.pow 2 61 - 1

def invalid : UInt64 := 0xFFFFFFFFFFFFFFFF

/-- A number as a word. Minus one gives way to minus two. -/
def word (i : Int) : UInt64 := UInt64.ofInt (if i = -1 then -2 else i)

def ofWhole (i : Int) : Int := if i < 0 then -Int.ofNat (i.natAbs % modulus) else Int.ofNat (i.natAbs % modulus)

/-- The hash of a number that is not exact; none for what is no number. Halving is a rotation by one of the 61
bits. -/
def ofReal? (f : Float) : Option Int :=
  if f.isNaN then none
  else if f.isInf then some (if f > 0 then 314159 else -314159)
  else
    let (mantissa, exponent) := Decimal.magnitude f
    let turns := (exponent % 61).toNat
    let size : Int := (mantissa % modulus * Nat.pow 2 turns) % modulus
    some (if Decimal.isNegative f then -size else size)

def ofNumber? : Number → Option UInt64
  | .whole i => some (word (ofWhole i))
  | .real f => (ofReal? f).map word
  | .complex re im => do
    let x ← ofReal? re
    let y ← ofReal? im
    let sum := word x + 1000003 * word y
    return if sum = invalid then word (-2) else sum

def mix (total item : UInt64) : UInt64 :=
  let sum := total + item * 14029467366897019727
  ((sum <<< 31) ||| (sum >>> 33)) * 11400714785074694791

def rowStart : UInt64 := 2870177450012600261

def ofRow (items : List UInt64) : UInt64 :=
  let total := items.foldl mix rowStart + (UInt64.ofNat items.length ^^^ (rowStart ^^^ 3527539))
  if total = invalid then 1546275796 else total

def ofSpan (s : Span) : UInt64 :=
  ofRow ([s.line, s.column, s.endLine, s.endColumn].map fun n : Nat => word (ofWhole n))

end Hash

namespace Value

mutual

def hash? : Value → Option UInt64
  | text s _ => if s.isEmpty then some 0 else Option.none
  | bytes bs _ => if bs.isEmpty then some 0 else Option.none
  | tuple items _ => (hashes? items).map Hash.ofRow
  | part (.span s) _ => some (Hash.ofSpan s)
  | v => v.number?.bind Hash.ofNumber?

def hashes? : List Value → Option (List UInt64)
  | [] => some []
  | v :: rest => do
    let h ← hash? v
    let hs ← hashes? rest
    return h :: hs

end

end Value

end AlLint.Formula
