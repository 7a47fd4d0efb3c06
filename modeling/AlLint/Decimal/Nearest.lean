import AlLint.Decimal.Shortest

/-!
# The number nearest to a fraction

Numbers with a fraction are read from digits, and a quotient of whole numbers is one too. Both are exact fractions
that are rounded once: to the nearest number, and to the even one of two.
-/

namespace AlLint.Decimal

def roundHalfEven (n d : Nat) : Nat :=
  let q := n / d
  let twice := 2 * (n % d)
  if twice < d then q else if twice > d then q + 1 else q + q % 2

/-- The number nearest to the fraction `n / d`. The quotient is cut to more bits than a number has, and its last
bit is set if the cut dropped anything, so that the one rounding that follows is right. -/
def nearest (n d : Nat) : Float :=
  let shift : Int := Int.ofNat n.log2 - Int.ofNat d.log2 - 62
  if n = 0 then 0.0
  else if shift ≤ -1084 then (roundHalfEven (n <<< 1074) d).toUInt64.toFloat.scaleB (-1074)
  else
    let top := n <<< (-shift).toNat
    let bottom := d <<< shift.toNat
    let q := top / bottom
    (if top % bottom = 0 then q else q ||| 1).toUInt64.toFloat.scaleB shift

def infinity : Float := 1.0 / 0.0

def ofScale (mantissa : Nat) (scale : Int) : Float :=
  let point := (Nat.toDigits 10 mantissa).length + scale
  if mantissa = 0 || point < -330 then 0.0
  else if point > 310 then infinity
  else if scale < 0 then nearest mantissa (Nat.pow 10 (-scale).toNat)
  else nearest (mantissa * Nat.pow 10 scale.toNat) 1

/-- The magnitude of a finite number as the fraction that it is: `mantissa * 2 ^ exponent`. -/
def magnitude (f : Float) : Nat × Int :=
  let (_, exponent, fraction) := fields f
  let b := Binary.ofFields exponent fraction
  (b.mantissa, b.exponent)

def isNegative (f : Float) : Bool := (fields f).1

def toFraction (f : Float) : Int × Nat :=
  let (mantissa, exponent) := magnitude f
  let n : Int := if isNegative f then -mantissa else mantissa
  if exponent < 0 then (n, Nat.pow 2 (-exponent).toNat) else (n * Nat.pow 2 exponent.toNat, 1)

end AlLint.Decimal
