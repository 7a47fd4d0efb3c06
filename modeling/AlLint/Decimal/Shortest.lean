/-!
# The fewest digits that read back

A positive finite number is `mantissa * 2 ^ exponent`. Every decimal between the two midpoints to its neighbours
reads back as the number, the midpoints included if the mantissa is even. Of these decimals the one with the
fewest digits is written, and of several such the one nearest to the number, a tie going to the even digit.
-/

namespace AlLint.Decimal

/-- A positive finite number. `lowest` says that the next smaller number is only half as far as the next larger
one. -/
structure Binary where
  mantissa : Nat
  exponent : Int
  lowest : Bool

def fields (f : Float) : Bool × Nat × Nat :=
  let bits := f.toBits.toNat
  (bits / Nat.pow 2 63 = 1, bits / Nat.pow 2 52 % Nat.pow 2 11, bits % Nat.pow 2 52)

def Binary.ofFields (exponent fraction : Nat) : Binary :=
  if exponent = 0 then ⟨fraction, -1074, false⟩
  else ⟨Nat.pow 2 52 + fraction, exponent - 1075, fraction = 0 && exponent > 1⟩

/-- A decimal: digits, and how many of them stand before the point. There may be fewer digits than that, and the
number may be negative. -/
structure Digits where
  digits : List Char
  point : Int

def significant (n : Nat) : List Char :=
  ((Nat.toDigits 10 n).reverse.dropWhile (· == '0')).reverse

/-- The decimal of `count` digits that reads back as the number `value / scale`, which lies between
`10 ^ (point - 1)` and `10 ^ point`; none if there is no such decimal. The decimals that read back are those
from `low / scale` to `high / scale`, the ends included if `closed`. -/
def onGrid? (value low high scale : Nat) (closed : Bool) (point : Int) (count : Nat) : Option Digits :=
  -- one step of the grid is `10 ^ (point - count)`
  let shift := point - count
  let (up, down) := if shift ≥ 0 then (1, Nat.pow 10 shift.toNat) else (Nat.pow 10 (-shift).toNat, 1)
  let step := scale * down
  let inside (n : Nat) : Bool :=
    if closed then low * up ≤ n * step && n * step ≤ high * up
    else low * up < n * step && n * step < high * up
  let n := value * up / step
  let far := value * up - n * step
  let chosen :=
    match inside n, inside (n + 1) with
    | false, false => none
    | true, false => some n
    | false, true => some (n + 1)
    | true, true =>
      if 2 * far < step then some n
      else if 2 * far > step then some (n + 1)
      else some (if n % 2 = 0 then n else n + 1)
  chosen.map fun n => ⟨significant n, point + ((Nat.toDigits 10 n).length - count : Int)⟩

/-- The first result over `count`, `count + 1`, … of at most `fuel` counts. -/
def firstFrom (f : Nat → Option Digits) (count : Nat) : Nat → Option Digits
  | 0 => none
  | fuel + 1 => (f count).or (firstFrom f (count + 1) fuel)

/-- The shortest decimal that reads back as a number. Seventeen digits are always enough. -/
def Binary.shortest (b : Binary) : Digits :=
  -- the number and the midpoints in quarters of the last bit
  let value := 4 * b.mantissa
  let low := value - (if b.lowest then 1 else 2)
  let high := value + 2
  let shift := b.exponent - 2
  let (up, scale) := if shift ≥ 0 then (Nat.pow 2 shift.toNat, 1) else (1, Nat.pow 2 (-shift).toNat)
  let point : Int := (Nat.toDigits 10 (value * up * Nat.pow 10 400 / scale)).length - 400
  let found := firstFrom (onGrid? (value * up) (low * up) (high * up) scale (b.mantissa % 2 = 0) point) 1 17
  found.getD ⟨['0'], 1⟩

end AlLint.Decimal
