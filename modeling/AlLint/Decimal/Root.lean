import AlLint.Decimal.Nearest

/-!
# Square roots

The rounded down root of a whole number, and the length of the diagonal of a rectangle, which is the root of an
exact sum of squares and rounded once.
-/

namespace AlLint.Decimal

/-- The rounded down square root: that of a quarter, doubled, and one more if that is not too much. -/
def sqrt (n : Nat) : Nat :=
  if n = 0 then 0
  else
    let r := 2 * sqrt (n / 4)
    if (r + 1) * (r + 1) ≤ n then r + 1 else r
termination_by n
decreasing_by omega

/-- The number nearest to the length of a diagonal. The root is taken of a number with enough bits, and its last
bit is set if it is not exact, so that the one rounding that follows is right. -/
def diagonal (f g : Float) : Float :=
  if f.isInf || g.isInf then infinity
  else if f.isNaN || g.isNaN then 0.0 / 0.0
  else
    let (m, q) := magnitude f
    let (n, r) := magnitude g
    let low := min q r
    let m := m <<< (q - low).toNat
    let n := n <<< (r - low).toNat
    let square := (m * m + n * n) <<< 128
    let root := sqrt square
    let top := 2 * root + (if root * root = square then 0 else 1)
    let exponent := low - 65
    if exponent < 0 then nearest top (Nat.pow 2 (-exponent).toNat)
    else nearest (top * Nat.pow 2 exponent.toNat) 1

end AlLint.Decimal
