import AlLint.Decimal.Shortest

/-!
# Numbers with a fraction as text

Numbers are written with the fewest digits that read back: positionally from a ten-thousandth up to below ten to
the sixteenth, with a point in any case, and otherwise with an exponent of two digits at least.
-/

namespace AlLint.Decimal

def zeros (n : Nat) : List Char := List.replicate n '0'

def Digits.positional (d : Digits) : List Char :=
  if d.point ≤ 0 then '0' :: '.' :: zeros (-d.point).toNat ++ d.digits
  else
    let whole := d.digits.take d.point.toNat
    let fraction := d.digits.drop d.point.toNat
    whole ++ zeros (d.point.toNat - whole.length) ++ '.' :: (if fraction.isEmpty then ['0'] else fraction)

def Digits.scientific (d : Digits) : List Char :=
  let exponent := d.point - 1
  let size := Nat.toDigits 10 exponent.natAbs
  let mark := if exponent < 0 then '-' else '+'
  let fraction := if d.digits.length ≤ 1 then [] else '.' :: d.digits.tail
  d.digits.take 1 ++ fraction ++ 'e' :: mark :: zeros (2 - size.length) ++ size

def Digits.text (d : Digits) : List Char :=
  if -4 < d.point ∧ d.point ≤ 16 then d.positional else d.scientific

def text (f : Float) : String :=
  let (negative, exponent, fraction) := fields f
  let sign := if negative then ['-'] else []
  if exponent = 2047 then if fraction = 0 then String.ofList (sign ++ "inf".toList) else "nan"
  else if exponent = 0 ∧ fraction = 0 then String.ofList (sign ++ "0.0".toList)
  else String.ofList (sign ++ (Binary.ofFields exponent fraction).shortest.text)

end AlLint.Decimal
