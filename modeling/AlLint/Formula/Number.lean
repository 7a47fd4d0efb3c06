import AlLint.Decimal.Root
import AlLint.Formula.Value

/-!
# Arithmetic

Whole numbers are exact and of any size. A whole number with another number becomes one that is not exact, if it
is not too large for that. Division rounds down, and a remainder has the sign of the divisor. A truth value is
one or zero.
-/

namespace AlLint.Formula

inductive Number where
  | whole (i : Int)
  | real (f : Float)
  | complex (re im : Float)

def Value.number? : Value → Option Number
  | .bool b => some (.whole (if b then 1 else 0))
  | .int i _ => some (.whole i)
  | .float f _ => some (.real f)
  | .complex re im _ => some (.complex re im)
  | _ => Option.none

namespace Number

def value : Number → Mark → Value
  | whole i, m => .ofInt i m
  | real f, m => .float f m
  | complex re im, m => .complex re im m

def ofFraction (n d : Int) : Except Mishap Float :=
  let f := Decimal.nearest n.natAbs d.natAbs
  if f.isInf then .error .overflow else .ok (if (n < 0) != (d < 0) then -f else f)

def ofWhole (i : Int) : Except Mishap Float := ofFraction i 1

inductive Pair where
  | wholes (i j : Int)
  | reals (f g : Float)
  | complexes (re im re' im' : Float)

def pair : Number → Number → Except Mishap Pair
  | whole i, whole j => .ok (.wholes i j)
  | whole i, real g => do return .reals (← ofWhole i) g
  | real f, whole j => do return .reals f (← ofWhole j)
  | real f, real g => .ok (.reals f g)
  | complex re im, whole j => do return .complexes re im (← ofWhole j) 0
  | complex re im, real g => .ok (.complexes re im g 0)
  | whole i, complex re im => do return .complexes (← ofWhole i) 0 re im
  | real f, complex re im => .ok (.complexes f 0 re im)
  | complex re im, complex re' im' => .ok (.complexes re im re' im')

def add (a b : Number) : Except Mishap Number := do
  match ← pair a b with
  | .wholes i j => return whole (i + j)
  | .reals f g => return real (f + g)
  | .complexes re im re' im' => return complex (re + re') (im + im')

def subtract (a b : Number) : Except Mishap Number := do
  match ← pair a b with
  | .wholes i j => return whole (i - j)
  | .reals f g => return real (f - g)
  | .complexes re im re' im' => return complex (re - re') (im - im')

def multiply (a b : Number) : Except Mishap Number := do
  match ← pair a b with
  | .wholes i j => return whole (i * j)
  | .reals f g => return real (f * g)
  | .complexes re im re' im' => return complex (re * re' - im * im') (re * im' + im * re')

def divideComplex (re im re' im' : Float) : Except Mishap Number :=
  if re'.abs ≥ im'.abs then
    if re'.abs == 0 then .error .zeroDivision
    else
      let ratio := im' / re'
      let denominator := re' + im' * ratio
      .ok (complex ((re + im * ratio) / denominator) ((im - re * ratio) / denominator))
  else
    let ratio := re' / im'
    let denominator := re' * ratio + im'
    .ok (complex ((re * ratio + im) / denominator) ((im * ratio - re) / denominator))

def divide (a b : Number) : Except Mishap Number := do
  match ← pair a b with
  | .wholes i j => if j = 0 then .error .zeroDivision else return real (← ofFraction i j)
  | .reals f g => if g == 0 then .error .zeroDivision else return real (f / g)
  | .complexes re im re' im' => divideComplex re im re' im'

def remainder (f g : Float) : Float :=
  if f.isNaN || g.isNaN || f.isInf then 0.0 / 0.0
  else if g.isInf then f
  else
    let (m, q) := Decimal.magnitude f
    let (n, r) := Decimal.magnitude g
    let low := min q r
    let rest := (m <<< (q - low).toNat) % (n <<< (r - low).toNat)
    let size := rest.toUInt64.toFloat.scaleB low
    if Decimal.isNegative f then -size else size

def divideReal (f g : Float) : Float × Float :=
  let signed := fun (zero : Float) (like : Float) => if Decimal.isNegative like then -zero else zero
  let rest := remainder f g
  let quotient := (f - rest) / g
  let (quotient, rest) :=
    if rest == 0 then (quotient, signed 0.0 g)
    else if (g < 0) != (rest < 0) then (quotient - 1.0, rest + g)
    else (quotient, rest)
  if quotient == 0 then (signed 0.0 (f / g), rest)
  else
    let floor := quotient.floor
    (if quotient - floor > 0.5 then floor + 1.0 else floor, rest)

def floorDivide (a b : Number) : Except Mishap Number := do
  match ← pair a b with
  | .wholes i j => if j = 0 then .error .zeroDivision else return whole (Int.fdiv i j)
  | .reals f g => if g == 0 then .error .zeroDivision else return real (divideReal f g).1
  | .complexes .. => .error .type

def modulo (a b : Number) : Except Mishap Number := do
  match ← pair a b with
  | .wholes i j => if j = 0 then .error .zeroDivision else return whole (Int.fmod i j)
  | .reals f g => if g == 0 then .error .zeroDivision else return real (divideReal f g).2
  | .complexes .. => .error .type

def multiplyComplex (a b : Float × Float) : Float × Float := (a.1 * b.1 - a.2 * b.2, a.1 * b.2 + a.2 * b.1)

/-- The product of some numbers in a row of squares: of `square`, its square, the square of that and so on,
those that the bits of `n` name. -/
def powerBySquares (square product : Float × Float) (n : Nat) : Float × Float :=
  if n = 0 then product
  else
    powerBySquares (multiplyComplex square square)
      (if n % 2 = 1 then multiplyComplex product square else product) (n / 2)
termination_by n
decreasing_by omega

def maxFactors : Float := 100

def finiteComplex (re im : Float) : Except Mishap Number :=
  if re.isInf || im.isInf then .error .overflow else .ok (complex re im)

def powerComplex (re im re' im' : Float) : Except Mishap Number :=
  if im' == 0 && re' == re'.floor && re'.abs ≤ maxFactors then do
    let (x, y) := powerBySquares (re, im) (1, 0) re'.abs.toUInt64.toNat
    if re' > 0 then finiteComplex x y
    else
      match ← divideComplex 1 0 x y with
      | complex x y => finiteComplex x y
      | n => return n
  else if re == 0 && im == 0 then if im' != 0 || re' < 0 then .error .zeroDivision else .ok (complex 0 0)
  else
    let size := Decimal.diagonal re im
    let angle := Float.atan2 im re
    let length := if im' == 0 then size.pow re' else size.pow re' / Float.exp (angle * im')
    let phase := if im' == 0 then angle * re' else angle * re' + im' * size.log
    finiteComplex (length * phase.cos) (length * phase.sin)

/-- The power of numbers that are not exact. A root of a negative number is complex. -/
def powerReal (f g : Float) : Except Mishap Number :=
  if f == 0 && g < 0 then .error .zeroDivision
  else if f < 0 && !f.isInf && !g.isInf && !g.isNaN && g != g.floor then powerComplex f 0 g 0
  else
    let result := f.pow g
    if result.isInf && !f.isInf && !g.isInf then .error .overflow else .ok (real result)

def maxPowerBits : Nat := Nat.pow 2 33

def power (a b : Number) : Except Mishap Number := do
  match a, b with
  | whole i, whole j =>
    if j ≥ 0 then
      if i.natAbs ≤ 1 then return whole (if j = 0 then 1 else if i = -1 ∧ j % 2 = 0 then 1 else i)
      else if i.natAbs.log2 * j.toNat > maxPowerBits then .error .memory
      else return whole (Int.pow i j.toNat)
    else powerReal (← ofWhole i) (← ofWhole j)
  | _, _ =>
    match ← pair a b with
    | .wholes i j => powerReal (← ofWhole i) (← ofWhole j)
    | .reals f g => powerReal f g
    | .complexes re im re' im' => powerComplex re im re' im'

def negate : Number → Number
  | whole i => whole (-i)
  | real f => real (-f)
  | complex re im => complex (-re) (-im)

def abs : Number → Except Mishap Number
  | whole i => .ok (whole i.natAbs)
  | real f => .ok (real f.abs)
  | complex re im =>
    let size := Decimal.diagonal re im
    if size.isInf && !re.isInf && !im.isInf then .error .overflow else .ok (real size)

def compareReal (f g : Float) : Option Ordering :=
  if f < g then some .lt else if f > g then some .gt else if f == g then some .eq else none

def compareWhole (i : Int) (f : Float) : Option Ordering :=
  if f.isNaN then none
  else if f.isInf then some (if f > 0 then .lt else .gt)
  else
    let (n, d) := Decimal.toFraction f
    some (compare (i * d) n)

def compare? : Number → Number → Except Mishap (Option Ordering)
  | whole i, whole j => .ok (some (compare i j))
  | whole i, real g => .ok (compareWhole i g)
  | real f, whole j => .ok ((compareWhole j f).map Ordering.swap)
  | real f, real g => .ok (compareReal f g)
  | _, _ => .error .type

def equal : Number → Number → Bool
  | complex re im, complex re' im' => re == re' && im == im'
  | complex re im, whole j => im == 0 && compareWhole j re == some .eq
  | whole i, complex re im => im == 0 && compareWhole i re == some .eq
  | complex re im, real g => im == 0 && re == g
  | real f, complex re im => im == 0 && re == f
  | whole i, whole j => i == j
  | whole i, real g => compareWhole i g == some .eq
  | real f, whole j => compareWhole j f == some .eq
  | real f, real g => f == g

end Number

end AlLint.Formula
