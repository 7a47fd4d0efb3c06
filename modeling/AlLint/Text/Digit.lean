import AlLint.Text.Ranges

/-!
# Digits

Three nested classes (Unicode 14): decimal digits, which come in runs of ten and have a value; digit
forms, which add the superscript and circled ones; and numerics, which add fractions, letter
numbers and the number ideographs.
-/

namespace AlLint.Text

/-- The zeros: each starts a run of ten decimal digits in order of value. -/
def decimalZeros : List Nat := [
  48, 1632, 1776, 1984, 2406, 2534, 2662, 2790, 2918, 3046, 3174, 3302, 3430, 3558, 3664, 3792,
  3872, 4160, 4240, 6112, 6160, 6470, 6608, 6784, 6800, 6992, 7088, 7232, 7248, 42528, 43216,
  43264, 43472, 43504, 43600, 44016, 65296, 66720, 68912, 69734, 69872, 69942, 70096, 70384,
  70736, 70864, 71248, 71360, 71472, 71904, 72016, 72784, 73040, 73120, 92768, 92864, 93008,
  120782, 120792, 120802, 120812, 120822, 123200, 123632, 125264, 130032]

def digitFormRanges : Ranges := .ofGaps 0 [
  48, 9, 121, 1, 6, 0, 1447, 9, 135, 9, 199, 9, 413, 9, 119, 9, 119, 9, 119, 9, 119, 9, 119, 9, 119, 9, 119, 9,
  119, 9, 119, 9, 97, 9, 119, 9, 71, 9, 279, 9, 71, 9, 720, 8, 1135, 9, 39, 9, 301, 9, 129, 10, 166, 9, 7, 9,
  183, 9, 87, 9, 135, 9, 7, 9, 1047, 0, 4, 5, 7, 9, 983, 8, 12, 8, 12, 8, 90, 0, 11, 8, 2, 0, 631, 8, 2, 8, 2,
  8, 32398, 9, 679, 9, 39, 9, 199, 9, 23, 9, 87, 9, 407, 9, 21271, 9, 1415, 9, 1431, 3, 749, 9, 295, 8, 490, 8,
  12, 9, 129, 9, 61, 9, 145, 9, 279, 9, 343, 9, 119, 9, 375, 9, 103, 9, 103, 9, 423, 9, 103, 9, 759, 9, 247, 9,
  71, 9, 19639, 9, 87, 9, 135, 9, 27765, 49, 2369, 9, 423, 9, 1623, 9, 1959, 10, 2790, 9]

def numericRanges : Ranges := .ofGaps 0 [
  48, 9, 121, 1, 6, 0, 3, 2, 1442, 9, 135, 9, 199, 9, 413, 9, 119, 9, 5, 5, 109, 9, 119, 9, 119, 9, 3, 5, 111,
  12, 116, 9, 9, 6, 104, 9, 105, 6, 8, 18, 110, 9, 97, 9, 119, 9, 71, 19, 269, 9, 71, 9, 720, 19, 882, 2, 240,
  9, 7, 9, 23, 9, 301, 9, 129, 10, 166, 9, 7, 9, 183, 9, 87, 9, 135, 9, 7, 9, 1047, 0, 4, 5, 7, 9, 199, 50, 3,
  4, 727, 59, 79, 21, 631, 29, 1386, 0, 778, 0, 26, 8, 15, 2, 344, 3, 139, 9, 31, 7, 2, 14, 33, 9, 40, 14, 326,
  0, 126, 0, 935, 0, 803, 0, 4787, 0, 3, 0, 4, 0, 2, 0, 84, 0, 47, 0, 8, 0, 2, 0, 41, 1, 31, 0, 9, 0, 37, 0, 99,
  0, 404, 0, 66, 0, 35, 0, 2, 0, 2, 0, 468, 0, 2, 2, 7, 0, 117, 3, 791, 0, 534, 0, 8, 0, 1409, 0, 132, 1, 13, 2,
  2, 0, 1006, 0, 78, 0, 1158, 0, 1844, 0, 1168, 0, 744, 0, 2568, 0, 934, 0, 2178, 0, 5, 0, 125, 0, 2289, 0, 37,
  0, 6, 0, 44, 0, 126, 0, 3882, 9, 189, 9, 321, 5, 155, 9, 39, 9, 199, 9, 23, 9, 87, 9, 407, 9, 19826, 0, 8, 0,
  5, 0, 58, 0, 31, 0, 2, 0, 42, 0, 1299, 9, 494, 44, 13, 56, 18, 1, 342, 26, 37, 3, 30, 0, 9, 0, 135, 4, 203, 9,
  943, 7, 26, 6, 40, 8, 76, 4, 23, 5, 161, 1, 3, 15, 3, 45, 65, 8, 53, 1, 31, 2, 76, 4, 105, 7, 25, 7, 42, 6,
  331, 5, 49, 9, 295, 30, 159, 9, 43, 3, 113, 6, 135, 29, 129, 9, 61, 9, 145, 9, 8, 19, 252, 9, 343, 9, 119, 9,
  375, 9, 103, 9, 103, 11, 421, 18, 94, 9, 759, 28, 228, 9, 71, 9, 535, 20, 1068, 110, 17906, 9, 87, 9, 135, 9,
  2, 6, 799, 22, 25674, 19, 109, 24, 1110, 49, 2369, 9, 423, 9, 1486, 8, 129, 9, 792, 58, 2, 2, 2, 3, 77, 44, 2,
  14, 963, 12, 2788, 9, 1032, 0, 99, 0, 126, 0, 63, 0, 2057, 0, 89, 0, 9, 0, 16, 0, 334, 0, 19, 0, 28, 0, 6263,
  0, 1544, 0, 4483, 0, 10066, 0, 38435, 0]

/-- The value of the decimal digit with code point `n`, searched in a list of zeros. -/
def digitValueIn (n : Nat) : List Nat → Option Nat
  | [] => none
  | first :: rest =>
    if n < first then none else if n < first + 10 then some (n - first) else digitValueIn n rest

def digitValue? (c : Char) : Option Nat := digitValueIn c.toNat decimalZeros

def isDecimal (c : Char) : Bool := (digitValue? c).isSome

def isDigitForm (c : Char) : Bool := digitFormRanges.mem c.toNat

def isNumeric (c : Char) : Bool := numericRanges.mem c.toNat

/-- The number that a list of decimal digits writes, in base ten; other characters count as zero. -/
def decimalNumber (cs : List Char) : Nat :=
  cs.foldl (fun n c => 10 * n + (digitValue? c).getD 0) 0

end AlLint.Text
