import AlLint.Text.Digit
import AlLint.Text.Letter

/-!
# Names

A name starts with a letter, a number that is written as a letter, or an underscore, and goes on with these,
with digits, with marks that combine with a letter, and with characters that connect words (Unicode 14). A few
letters that would not stay letters in their normal form are left out.
-/

namespace AlLint.Text

def nameStartRanges : Ranges := .ofGaps 0 [
  95, 0, 5775, 2, 405, 1, 2194, 0, 22, 0, 50, 34, 3, 3, 3711, 0, 26, 8, 15, 2, 30380, 9, 23121, 52, 461, 0, 9,
  0, 135, 4, 8235, 110]

def unnamedRanges : Ranges := .ofGaps 0 [
  890, 0, 10933, 0, 52783, 5, 407, 1, 117, 0, 2, 0, 2, 0, 2, 0, 2, 0, 2, 0, 2, 0, 2, 0]

def innerLetterRanges : Ranges := [(0xE33, 0xE33), (0xEB3, 0xEB3), (0xFF9E, 0xFF9F)]

def nameInnerRanges : Ranges := .ofGaps 0 [
  183, 0, 720, 0, 4066, 8, 1641, 0, 1637, 1, 20, 0, 56799, 1, 25, 2, 240, 0]

def markRanges : Ranges := .ofGaps 0 [
  768, 111, 276, 4, 266, 44, 2, 0, 2, 1, 2, 1, 2, 0, 73, 10, 49, 20, 17, 0, 102, 6, 3, 5, 3, 1, 2, 3, 36, 0, 31,
  26, 92, 10, 59, 8, 10, 0, 25, 3, 2, 8, 2, 2, 2, 4, 44, 2, 61, 7, 43, 23, 2, 32, 55, 2, 2, 17, 2, 6, 11, 1, 30,
  2, 57, 0, 2, 6, 3, 1, 3, 2, 10, 0, 11, 1, 27, 0, 3, 2, 57, 0, 2, 4, 5, 1, 3, 2, 4, 0, 31, 1, 4, 0, 12, 2, 57,
  0, 2, 7, 2, 2, 2, 2, 21, 1, 23, 5, 2, 2, 57, 0, 2, 6, 3, 1, 3, 2, 8, 2, 11, 1, 31, 0, 60, 4, 4, 2, 2, 3, 10,
  0, 41, 4, 56, 0, 2, 6, 2, 2, 2, 3, 8, 1, 12, 1, 30, 2, 57, 0, 2, 6, 2, 2, 2, 3, 8, 1, 12, 1, 29, 3, 56, 1, 2,
  6, 2, 2, 2, 3, 10, 0, 11, 1, 30, 2, 71, 0, 5, 5, 2, 0, 2, 7, 19, 1, 62, 0, 3, 6, 13, 7, 99, 0, 3, 8, 12, 5,
  75, 1, 28, 0, 2, 0, 2, 0, 5, 1, 50, 19, 2, 1, 6, 10, 2, 35, 10, 0, 101, 19, 24, 3, 5, 2, 2, 2, 3, 6, 4, 3, 14,
  11, 2, 0, 11, 3, 704, 2, 947, 3, 29, 2, 30, 1, 31, 1, 65, 31, 10, 0, 46, 2, 2, 0, 118, 1, 35, 0, 119, 11, 5,
  11, 220, 4, 58, 9, 2, 28, 3, 0, 49, 13, 2, 15, 50, 4, 48, 16, 39, 8, 13, 2, 31, 12, 57, 13, 49, 19, 153, 2, 2,
  20, 5, 0, 7, 0, 3, 2, 199, 63, 721, 12, 5, 0, 4, 11, 3071, 2, 142, 0, 97, 31, 555, 5, 106, 1, 30165, 0, 5, 9,
  33, 1, 81, 1, 273, 0, 4, 0, 5, 0, 24, 4, 5, 0, 84, 1, 51, 17, 27, 17, 14, 0, 39, 7, 26, 12, 45, 3, 48, 13, 37,
  0, 68, 13, 13, 0, 9, 1, 46, 2, 51, 0, 2, 2, 3, 1, 6, 1, 2, 0, 42, 4, 6, 1, 237, 7, 2, 1, 20273, 0, 738, 15,
  17, 15, 974, 0, 227, 0, 150, 4, 1671, 2, 2, 1, 6, 3, 41, 2, 5, 0, 166, 1, 574, 3, 388, 1, 154, 10, 50, 3, 123,
  2, 54, 14, 42, 0, 3, 1, 11, 3, 46, 10, 8, 0, 62, 2, 37, 13, 17, 1, 45, 0, 13, 2, 49, 13, 9, 3, 2, 1, 93, 11,
  7, 0, 161, 11, 22, 3, 56, 1, 2, 6, 3, 1, 3, 2, 10, 0, 11, 1, 3, 6, 4, 4, 193, 17, 24, 0, 82, 19, 236, 6, 3, 8,
  28, 1, 83, 16, 107, 12, 102, 14, 257, 14, 246, 5, 2, 1, 3, 3, 2, 0, 2, 1, 142, 6, 3, 6, 4, 0, 29, 9, 41, 6, 2,
  3, 9, 0, 10, 10, 47, 15, 406, 7, 2, 7, 83, 21, 2, 13, 123, 5, 4, 0, 2, 1, 2, 6, 2, 0, 67, 4, 2, 1, 2, 4, 348,
  3, 19450, 4, 60, 6, 1049, 0, 2, 54, 8, 3, 82, 0, 12, 1, 19628, 1, 4706, 45, 3, 22, 543, 4, 4, 5, 9, 7, 3, 6,
  31, 3, 149, 2, 1980, 54, 5, 49, 9, 0, 15, 0, 23, 4, 2, 14, 1361, 6, 2, 16, 3, 6, 2, 1, 2, 4, 262, 6, 376, 0,
  62, 3, 1505, 6, 110, 6, 792502, 239]

def startsName (c : Char) : Bool :=
  nameStartRanges.mem c.toNat || (isLetter c && !unnamedRanges.mem c.toNat && !innerLetterRanges.mem c.toNat)

def continuesName (c : Char) : Bool :=
  startsName c || isDecimal c || innerLetterRanges.mem c.toNat || nameInnerRanges.mem c.toNat ||
    markRanges.mem c.toNat

def isName : List Char → Bool
  | [] => false
  | c :: cs => startsName c && cs.all continuesName

end AlLint.Text
