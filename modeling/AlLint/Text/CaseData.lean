import AlLint.Text.Ranges

/-!
# Letter case, the data

What characters become when their case is changed, and which of those that stay as they are have a case
(Unicode 14, full mappings). Runs of code points that shift by one amount are written as one entry; a step
of two is for scripts that alternate capital and small letters.
-/

namespace AlLint.Text

/-- Capitals that have no small letters, such as those of formulas. -/
def capitalRanges : Ranges := .ofGaps 0 [
  304, 0, 674, 2, 7470, 0, 5, 0, 4, 2, 3, 2, 3, 0, 4, 4, 7, 0, 4, 0, 4, 1, 3, 1, 2, 0, 11, 1, 6, 0,
  111291, 25, 27, 25, 27, 25, 27, 0, 2, 1, 3, 0, 3, 1, 3, 3, 2, 7, 27, 25, 27, 1, 2, 3, 3, 7, 2, 6, 28,
  1, 2, 3, 2, 4, 2, 0, 4, 6, 28, 25, 27, 25, 27, 25, 27, 25, 27, 25, 27, 25, 31, 24, 34, 24, 34, 24, 34,
  24, 34, 24, 34, 0, 6502, 25, 7, 25, 7, 25]

/-- Small letters that have no capitals. -/
def smallRanges : Ranges := .ofGaps 0 [
  170, 0, 16, 0, 126, 0, 85, 0, 14, 0, 15, 1, 15, 0, 4, 0, 99, 0, 19, 5, 28, 0, 3, 0, 2, 0, 3, 2, 3, 0,
  2, 0, 3, 0, 6, 1, 2, 0, 3, 1, 2, 6, 2, 1, 2, 0, 3, 2, 7, 4, 2, 0, 2, 7, 3, 25, 8, 1, 31, 4, 150, 0,
  130, 0, 356, 0, 40, 0, 6008, 120, 2, 2, 2, 15, 2, 48, 221, 1, 2, 0, 466, 0, 14, 0, 17, 12, 110, 0, 4,
  1, 4, 0, 28, 0, 5, 0, 5, 0, 3, 1, 9, 3, 2856, 0, 3, 0, 3, 6, 103, 0, 31160, 1, 147, 1, 63, 8, 22, 0,
  7, 0, 26, 0, 36, 0, 2, 0, 35, 2, 822, 34, 2, 6, 2, 12, 23576, 0, 3, 2, 2, 41, 2, 8, 52320, 25, 27, 6,
  2, 17, 27, 25, 27, 3, 2, 0, 2, 6, 2, 10, 27, 25, 27, 25, 27, 25, 27, 25, 27, 25, 27, 25, 27, 25, 27,
  25, 27, 27, 29, 24, 2, 5, 27, 24, 2, 5, 27, 24, 2, 5, 27, 24, 2, 5, 27, 24, 2, 5, 2, 0, 1845, 9, 2, 19]

/-- Title-case code points: digraphs with a capital first part. -/
def titleRanges : Ranges := .ofGaps 0 [
  453, 0, 3, 0, 3, 0, 39, 0, 7574, 7, 9, 7, 9, 7, 13, 0, 16, 0, 48, 0]

/-- Code points that do not separate a letter from the letters around it, such as accents. -/
def caseIgnorableRanges : Ranges := .ofGaps 0 [
  39, 0, 7, 0, 12, 0, 36, 0, 2, 0, 72, 0, 5, 0, 2, 0, 5, 0, 3, 1, 504, 191, 5, 1, 5, 0, 10, 1, 2, 0, 252, 6,
  208, 0, 6, 0, 50, 44, 2, 0, 2, 1, 2, 1, 2, 0, 45, 0, 12, 5, 11, 10, 2, 0, 36, 0, 11, 20, 17, 0, 102, 7, 2,
  9, 2, 3, 34, 0, 2, 0, 31, 26, 92, 10, 59, 10, 5, 0, 3, 0, 25, 23, 44, 2, 45, 0, 8, 1, 7, 7, 42, 57, 56, 0,
  2, 0, 5, 7, 5, 0, 4, 6, 11, 1, 14, 0, 16, 0, 59, 0, 5, 3, 9, 0, 21, 1, 27, 0, 3, 1, 58, 0, 5, 1, 5, 1, 3,
  2, 4, 0, 31, 1, 4, 0, 12, 1, 58, 0, 5, 4, 2, 1, 5, 0, 21, 1, 23, 5, 2, 0, 59, 0, 3, 0, 2, 3, 9, 0, 8, 1,
  12, 1, 31, 0, 62, 0, 13, 0, 51, 0, 4, 0, 56, 0, 2, 2, 6, 2, 2, 3, 8, 1, 12, 1, 30, 0, 59, 0, 3, 0, 7, 0,
  6, 1, 21, 1, 29, 1, 58, 1, 5, 3, 9, 0, 21, 1, 30, 0, 73, 0, 8, 2, 2, 0, 91, 0, 3, 6, 12, 8, 99, 0, 3, 8,
  10, 0, 2, 5, 75, 1, 28, 0, 2, 0, 2, 0, 56, 13, 2, 4, 2, 1, 6, 10, 2, 35, 10, 0, 103, 3, 2, 5, 2, 1, 3, 1,
  26, 1, 5, 2, 17, 3, 14, 0, 3, 1, 7, 0, 16, 0, 95, 0, 609, 2, 947, 2, 30, 1, 31, 1, 31, 1, 65, 1, 2, 6, 9,
  0, 3, 10, 4, 0, 6, 0, 46, 4, 52, 0, 66, 1, 35, 0, 119, 2, 5, 1, 10, 0, 7, 2, 220, 1, 3, 0, 59, 0, 2, 6, 2,
  0, 2, 0, 3, 7, 7, 9, 3, 0, 40, 0, 9, 30, 50, 3, 49, 0, 2, 4, 2, 0, 6, 0, 41, 8, 13, 1, 33, 3, 3, 1, 2, 2,
  57, 0, 2, 1, 4, 0, 2, 2, 59, 7, 3, 1, 65, 5, 83, 2, 2, 12, 2, 6, 5, 0, 7, 0, 4, 1, 51, 62, 14, 0, 35, 100,
  446, 0, 2, 2, 12, 2, 14, 2, 14, 2, 14, 1, 13, 4, 9, 1, 11, 0, 3, 0, 3, 4, 50, 4, 2, 9, 2, 0, 14, 0, 17,
  12, 52, 32, 2956, 1, 114, 2, 126, 0, 16, 0, 97, 31, 48, 0, 470, 0, 37, 3, 4, 4, 6, 0, 94, 5, 94, 2, 28439,
  0, 1251, 5, 271, 0, 99, 3, 2, 9, 2, 0, 29, 3, 81, 1, 15, 33, 79, 0, 24, 2, 104, 2, 4, 1, 9, 0, 4, 0, 5, 0,
  26, 1, 6, 0, 152, 1, 27, 17, 14, 0, 39, 7, 26, 10, 47, 2, 49, 0, 3, 3, 3, 1, 18, 0, 22, 1, 67, 5, 3, 1, 3,
  1, 13, 0, 9, 0, 36, 0, 12, 0, 52, 0, 2, 2, 3, 1, 6, 1, 2, 0, 28, 0, 15, 1, 6, 1, 2, 0, 101, 4, 10, 2, 122,
  0, 3, 0, 5, 0, 20273, 0, 148, 16, 574, 15, 4, 0, 13, 15, 35, 0, 3, 0, 170, 0, 8, 0, 7, 0, 12, 0, 36, 0, 2,
  0, 48, 0, 46, 1, 68, 0, 22, 2, 514, 0, 227, 0, 150, 4, 1030, 5, 2, 41, 2, 8, 583, 2, 2, 1, 6, 3, 41, 2, 5,
  0, 166, 1, 574, 3, 388, 1, 154, 10, 50, 3, 124, 0, 55, 14, 42, 0, 3, 1, 11, 2, 50, 3, 3, 1, 3, 0, 5, 0,
  11, 0, 51, 2, 37, 4, 2, 7, 63, 0, 13, 1, 53, 8, 11, 3, 3, 0, 96, 2, 3, 0, 2, 1, 7, 0, 161, 0, 4, 7, 22, 1,
  58, 1, 4, 0, 38, 6, 4, 4, 196, 7, 3, 2, 2, 0, 24, 0, 85, 5, 2, 0, 5, 1, 2, 1, 239, 3, 7, 1, 2, 1, 28, 1,
  86, 7, 3, 0, 2, 1, 107, 0, 2, 0, 3, 5, 2, 0, 102, 2, 3, 3, 2, 4, 260, 8, 2, 1, 257, 1, 2, 0, 5, 0, 145, 3,
  3, 1, 5, 0, 33, 9, 41, 5, 3, 3, 9, 0, 10, 5, 3, 2, 47, 12, 2, 1, 407, 6, 2, 5, 2, 0, 83, 21, 3, 6, 2, 1,
  2, 1, 123, 5, 4, 0, 2, 1, 2, 6, 2, 0, 73, 1, 4, 0, 2, 0, 348, 1, 5436, 8, 14008, 4, 60, 6, 10, 3, 1036, 0,
  64, 16, 65, 1, 2, 1, 16396, 3, 2, 6, 2, 1, 3231, 1, 2, 3, 4701, 45, 3, 22, 545, 2, 10, 15, 3, 6, 31, 3,
  149, 2, 1980, 54, 5, 49, 9, 0, 15, 0, 23, 4, 2, 14, 1361, 6, 2, 16, 3, 6, 2, 1, 2, 4, 262, 13, 369, 0, 62,
  3, 1505, 6, 110, 7, 2736, 4, 789506, 0, 31, 95, 129, 239]

def lowerShifts : List Shift := Shift.ofSteps 0 [
  65, 25, 1, 97, 127, 22, 1, 224, 24, 6, 1, 248, 40, 46, 2, 257, 50, 4, 2, 307, 7, 14, 2, 314, 17, 44, 2, 331,
  46, 0, 1, 255, 1, 4, 2, 378, 8, 0, 1, 595, 1, 2, 2, 387, 4, 0, 1, 596, 1, 0, 1, 392, 2, 1, 1, 598, 2, 0, 1,
  396, 3, 0, 1, 477, 1, 0, 1, 601, 1, 0, 1, 603, 1, 0, 1, 402, 2, 0, 1, 608, 1, 0, 1, 611, 2, 0, 1, 617, 1, 0,
  1, 616, 1, 0, 1, 409, 4, 0, 1, 623, 1, 0, 1, 626, 2, 0, 1, 629, 1, 4, 2, 417, 6, 0, 1, 640, 1, 0, 1, 424, 2,
  0, 1, 643, 3, 0, 1, 429, 2, 0, 1, 648, 1, 0, 1, 432, 2, 1, 1, 650, 2, 2, 2, 436, 4, 0, 1, 658, 1, 0, 1, 441,
  4, 0, 1, 445, 8, 0, 1, 454, 1, 0, 1, 454, 2, 0, 1, 457, 1, 0, 1, 457, 2, 0, 1, 460, 1, 16, 2, 460, 19, 16, 2,
  479, 19, 0, 1, 499, 1, 2, 2, 499, 4, 0, 1, 405, 1, 0, 1, 447, 1, 38, 2, 505, 40, 0, 1, 414, 2, 16, 2, 547, 24,
  0, 1, 11365, 1, 0, 1, 572, 2, 0, 1, 410, 1, 0, 1, 11366, 3, 0, 1, 578, 2, 0, 1, 384, 1, 0, 1, 649, 1, 0, 1,
  652, 1, 8, 2, 583, 298, 2, 2, 881, 6, 0, 1, 887, 9, 0, 1, 1011, 7, 0, 1, 940, 2, 2, 1, 941, 4, 0, 1, 972, 2,
  1, 1, 973, 3, 16, 1, 945, 18, 8, 1, 963, 44, 0, 1, 983, 9, 22, 2, 985, 28, 0, 1, 952, 3, 0, 1, 1016, 2, 0, 1,
  1010, 1, 0, 1, 1019, 3, 2, 1, 891, 3, 15, 1, 1104, 16, 31, 1, 1072, 80, 32, 2, 1121, 42, 52, 2, 1163, 54, 0,
  1, 1231, 1, 12, 2, 1218, 15, 94, 2, 1233, 97, 37, 1, 1377, 2927, 37, 1, 11520, 39, 0, 1, 11559, 6, 0, 1,
  11565, 723, 79, 1, 43888, 80, 5, 1, 5112, 2208, 42, 1, 4304, 45, 2, 1, 4349, 323, 148, 2, 7681, 158, 0, 1,
  223, 2, 94, 2, 7841, 104, 7, 1, 7936, 16, 5, 1, 7952, 16, 7, 1, 7968, 16, 7, 1, 7984, 16, 5, 1, 8000, 17, 6,
  2, 8017, 15, 7, 1, 8032, 32, 7, 1, 8064, 16, 7, 1, 8080, 16, 7, 1, 8096, 16, 1, 1, 8112, 2, 1, 1, 8048, 2, 0,
  1, 8115, 12, 3, 1, 8050, 4, 0, 1, 8131, 12, 1, 1, 8144, 2, 1, 1, 8054, 14, 1, 1, 8160, 2, 1, 1, 8058, 2, 0, 1,
  8165, 12, 1, 1, 8056, 2, 1, 1, 8060, 2, 0, 1, 8179, 298, 0, 1, 969, 4, 0, 1, 107, 1, 0, 1, 229, 7, 0, 1, 8526,
  46, 15, 1, 8560, 35, 0, 1, 8580, 819, 25, 1, 9424, 1866, 47, 1, 11312, 96, 0, 1, 11361, 2, 0, 1, 619, 1, 0, 1,
  7549, 1, 0, 1, 637, 3, 4, 2, 11368, 6, 0, 1, 593, 1, 0, 1, 625, 1, 0, 1, 592, 1, 0, 1, 594, 2, 0, 1, 11379, 3,
  0, 1, 11382, 9, 1, 1, 575, 2, 98, 2, 11393, 107, 2, 2, 11500, 7, 0, 1, 11507, 31054, 44, 2, 42561, 64, 26, 2,
  42625, 162, 12, 2, 42787, 16, 60, 2, 42803, 71, 2, 2, 42874, 4, 0, 1, 7545, 1, 8, 2, 42879, 13, 0, 1, 42892,
  2, 0, 1, 613, 3, 2, 2, 42897, 6, 18, 2, 42903, 20, 0, 1, 614, 1, 0, 1, 604, 1, 0, 1, 609, 1, 0, 1, 620, 1, 0,
  1, 618, 2, 0, 1, 670, 1, 0, 1, 647, 1, 0, 1, 669, 1, 0, 1, 43859, 1, 14, 2, 42933, 16, 0, 1, 42900, 1, 0, 1,
  642, 1, 0, 1, 7566, 1, 2, 2, 42952, 9, 0, 1, 42961, 6, 2, 2, 42967, 31, 0, 1, 42998, 22316, 25, 1, 65345,
  1247, 39, 1, 66600, 176, 35, 1, 66776, 192, 36, 2, 66967, 1, 8, 2, 66968, 12, 12, 2, 66980, 16, 4, 2, 66996,
  8, 0, 1, 67004, 1771, 50, 1, 68800, 3104, 31, 1, 71872, 21920, 31, 1, 93792, 31424, 33, 1, 125218]

def lowerExpansions : List (Nat × List Nat) := [
  (304, [105, 775])]

/-- What becomes of characters in upper case, apart from those that are the small letters of capitals. -/
def upperExpansions : List (Nat × List Nat) := [
  (181, [924]), (223, [83, 83]), (305, [73]), (329, [700, 78]), (383, [83]), (453, [452]), (456, [455]),
  (459, [458]), (496, [74, 780]), (498, [497]), (837, [921]), (912, [921, 776, 769]),
  (944, [933, 776, 769]), (962, [931]), (976, [914]), (977, [920]), (981, [934]), (982, [928]),
  (1008, [922]), (1009, [929]), (1013, [917]), (1415, [1333, 1362]), (7296, [1042]), (7297, [1044]),
  (7298, [1054]), (7299, [1057]), (7300, [1058]), (7301, [1058]), (7302, [1066]), (7303, [1122]),
  (7304, [42570]), (7830, [72, 817]), (7831, [84, 776]), (7832, [87, 778]), (7833, [89, 778]),
  (7834, [65, 702]), (7835, [7776]), (8016, [933, 787]), (8018, [933, 787, 768]),
  (8020, [933, 787, 769]), (8022, [933, 787, 834]), (8114, [8122, 921]), (8115, [913, 921]),
  (8116, [902, 921]), (8118, [913, 834]), (8119, [913, 834, 921]), (8124, [913, 921]), (8126, [921]),
  (8130, [8138, 921]), (8131, [919, 921]), (8132, [905, 921]), (8134, [919, 834]),
  (8135, [919, 834, 921]), (8140, [919, 921]), (8146, [921, 776, 768]), (8147, [921, 776, 769]),
  (8150, [921, 834]), (8151, [921, 776, 834]), (8162, [933, 776, 768]), (8163, [933, 776, 769]),
  (8164, [929, 787]), (8166, [933, 834]), (8167, [933, 776, 834]), (8178, [8186, 921]),
  (8179, [937, 921]), (8180, [911, 921]), (8182, [937, 834]), (8183, [937, 834, 921]),
  (8188, [937, 921]), (64256, [70, 70]), (64257, [70, 73]), (64258, [70, 76]), (64259, [70, 70, 73]),
  (64260, [70, 70, 76]), (64261, [83, 84]), (64262, [83, 84]), (64275, [1348, 1350]),
  (64276, [1348, 1333]), (64277, [1348, 1339]), (64278, [1358, 1350]), (64279, [1348, 1341])]

/-- The capitals of letters with an iota below, in rows of eight that come twice. -/
def iotaRows : List Nat := [7944, 7976, 8040]

end AlLint.Text
