import AlLint.Formula.Order

/-!
# Sorting

Values are sorted by comparisons that need not be those of an order: a number may be neither less nor greater
than another one, and sets are compared by inclusion. What comes out then depends on which values are compared.
The values at the front that already rise, or all fall, are taken as they are, and the others are put in one by
one, each at the place that halving the sorted ones leads to. Long lists are sorted in pieces, which are merged.
-/

namespace AlLint.Formula.Sort

variable {α : Type} (isLess : α → α → Except Mishap Bool)

/-- The rest of a row in which each value is less than the one before it, if `falls`, or never so. `row` is the
row up to now in reverse. -/
def takeRun (falls : Bool) (last : α) (row : List α) : List α → Except Mishap (List α × List α)
  | [] => .ok (row, [])
  | x :: rest => do
    if (← isLess x last) = falls then takeRun falls x (x :: row) rest else return (row, x :: rest)

/-- The sorted values at the front of a list, and the rest. Values that fall are turned around. -/
def frontRun : List α → Except Mishap (List α × List α)
  | x :: y :: rest => do
    let falls ← isLess y x
    let (row, rest) ← takeRun isLess falls y [y, x] rest
    return (if falls then row else row.reverse, rest)
  | xs => .ok (xs, [])

/-- The place of a value among sorted ones, after those that are not greater, by halving. -/
def findPlace (xs : Array α) (x : α) (low high : Nat) : Except Mishap Nat :=
  if low < high then do
    let middle := low + (high - low) / 2
    match xs[middle]? with
    | some y => if ← isLess x y then findPlace xs x low middle else findPlace xs x (middle + 1) high
    | none => return low
  else return low
termination_by high - low

def insert (xs : Array α) (x : α) : Except Mishap (Array α) := do
  let place ← findPlace isLess xs x 0 xs.size
  return xs.insertIdxIfInBounds place x

def sortShort (xs : List α) : Except Mishap (List α) := do
  let (front, rest) ← frontRun isLess xs
  return (← rest.foldlM (insert isLess) front.toArray).toList

/-- Merges two sorted lists. Of equal values those of the first list come first. `merged` holds what is merged
in reverse. -/
def merge (merged : List α) : List α → List α → Except Mishap (List α)
  | [], ys => .ok (merged.reverse ++ ys)
  | xs, [] => .ok (merged.reverse ++ xs)
  | x :: xs, y :: ys => do
    if ← isLess y x then merge (y :: merged) (x :: xs) ys else merge (x :: merged) xs (y :: ys)
termination_by xs ys => xs.length + ys.length

def longLength : Nat := 64

def sort (xs : List α) : Except Mishap (List α) :=
  if xs.length < longLength then sortShort isLess xs
  else do
    let half := xs.length / 2
    merge isLess [] (← sort (xs.take half)) (← sort (xs.drop half))
termination_by xs.length
decreasing_by all_goals simp_all [longLength]; omega

end AlLint.Formula.Sort
