/-!
# Sets of code points

Character properties are kept as short sorted tables and looked up from the front: a search stops at
the first entry that lies above the code point, so the common low ones are found at once. The tables are
written by distances, which are short where code points are long.
-/

namespace AlLint.Text

abbrev Ranges := List (Nat × Nat)

/-- Ranges above `n`, from the gap before each one and its extent. -/
def Ranges.ofGaps (n : Nat) : List Nat → Ranges
  | gap :: extent :: rest => (n + gap, n + gap + extent) :: ofGaps (n + gap + extent) rest
  | _ => []

def Ranges.mem : Ranges → Nat → Bool
  | [], _ => false
  | (lo, hi) :: rest, n => if n < lo then false else if n ≤ hi then true else Ranges.mem rest n

/-- The code points `lo`, `lo + step`, ... up to `hi`, which move by `delta`. -/
structure Shift where
  lo : Nat
  hi : Nat
  step : Nat
  delta : Int

/-- Shifts from `n` on: how far the first code point is from that of the shift before, the extent, the step, and
the code point that the first one becomes. -/
def Shift.ofSteps (n : Nat) : List Nat → List Shift
  | gap :: extent :: step :: target :: rest => ⟨n + gap, n + gap + extent, step, target - (n + gap)⟩ ::
      ofSteps (n + gap) rest
  | _ => []

/-- Where a code point moves, by a list of shifts sorted by their first code point. -/
def shifted : List Shift → Nat → Nat
  | [], n => n
  | s :: rest, n =>
    if n < s.lo then n
    else if n ≤ s.hi && (n - s.lo) % s.step == 0 then (n + s.delta).toNat
    else shifted rest n

/-- Where a code point comes from, by the first shift that leads to it. -/
def unshifted : List Shift → Nat → Nat
  | [], n => n
  | s :: rest, n =>
    let m := (n - s.delta).toNat
    if s.lo ≤ m && m ≤ s.hi && (m - s.lo) % s.step == 0 then m else unshifted rest n

end AlLint.Text
