import AlLint.Formula.Hash
import AlLint.Formula.Order

/-!
# The order of a set

A set puts its items on a shelf with a power of two of places. The low bits of an item's hash say which place it
takes; if that one is taken, the next nine are tried, and then a place that further bits of the hash lead to. A
shelf that is three fifths full gives way to a larger one, on which the items are put anew. The items are listed
in the order of their places.

Items without a fixed hash have no such order. A set with one of them lists its items as they came.
-/

namespace AlLint.Formula

structure Rack where
  slots : Array (Option (UInt64 × Value))
  used : Nat := 0
  /-- The number of places that are taken or were once taken. -/
  filled : Nat := 0

namespace Rack

def ofSize (size : Nat) : Rack := { slots := Array.replicate size none }

def minSize : Nat := 8

def sizeFor (count : Nat) : Nat := if count < minSize then minSize else Nat.pow 2 (count.log2 + 1)

def nearby : Nat := 9

/-- The places to try before `steps` are over, starting from one. A place that is too near to the end stands alone. -/
def freePlace (slots : Array (Option (UInt64 × Value))) (steps : Nat) (bits : UInt64) (place : Nat) : Nat :=
  match steps with
  | 0 => 0
  | steps + 1 =>
    let more := if place + nearby < slots.size then nearby else 0
    match (List.range (more + 1)).find? fun k => ((slots[place + k]?).bind id).isNone with
    | some k => place + k
    | none =>
      let bits := bits >>> 5
      freePlace slots steps bits ((place * 5 + 1 + bits.toNat) % slots.size)

def put (r : Rack) (hash : UInt64) (v : Value) : Rack :=
  let place := freePlace r.slots (r.slots.size + 64) hash (hash.toNat % r.slots.size)
  { slots := r.slots.setIfInBounds place (some (hash, v)), used := r.used + 1, filled := r.filled + 1 }

def contents (r : Rack) : List (UInt64 × Value) := r.slots.toList.filterMap id

def resize (r : Rack) (count : Nat) : Rack := r.contents.foldl (fun r e => r.put e.1 e.2) (ofSize (sizeFor count))

def growth (r : Rack) : Nat := if r.used > 50000 then r.used * 2 else r.used * 4

def add (r : Rack) (e : UInt64 × Value) : Rack :=
  let r := r.put e.1 e.2
  if r.filled * 5 < (r.slots.size - 1) * 3 then r else r.resize r.growth

def withRoom (r : Rack) (count : Nat) : Rack :=
  if (r.filled + count) * 5 ≥ (r.slots.size - 1) * 3 then r.resize ((r.used + count) * 2) else r

def ofShelf (items : List (UInt64 × Value)) (s : Shelf) : Rack where
  slots := (s.places.zip items).foldl (fun slots e => slots.setIfInBounds e.1 (some e.2))
    (Array.replicate s.size none)
  used := items.length
  filled := items.length + s.cleared

def toSet (r : Rack) (m : Mark) : Value :=
  let taken := r.slots.toList.zipIdx.filterMap fun (slot, place) => slot.map fun e => (place, e.2)
  .set (taken.map Prod.snd)
    { size := r.slots.size, places := taken.map Prod.fst, cleared := r.filled - r.used } m

/-- A copy of a shelf, without places that are empty but were not always so. -/
def copy (r : Rack) : Rack :=
  let empty := (ofSize minSize).withRoom r.used
  if r.used = 0 then empty
  else if empty.slots.size = r.slots.size ∧ r.filled = r.used then r
  else r.contents.foldl (fun r e => r.put e.1 e.2) empty

/-- Takes away the items that pass a test. If that leaves many places empty, the others are put anew. -/
def clear (r : Rack) (isLeft : Value → Bool) : Rack :=
  let slots := r.slots.map fun slot => slot.filter fun e => isLeft e.2
  let r := { r with slots, used := (slots.toList.filterMap id).length }
  if r.filled - r.used ≤ (r.slots.size - 1) / 4 then r else r.resize r.growth

end Rack

namespace Value

def withHashes? (items : List Value) : Option (List (UInt64 × Value)) := (hashes? items).map fun hs => hs.zip items

/-- The set of values that are all different, added one after the other. Room is made for `ahead` of them before. -/
def setOf (items : List Value) (ahead : Nat) (m : Mark) : Value :=
  match withHashes? items with
  | some items => (items.foldl Rack.add ((Rack.ofSize Rack.minSize).withRoom ahead)).toSet m
  | Option.none => set items {} m

def copySet (items : List Value) (shelf : Shelf) (m : Mark) : Value :=
  match withHashes? items with
  | some entries => (Rack.ofShelf entries shelf).copy.toSet m
  | Option.none => set items {} m

def clearSet (items : List Value) (shelf : Shelf) (isLeft : Value → Bool) (m : Mark) : Value :=
  match withHashes? items with
  | some entries => ((Rack.ofShelf entries shelf).clear isLeft).toSet m
  | Option.none => set (items.filter isLeft) {} m

/-- The items of one set that are not in another one. If the other one is small, it is taken out of a copy, and
otherwise the items that are left are put together. -/
def setDifference (items : List Value) (shelf : Shelf) (others : List Value) (m : Mark) : Value :=
  let isLeft := fun v : Value => match others.anyM v.isFound with
    | .ok isFound => !isFound
    | .error _ => true
  if items.length / 4 > others.length then
    match copySet items shelf m with
    | set items shelf _ => clearSet items shelf isLeft m
    | v => v
  else setOf (items.filter isLeft) 0 m

end Value

end AlLint.Formula
