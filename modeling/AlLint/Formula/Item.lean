import AlLint.Formula.Order

/-!
# Items and slices

Places are counted from zero, and negative ones from the end. A place outside of a list has no item, but bounds
of a slice are moved inside.
-/

namespace AlLint.Formula

def byteOf (i : Int) : Except Mishap UInt8 := if 0 ≤ i ∧ i < 256 then .ok (UInt8.ofNat i.toNat) else .error .value

namespace Value

def place? : Value → Option Int
  | int i _ => some i
  | bool b => some (if b then 1 else 0)
  | _ => Option.none

/-- The whole number that something is counted by. It must fit into some bits with a sign. -/
def counted (bits : Nat) (v : Value) : Except Mishap Int :=
  match v.place? with
  | some i =>
    let half := Nat.pow 2 (bits - 1)
    if -(half : Int) ≤ i ∧ i < half then .ok i else .error .overflow
  | Option.none => .error .type

def itemAt {α : Type} (items : List α) (place : Int) : Except Mishap α :=
  let fromStart := if place < 0 then place + items.length else place
  if fromStart < 0 then .error .index
  else
    match items[fromStart.toNat]? with
    | some a => .ok a
    | Option.none => .error .index

/-- The item of a value. A character that has to be made gets a mark. -/
def item (v index : Value) (m : Mark) : Except Mishap Value :=
  let at' {α : Type} (items : List α) (f : α → Value) : Except Mishap Value :=
    match index.place? with
    | some place => (itemAt items place).map f
    | Option.none => .error .type
  match v with
  | text s _ => at' s.toList fun c => ofText c.toString m
  | list items _ | tuple items _ => at' items id
  | bytes bs _ => at' bs fun b => ofInt b.toNat m
  | dict entries _ | mapping entries _ => do
    match ← entryOf? entries index with
    | some value => return value
    | Option.none => .error .key
  | part (.hidden .builtins) _ =>
    match index with
    | text "eval" _ => .ok (ofHidden .evaluator)
    | _ => .error .beyond
  | _ => .error .type

def bound? : Value → Except Mishap (Option Int)
  | none => .ok Option.none
  | v =>
    match v.place? with
    | some i => .ok (some i)
    | Option.none => .error .type

def clampBound (length low high : Int) (bound : Int) : Int :=
  let fromStart := if bound < 0 then bound + length else bound
  max low (min high fromStart)

def slicePlaces (length : Nat) (start stop : Option Int) (step : Int) : List Nat :=
  let low : Int := if step < 0 then -1 else 0
  let high : Int := if step < 0 then length - 1 else length
  let first := (start.map (clampBound length low high)).getD (if step < 0 then high else low)
  let last := (stop.map (clampBound length low high)).getD (if step < 0 then low else high)
  let distance := if step < 0 then first - last else last - first
  let count := if distance ≤ 0 then 0 else (distance - 1) / step.natAbs + 1
  (List.range count.toNat).map fun (k : Nat) => (first + (k : Int) * step).toNat

def sliceItems {α : Type} (items : List α) (start stop : Option Int) (step : Int) : List α :=
  let all := items.toArray
  (slicePlaces items.length start stop step).filterMap fun i => all[i]?

/-- The slice of a value. All of a text, tuple or bytes is the value itself. -/
def slice (v start stop step : Value) (m : Mark) : Except Mishap Value := do
  let cut {α : Type} (items : List α) : Except Mishap (List α × Bool) := do
    let step := (← bound? step).getD 1
    if step = 0 then .error .value
    let start ← bound? start
    let stop ← bound? stop
    return (sliceItems items start stop step, step = 1)
  match v with
  | text s _ => do
    let (cs, isRow) ← cut s.toList
    return if isRow && cs.length = s.length then v else if isRow then ofChars cs m else ofNewText (String.ofList cs) m
  | list items _ => do return list (← cut items).1 m
  | tuple items _ => do
    let (row, isRow) ← cut items
    return if isRow && row.length = items.length then v else ofItems row m
  | bytes bs _ => do
    let (row, isRow) ← cut bs
    return if isRow && row.length = bs.length && !bs.isEmpty then v else if isRow then
      ofBytes row m else ofNewBytes row m
  | _ => .error .type

end Value

end AlLint.Formula
