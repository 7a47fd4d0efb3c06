import AlLint.Formula.Format
import AlLint.Formula.Memory
import AlLint.Formula.Shelf

/-!
# Operators

What the operators of formulas give for their operands. What an operator leaves as it is stays the same value.
-/

namespace AlLint.Formula

/-! ## Repetition -/

def maxItems : Nat := Nat.pow 2 32

/-- Repeats some items. If their number is too large to be counted, the repetition fails in its own way. -/
def repeated {α : Type} (items : List α) (times : Int) (uncounted : Mishap) : Except Mishap (List α) :=
  if times < -(Nat.pow 2 63 : Int) ∨ times ≥ Nat.pow 2 63 then .error .overflow
  else if items.isEmpty || times ≤ 0 then .ok []
  else
    let count := items.length * times.toNat
    if count ≥ Nat.pow 2 63 then .error uncounted
    else if count > maxItems then .error .memory
    else .ok (List.replicate times.toNat items).flatten

/-- Repeats a text, list, tuple or bytes. Once is the value itself, if it cannot change. -/
def Value.repeated (v : Value) (times : Int) (m : Mark) : Except Mishap Value := do
  match v with
  | .list items _ => return .list (← Formula.repeated items times .memory) m
  | .text s _ =>
    if times = 1 then return v
    else return .ofText (String.ofList (← Formula.repeated s.toList times .overflow)) m
  | .tuple items _ => if times = 1 then return v else return .ofItems (← Formula.repeated items times .memory) m
  | .bytes bs _ =>
    let repeated ← Formula.repeated bs times .overflow
    return if repeated.length = bs.length then v else .bytes repeated m
  | _ => .error .type

/-! ## Arithmetic -/

def onNumbers (f : Number → Number → Except Mishap Number) (a b : Value) (m : Mark) : Except Mishap Value :=
  match a.number?, b.number? with
  | some x, some y => (f x y).map (·.value m)
  | _, _ => .error .type

/-- The sum of numbers, or two texts or lists one after the other. What an empty one is added to stays the same. -/
def Value.add (a b : Value) (m : Mark) : Except Mishap Value :=
  match a, b with
  | .text s _, .text t _ => .ok (if s.isEmpty then b else if t.isEmpty then a else .text (s ++ t) m)
  | .list xs _, .list ys _ => .ok (.list (xs ++ ys) m)
  | .tuple xs _, .tuple ys _ => .ok (if xs.isEmpty then b else if ys.isEmpty then a else .tuple (xs ++ ys) m)
  | .bytes xs _, .bytes ys _ => .ok (if xs.isEmpty then b else if ys.isEmpty then a else .bytes (xs ++ ys) m)
  | _, _ => onNumbers Number.add a b m

def Value.multiply (a b : Value) (m : Mark) : Except Mishap Value :=
  match a.place?, b.place? with
  | Option.none, some times => if a.number?.isSome then onNumbers Number.multiply a b m else a.repeated times m
  | some times, Option.none => if b.number?.isSome then onNumbers Number.multiply a b m else b.repeated times m
  | _, _ => onNumbers Number.multiply a b m

def leadingDigit (i : Int) : Nat × Nat :=
  let size := i.natAbs.log2 / 30
  (size, i.natAbs >>> (30 * size))

/-- Whether the first digit already shows that a number is smaller than another one, which is not small. -/
def isClearlySmaller (i j : Int) : Bool :=
  let (size, digit) := leadingDigit i
  let (size', digit') := leadingDigit j
  0 < size' && (size < size' || (size = size' && digit < digit'))

/-- The remainder of numbers, or a template with its places filled. A number that is its own remainder stays the
same if that is clear. -/
def Value.modulo (a b : Value) (m : Mark) : Except Mishap Value :=
  match a, b with
  | .text s own, _ => Format.fillText s own b m
  | .bytes bs _, _ => Format.fillBytes bs b m
  | .int i _, .int j _ => if isClearlySmaller i j && Int.fmod i j = i then .ok a else onNumbers Number.modulo a b m
  | _, _ => onNumbers Number.modulo a b m

/-! ## Differences -/

def distinctItems (g : Engine) (v : Value) : EvalM (List Value) := do
  (← sourceOf v).fold g [] fun items v => do return .yield (← attempt (Value.insertItem items v))

def setFrom (g : Engine) (v : Value) (m : Mark) : EvalM Value :=
  match v with
  | .set items shelf _ => return .copySet items shelf m
  | .dict entries _ | .view .keys entries _ => return .setOf (entries.map Prod.fst) entries.length m
  | v => do return .setOf (← distinctItems g v) 0 m

/-- The items of one value that another one does not have, where one of the two is a view. -/
def itemDifference (g : Engine) (a b : Value) (m : Mark) : EvalM Value := do
  match ← setFrom g a m with
  | .set items shelf _ =>
    let left ← (← sourceOf b).fold g items fun left v => do
      attempt v.checkKey
      return .yield (← attempt (left.filterM fun item => do return !(← v.isFound item)))
    return .clearSet items shelf (fun item => left.any item.isSame) m
  | v => return v

def Value.isSetView : Value → Bool
  | .view .keys .. | .view .items .. => true
  | _ => false

def Value.subtract (g : Engine) (a b : Value) (m : Mark) : EvalM Value :=
  match a, b with
  | .set xs shelf _, .set ys _ _ => return .setDifference xs shelf ys m
  | _, _ => if a.isSetView || b.isSetView then itemDifference g a b m else attempt (onNumbers Number.subtract a b m)

/-! ## All operators -/

def Operator.apply? (g : Engine) (op : Operator) : Option (Value → Value → Mark → EvalM Value) :=
  let pure := fun (f : Value → Value → Mark → Except Mishap Value) => some fun a b m => attempt (f a b m)
  match op with
  | .add => pure Value.add
  | .subtract => some (Value.subtract g)
  | .multiply => pure Value.multiply
  | .divide => pure (onNumbers Number.divide)
  | .floorDivide => pure (onNumbers Number.floorDivide)
  | .modulo => pure Value.modulo
  | .power => pure (onNumbers Number.power)
  | .matrixMultiply | .shiftLeft | .shiftRight | .bitOr | .bitXor | .bitAnd => none

def Unary.apply? : Unary → Option (Value → Mark → Except Mishap Value)
  | .not => some fun v _ => .ok (.bool !v.truth)
  | .minus => some fun v m =>
    match v.number? with
    | some n => .ok (n.negate.value m)
    | none => .error .type
  | .plus => some fun v m =>
    match v with
    | .bool b => .ok (.ofInt (if b then 1 else 0) m)
    | .int .. | .float .. | .complex .. => .ok v
    | _ => .error .type
  | .invert => none

def Comparison.holds (g : Engine) (op : Comparison) (a b : Value) : EvalM Bool :=
  match op with
  | .equal => attempt (a.equal b)
  | .notEqual => do return !(← attempt (a.equal b))
  | .isIn => b.contains g a
  | .notIn => do return !(← b.contains g a)
  | .same => return a.isSame b
  | .notSame => return !a.isSame b
  | .less | .lessEqual | .greater | .greaterEqual => attempt (Value.order op a b)

end AlLint.Formula
