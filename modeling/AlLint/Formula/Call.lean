import AlLint.Formula.Operator
import AlLint.Formula.Outside
import AlLint.Formula.Sort
import AlLint.Text.Encoding

/-!
# Helpers

What the helpers that formulas can call give for their arguments. A helper that goes through items takes them
one after the other, and leaves those alone that it does not need.
-/

namespace AlLint.Formula

/-! ## Numbers -/

def lengthOf : Value → Except Mishap Nat
  | .text s _ => .ok s.length
  | .bytes bs _ => .ok bs.length
  | .list items _ | .tuple items _ | .set items _ _ => .ok items.length
  | .dict entries _ | .mapping entries _ | .view _ entries _ => .ok entries.length
  | .part (.hidden .builtins) _ => .error .beyond
  | _ => .error .type

/-- The size of a number. A whole number that is not negative is its own size. -/
def sizeOf (v : Value) (m : Mark) : Except Mishap Value :=
  match v, v.number? with
  | .int i _, _ => .ok (if i < 0 then .ofInt (-i) m else v)
  | _, some n => do return (← n.abs).value m
  | _, none => .error .type

/-- A number that is made anew. A whole number of more than 64 bits stays the same. -/
def renewed (v : Value) (m : Mark) : Value :=
  match v with
  | .int i _ => if -(Nat.pow 2 63 : Int) ≤ i ∧ i < Nat.pow 2 63 then .ofInt i m else v
  | .float f _ => .float f m
  | v => v

def sumOf (g : Engine) (v start : Value) : EvalM Value := do
  let source ← sourceOf v
  match start with
  | .text .. | .bytes .. => fail .type
  | _ => source.fold g (renewed start (← fresh)) fun total v => do return .yield (← attempt (total.add v (← fresh)))

/-! ## Texts -/

/-- What stands for bytes that are no characters, as the name of a way to treat them says. -/
def replacement (treatment : String) (bs : List UInt8) : Except Mishap (List Char) :=
  match treatment with
  | "ignore" => .ok []
  | "replace" => .ok ['�']
  | "backslashreplace" => .ok (bs.flatMap fun b => '\\' :: 'x' :: Text.hex 2 b.toNat)
  | "xmlcharrefreplace" | "namereplace" => .error .type
  | "strict" | "surrogateescape" | "surrogatepass" => .error .undecodable
  | _ => .error .lookup

def decodeBytes (bs : List UInt8) (encoding treatment : String) : Except Mishap String := do
  match Text.Encoding.ofName? encoding with
  | none => .error .lookup
  | some e =>
    let chars ← (e.decode bs).mapM fun
      | .char c => .ok [c]
      | .bad bs => replacement treatment bs
    return String.ofList chars.flatten

def optionName (default : String) : Option Value → Except Mishap String
  | none => .ok default
  | some (.text s _) => if s.toList.contains '\x00' then .error .value else .ok s
  | some _ => .error .type

/-- The text of a value, or that of bytes in an encoding. Truth values are written with words. -/
def textOf (a : Args) (m : Mark) : Except Mishap Value := do
  match ← a.byName ["object", "encoding", "errors"] with
  | [object, encoding, errors] =>
    let name ← optionName "utf-8" encoding
    let treatment ← optionName "strict" errors
    match object, encoding.isSome || errors.isSome with
    | none, _ => return .word ""
    | some (.bytes bs _), true =>
      if bs.isEmpty then return .word "" else return .ofText (← decodeBytes bs name treatment) m
    | some _, true => .error .type
    | some (.text s own), false => return .text s own
    | some (.bool b), false => return .word (shownBool b)
    | some v, false => return .ofNewText (← v.shown) m
  | _ => .error .type

/-- A value as a text in small letters. A value that is false has none. -/
def lowerOf (v : Value) (m : Mark) : Except Mishap Value := do
  if v.truth then return .ofNewText (Text.lower (← v.shown)) m else return .word ""

/-! ## Parts -/

def callOf? : Value → Option (Nat × Call)
  | .part (.node (.expr e)) own => e.asCall?.map (own.file, ·)
  | _ => none

def calleeOf (v : Value) (m : Mark) : Value :=
  match callOf? v with
  | some (file, c) => .ofExprText file c.callee m
  | none => .word ""

def receiverOf (v : Value) (m : Mark) : Value :=
  match callOf? v with
  | some (file, { callee := .member target _ _ _, .. }) => .ofExprText file target m
  | _ => .word ""

def nodeText : Node → String
  | .expr e => e.text
  | _ => "<expr>"

def writtenText (v : Value) (m : Mark) : Except Mishap Value :=
  match v with
  | .part (.node (.expr e)) own => .ok (.ofExprText own.file e m)
  | .part (.node n) _ => .ok (.word (nodeText n))
  | v => textOf ⟨[v], []⟩ m

def callsIn (v : Value) (m : Mark) : Value :=
  match v with
  | .part (.node (.expr e)) own => .ofExprs own.file (e.calls.map Call.toExpr) m
  | _ => .list [] m

def namesIn (v : Value) (m : Mark) : Value :=
  match v with
  | .part (.node (.expr e)) own =>
    .list (e.subexpressions.filterMap fun
      | e@(.name n _ _) => some (.ofText n (.named (nodeMark own.file (.expr e)) "name"))
      | _ => none) m
  | _ => .list [] m

/-! ## Calls -/

/-- The value whose key comes first by some comparison. The first of several such is taken. -/
def extremeOf (g : Engine) (op : Comparison) (key : Value → EvalM Value) (source : Source) :
    EvalM (Option Value) := do
  let best ← source.fold g none fun best v => do
    let k ← key v
    match best with
    | none => return .yield (some (v, k))
    | some (w, l) => return .yield (some (if ← attempt (Value.order op k l) then (v, k) else (w, l)))
  return best.map Prod.fst

def callExtreme (g : Engine) (op : Comparison) (args : List Value) (key : Value → EvalM Value)
    (default : Option Value) :
    EvalM Value := do
  let source ←
    match args with
    | [] => fail .type
    | [v] => sourceOf v
    | vs => if default.isSome then fail .type else pure (.items vs)
  match ← extremeOf g op key source, default with
  | some v, _ => return v
  | none, some v => return v
  | none, none => fail .value

/-- The values sorted by key, or in reverse. Values with equal keys keep their order either way. -/
def sortValues (isReverse : Bool) (key : Value → EvalM Value) (vs : List Value) : EvalM Value := do
  let keyed ← vs.mapM fun v => do return (← key v, v)
  let turn := fun xs : List (Value × Value) => if isReverse then xs.reverse else xs
  let sorted ← attempt (Sort.sort (fun a b => Value.order .less a.1 b.1) (turn keyed))
  return .list ((turn sorted).map Prod.snd) (← fresh)

/-- Calls a helper without names, and so without a key to compare by. -/
def Helper.callPlain (g : Engine) (h : Helper) (args : List Value) : EvalM Value := do
  let m ← fresh
  match h, args with
  | .len, [v] => return .ofInt (← attempt (lengthOf v)) m
  | .any, [v] => return .bool (← (← sourceOf v).any g fun v => return v.truth)
  | .all, [v] => return .bool !(← (← sourceOf v).any g fun v => return !v.truth)
  | .sum, [v] => sumOf g v (.ofInt 0 m)
  | .sum, [v, start] => sumOf g v start
  | .min, args => callExtreme g .less args pure none
  | .max, args => callExtreme g .greater args pure none
  | .sorted, [v] => sortValues false pure (← itemsOf g v)
  | .abs, [v] => attempt (sizeOf v m)
  | .str, args => attempt (textOf ⟨args, []⟩ m)
  | .lower, [v] => attempt (lowerOf v m)
  | .callee, [v] => return calleeOf v m
  | .method, [v] => return .ofNewText (((callOf? v).map fun c => c.2.method).getD "") m
  | .receiver, [v] => return receiverOf v m
  | .text, [v] => attempt (writtenText v m)
  | .calls, [v] => return callsIn v m
  | .names, [v] => return namesIn v m
  | _, _ => fail .type

def Helper.parameter? : Helper → Option String
  | .lower => some "value"
  | .callee | .method | .receiver | .text | .calls | .names => some "node"
  | _ => none

def callOne (g : Engine) (a : Args) (f v : Value) : EvalM Value :=
  match f with
  | .helper h => h.callPlain g [v]
  | .method receiver name _ => do attempt (callMethod g.scene.face receiver name ⟨[v], []⟩ (← fresh))
  | .part (.hidden .evaluator) _ => attempt (callEvaluator g.scene a v)
  | _ => fail .type

def keyArg (g : Engine) (a : Args) (v : Value) : EvalM Value :=
  match a.named.lookup "key" with
  | none | some .none => return v
  | some f => callOne g a f v

def Helper.call (g : Engine) (h : Helper) (a : Args) : EvalM Value :=
  if a.named.isEmpty then h.callPlain g a.places
  else
    let isNamed := fun (names : List String) => a.named.all fun e => names.contains e.1
    match h with
    | .sum =>
      match a.places, a.named with
      | [v], [("start", start)] => h.callPlain g [v, start]
      | _, _ => fail .type
    | .min | .max =>
      if !isNamed ["key", "default"] then fail .type
      else callExtreme g (if h = .min then .less else .greater) a.places (keyArg g a) (a.named.lookup "default")
    | .sorted =>
      match a.places with
      | [v] => do
        let items ← itemsOf g v
        if !isNamed ["key", "reverse"] then fail .type
        let isReverse ← attempt (((a.named.lookup "reverse").getD (.bool false)).counted 32)
        sortValues (isReverse ≠ 0) (keyArg g a) items
      | _ => fail .type
    | .str => do attempt (textOf a (← fresh))
    | _ =>
      match h.parameter?, a.places, a.named with
      | some parameter, [], [(name, v)] => if name = parameter then h.callPlain g [v] else fail .type
      | _, _, _ => fail .type

/-- Calls a value. Of arguments with one name the last counts. -/
def callValue (g : Engine) (f : Value) (args : List Value) (named : List (String × Value)) : EvalM Value :=
  let a : Args := ⟨args, Keyed.ofList named⟩
  match f with
  | .helper h => h.call g a
  | .method receiver name _ => do attempt (callMethod g.scene.face receiver name a (← fresh))
  | _ => throw (.refused .unsafeCall)

end AlLint.Formula
