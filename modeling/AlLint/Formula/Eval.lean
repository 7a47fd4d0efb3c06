import AlLint.Formula.Call
import AlLint.Formula.Host

/-!
# The value of a formula

A formula is evaluated from left to right. Some of it may be left out: the other parts of a junction that is
decided, the other branch of a choice, and comparisons after one that does not hold.

Names that start with an underscore are private, and methods that write templates are blocked; both are refused before
anything else is looked at. Only helpers and methods that formulas got by name can be called.
-/

namespace AlLint.Formula

def blockedAttributes : List String := ["format", "format_map"]

def checkAttribute (name : String) : EvalM Unit :=
  if name.toList.head? = some '_' then throw (.refused .privateAttribute)
  else if blockedAttributes.contains name then throw (.refused (.blockedAttribute name))
  else return ()

def Value.isCallable : Value → Bool
  | .helper _ | .method .. => true
  | _ => false

/-! ## Comprehensions -/

mutual

def bindTarget (g : Engine) (env : Environment) : Term → Value → EvalM Environment
  | .name id, v => return (id, v) :: env
  | .tuple targets, v | .list targets, v => do
    let values ← itemsOf g v
    if values.length ≠ targets.length then throw (.refused .targetLength)
    bindTargets g env targets values
  | _, _ => throw (.refused .target)

def bindTargets (g : Engine) (env : Environment) : List Term → List Value → EvalM Environment
  | t :: targets, v :: values => do bindTargets g (← bindTarget g env t v) targets values
  | _, _ => return env

end

def allHold (g : Engine) (env : Environment) : List Term → EvalM Bool
  | [] => return true
  | t :: rest => do if (← g.eval env t).truth then allHold g env rest else return false

def openLoop (g : Engine) (env : Environment) (clause : Clause Term) (inner : List (Clause Term)) : EvalM Loop := do
  return { source := ← sourceOf (← g.eval env clause.source), env, clause, inner }

def openLoops (g : Engine) (env : Environment) : List (Clause Term) → EvalM (List Loop)
  | [] => return []
  | clause :: inner => return [← openLoop g env clause inner]

/-- What names stand for in the next round of a comprehension: the next combination of items that passes the
conditions. -/
def nextScope (g : Engine) : Nat → List Loop → EvalM (Option (Environment × List Loop))
  | 0, _ => fail .depth
  | _, [] => return none
  | limit + 1, loop :: outer => do
    match ← loop.source.next g with
    | none => nextScope g limit outer
    | some (v, source) =>
      let scope ← bindTarget g loop.env loop.clause.target v
      let loops := { loop with source } :: outer
      if ← allHold g scope loop.clause.conditions then
        match loop.inner with
        | [] => return some (scope, loops)
        | clause :: inner => nextScope g limit ((← openLoop g scope clause inner) :: loops)
      else nextScope g limit loops

def forScopes {β : Type} (g : Engine) (step : β → Environment → EvalM β) : Nat → β → List Loop → EvalM β
  | 0, _, _ => fail .depth
  | limit + 1, b, loops => do
    match ← nextScope g g.limit loops with
    | none => return b
    | some (scope, loops) => forScopes g step limit (← step b scope) loops

def comprehend {β : Type} (g : Engine) (env : Environment) (clauses : List (Clause Term)) (b : β)
    (step : β → Environment → EvalM β) : EvalM β := do
  forScopes g step g.limit b (← openLoops g env clauses)

def newGenerator (element : Term) (clauses : List (Clause Term)) (env : Environment) : EvalM Value :=
  modifyGet fun s =>
    (.generator s.generators.size, { s with generators := s.generators.push (.waiting element clauses env) })

def setGenerator (n : Nat) (state : Generator) : EvalM Unit :=
  modify fun s => { s with generators := s.generators.setIfInBounds n state }

def resume (g : Engine) (n : Nat) (element : Term) (loops : List Loop) : EvalM (Option Value) := do
  match ← nextScope g g.limit loops with
  | none =>
    setGenerator n .finished
    return none
  | some (scope, loops) =>
    let v ← g.eval scope element
    setGenerator n (.running element loops)
    return some v

def nextItem (g : Engine) (n : Nat) : EvalM (Option Value) := do
  match (← get).generators[n]? with
  | some (.waiting element clauses env) => resume g n element (← openLoops g env clauses)
  | some (.running element loops) => resume g n element loops
  | _ => return none

/-- The frame of a generator, which it has until it is finished. A sealed view does not let it be seen. -/
def frameOf (s : Scene) (n : Nat) (state : Option Generator) : Except Mishap Value :=
  match state, s.behind with
  | none, _ | some .finished, _ => .ok .none
  | _, .context _ => .ok (.ofHidden .frame n)
  | _, .sealed => .error .beyond

/-- What formulas can ask about a generator: whether it is at work, whether it waits between two items, what it
takes its items from as they are, and the frame and the code that it works with. It is never at work when it is
asked, and takes no items as they are. -/
def generatorAttribute? (s : Scene) (n : Nat) (name : String) : EvalM (Option Value) := do
  match name, (← get).generators[n]? with
  | "gi_running", _ => return some (.bool false)
  | "gi_suspended", some (.running ..) => return some (.bool true)
  | "gi_suspended", _ => return some (.bool false)
  | "gi_yieldfrom", _ => return some .none
  | "gi_frame", state => return some (← attempt (frameOf s n state))
  | "gi_code", _ => fail .beyond
  | _, _ => return none

def attributeOf (s : Scene) (v : Value) (name : String) : EvalM Value := do
  let asked ←
    match v with
    | .generator n => generatorAttribute? s n name
    | _ => pure none
  match asked with
  | some value => return value
  | none => v.attribute s.face name (← fresh)

/-! ## Formulas -/

def evalJunction (g : Engine) (env : Environment) (isAnd : Bool) (last : Value) : List Term → EvalM Value
  | [] => return last
  | t :: rest => do
    let v ← g.eval env t
    if v.truth ≠ isAnd then return v else evalJunction g env isAnd v rest

def evalRelations (g : Engine) (env : Environment) (v : Value) : List (Comparison × Term) → EvalM Bool
  | [] => return true
  | (op, right) :: rest => do
    let w ← g.eval env right
    if ← op.holds g v w then evalRelations g env w rest else return false

def evalOption (g : Engine) (env : Environment) : Option Term → EvalM Value
  | none => return .none
  | some t => g.eval env t

def evalItem (g : Engine) (t : Term) (items : List Value) (env : Environment) : EvalM (List Value) := do
  attempt (Value.insertItem items (← g.eval env t))

def evalEntry (g : Engine) (key value : Term) (entries : List (Value × Value)) (env : Environment) :
    EvalM (List (Value × Value)) := do
  let k ← g.eval env key
  let v ← g.eval env value
  attempt (Value.insertEntry entries k v)

def evalTerm (g : Engine) (env : Environment) : Term → EvalM Value
  | .literal l place => return l.value (.literal place)
  | .name id =>
    match env.lookup id with
    | some v => return v
    | none => throw (.refused (.unknownName id))
  | .junction isAnd parts => evalJunction g env isAnd (.bool isAnd) parts
  | .unary op operand =>
    match op.apply? with
    | none => throw (.refused .unaryOperator)
    | some f => do attempt (f (← g.eval env operand) (← fresh))
  | .binary op left right =>
    match op.apply? g with
    | none => throw (.refused .binaryOperator)
    | some f => do
      let a ← g.eval env left
      let b ← g.eval env right
      f a b (← fresh)
  | .relation first rest => do return .bool (← evalRelations g env (← g.eval env first) rest)
  | .choice test ifTrue ifFalse => do if (← g.eval env test).truth then g.eval env ifTrue else g.eval env ifFalse
  | .access value name => do
    checkAttribute name
    attributeOf g.scene (← g.eval env value) name
  | .call callee args named => do
    let f ← g.eval env callee
    if !f.isCallable then throw (.refused .unsafeCall)
    let args ← args.mapM (g.eval env)
    let named ← named.mapM fun (name, t) => do return (name, ← g.eval env t)
    callValue g f args named
  | .item value index => do
    let v ← g.eval env value
    let i ← g.eval env index
    attempt (v.item i (← fresh))
  | .slice value start stop step => do
    let v ← g.eval env value
    let start ← evalOption g env start
    let stop ← evalOption g env stop
    let step ← evalOption g env step
    attempt (v.slice start stop step (← fresh))
  | .list items => do return .list (← items.mapM (g.eval env)) (← fresh)
  | .tuple items => do return .ofItems (← items.mapM (g.eval env)) (← fresh)
  | .set items => do return .setOf (← items.foldlM (fun vs t => evalItem g t vs env) []) 0 (← fresh)
  | .dict entries => do return .dict (← entries.foldlM (fun es (k, v) => evalEntry g k v es env) []) (← fresh)
  | .unpacking => throw (.refused .dictUnpacking)
  | .generator element clauses => newGenerator element clauses env
  | .listOf element clauses => do
    let items ← comprehend g env clauses [] fun vs scope => do return (← g.eval scope element) :: vs
    return .list items.reverse (← fresh)
  | .setOf element clauses => do return .setOf (← comprehend g env clauses [] (evalItem g element)) 0 (← fresh)
  | .dictOf key value clauses => do return .dict (← comprehend g env clauses [] (evalEntry g key value)) (← fresh)
  | .starred _ => throw (.refused (.node "Starred"))
  | .unsupported node => throw (.refused (.node node))

mutual

def eval (s : Scene) : Nat → Environment → Term → EvalM Value
  | 0, _, _ => fail .depth
  | limit + 1, env, t => evalTerm ⟨s, limit, eval s limit, next s limit⟩ env t

def next (s : Scene) : Nat → Nat → EvalM (Option Value)
  | 0, _ => fail .depth
  | limit + 1, n => nextItem ⟨s, limit, eval s limit, next s limit⟩ n

end

def maxSteps : Nat := Nat.pow 10 12

structure Written where
  text : String
  term : Term

namespace Written

def ofText (h : Host) (text : String) : Except Failure Written :=
  let text := Text.strip text
  if text.toList.contains '\x00' then .error .nullCharacter
  else
    match h.breakdown? text with
    | some b => .error (.broken b)
    | none =>
      match Term.ofText? text with
      | some term => .ok ⟨text, term⟩
      | none => .error (.invalid text (h.complaint text))

def value (h : Host) (s : Scene) (env : Environment) (w : Written) : Except Failure Value :=
  match (eval s maxSteps env w.term).run {} with
  | .ok (v, _) => .ok v
  | .error (.refused r) => .error (.refused r)
  | .error (.failed e) => .error (.failed w.text e (h.detail w.text env e))

end Written

/-- The value of the formula that a text writes. A text of blanks is true. -/
def evaluate (h : Host) (s : Scene) (env : Environment) (text : String) : Except Failure Value :=
  if (Text.strip text).isEmpty then .ok (.bool true) else (Written.ofText h text).bind (·.value h s env)

end AlLint.Formula
