import AlLint.Formula.Item

/-!
# Evaluation with a memory

An evaluation counts the values that it makes, so that each gets a mark of its own, and keeps its generators. A
generator computes its items only when they are asked for, and gives each of them once: whoever goes through it
goes on where the last one stopped.
-/

namespace AlLint.Formula

/-- The items that something still has: those of a list, or those of the generator with some number. -/
inductive Source where
  | items (rest : List Value)
  | generator (number : Nat)

/-- A clause that is being gone through: the items that are left, what names stand for outside of it, and the
clauses inside of it. -/
structure Loop where
  source : Source
  env : Environment
  clause : Clause Term
  inner : List (Clause Term)

/-- A generator: before its first item, between two items with the innermost clause first, or after the last one. -/
inductive Generator where
  | waiting (element : Term) (clauses : List (Clause Term)) (env : Environment)
  | running (element : Term) (loops : List Loop)
  | finished

structure Memory where
  steps : Nat := 0
  generators : Array Generator := #[]

abbrev EvalM := StateT Memory (Except Stop)

def fresh : EvalM Mark := modifyGet fun s => (.made s.steps, { s with steps := s.steps + 1 })

def attempt {α : Type} : Except Mishap α → EvalM α
  | .ok a => pure a
  | .error e => throw (.failed e)

def fail {α : Type} (e : Mishap) : EvalM α := throw (.failed e)

/-- How an evaluation goes on: with the value of a formula, and with the next item of a generator. What repeats
something does so less than `limit` times. -/
structure Engine where
  scene : Scene
  limit : Nat
  eval : Environment → Term → EvalM Value
  next : Nat → EvalM (Option Value)

/-- The items of a value. Those that are made on the way get the marks inside of one. -/
def Value.source (v : Value) (m : Mark) : Except Mishap Source :=
  match v with
  | text s _ => .ok (.items (eachInside (fun c => ofText c.toString) s.toList m))
  | list items _ | tuple items _ | set items _ _ => .ok (.items items)
  | dict entries _ | mapping entries _ | view .keys entries _ => .ok (.items (entries.map Prod.fst))
  | view .values entries _ => .ok (.items (entries.map Prod.snd))
  | view .items entries _ => .ok (.items (eachInside (fun e => tuple [e.1, e.2]) entries m))
  | bytes bs _ => .ok (.items (bs.map fun b => ofInt b.toNat .only))
  | generator n => .ok (.generator n)
  | part (.hidden .builtins) _ => .error .beyond
  | _ => .error .type

def sourceOf (v : Value) : EvalM Source := do attempt (v.source (← fresh))

namespace Source

def next (g : Engine) : Source → EvalM (Option (Value × Source))
  | items [] => return none
  | items (v :: rest) => return some (v, items rest)
  | generator n => do return (← g.next n).map fun v => (v, generator n)

def foldItems {β : Type} (step : β → Value → EvalM (ForInStep β)) (b : β) : List Value → EvalM β
  | [] => return b
  | v :: rest => do
    match ← step b v with
    | .done b => return b
    | .yield b => foldItems step b rest

def foldGenerator {β : Type} (g : Engine) (n : Nat) (step : β → Value → EvalM (ForInStep β)) : Nat → β → EvalM β
  | 0, _ => fail .depth
  | limit + 1, b => do
    match ← g.next n with
    | none => return b
    | some v =>
      match ← step b v with
      | .done b => return b
      | .yield b => foldGenerator g n step limit b

def fold {β : Type} (g : Engine) (s : Source) (b : β) (step : β → Value → EvalM (ForInStep β)) : EvalM β :=
  match s with
  | items vs => foldItems step b vs
  | generator n => foldGenerator g n step g.limit b

def toList (g : Engine) : Source → EvalM (List Value)
  | items vs => return vs
  | s => do return (← s.fold g [] fun vs v => return .yield (v :: vs)).reverse

def any (g : Engine) (s : Source) (test : Value → EvalM Bool) : EvalM Bool :=
  s.fold g false fun _ v => do return if ← test v then .done true else .yield false

end Source

def itemsOf (g : Engine) (v : Value) : EvalM (List Value) := do (← sourceOf v).toList g

def isWithin {α : Type} [BEq α] (xs : List α) : List α → Bool
  | [] => xs.isEmpty
  | y :: ys => xs.isPrefixOf (y :: ys) || isWithin xs ys

def Value.contains (g : Engine) (container v : Value) : EvalM Bool :=
  match container with
  | text s _ =>
    match v with
    | text t _ => return isWithin t.toList s.toList
    | _ => fail .type
  | bytes bs _ =>
    match v with
    | bytes cs _ => return isWithin cs bs
    | _ =>
      match v.number? with
      | some (.whole i) => do return bs.contains (← attempt (byteOf i))
      | _ => fail .type
  | set .. =>
    match v with
    | set .. => return false
    | _ => attempt (allMembers [v] container)
  | dict entries _ | mapping entries _ => do return (← attempt (entryOf? entries v)).isSome
  | view .keys .. | view .items .. => attempt (allMembers [v] container)
  | _ => do (← sourceOf container).any g fun item => attempt (item.isFound v)

end AlLint.Formula
