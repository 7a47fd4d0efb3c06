import AlLint.Flow.Node

/-!
# Walking through a body

A walk follows the code of a body and notes, for every node that it comes upon, the context at that moment.
Operands come before the expression around them, and a call takes effect after its arguments. Both branches of a
condition start in the same state and meet after it.

A loop is walked twice. The first pass is silent: it only finds out what is known at the end of the body, and rules do
not look at what it comes upon. The second pass starts where the state before the loop and that state meet, so what it
notes holds in later rounds too.
-/

namespace AlLint

structure Sight where
  node : Node
  context : Context

/-- Whether rules look at it: not in a silent pass. -/
def Sight.active (s : Sight) : Bool := s.context.silent == 0

/-- A part of a walk: what it does to the context, and what there is to see on the way. -/
def Walk := Context → Context × List Sight

namespace Walk

def stay : Walk := fun c => (c, [])

def andThen (first second : Walk) : Walk := fun c =>
  let (c₁, seen₁) := first c
  let (c₂, seen₂) := second c₁
  (c₂, seen₁ ++ seen₂)

def change (f : Context → Context) : Walk := fun c => (f c, [])

def see (node : Node) : Walk := fun c => (c, [⟨node, c⟩])

/-- Walks that all start in the state of the context. They are walked one after another, and the states at their ends
meet. -/
def fork (start : FlowState) (done : List FlowState) : List Walk → Walk
  | [] => fun c => ({ c with state := FlowState.merge done.reverse }, [])
  | w :: ws => fun c =>
    let (c₁, seen₁) := w { c with state := start }
    let (c₂, seen₂) := fork start (c₁.state :: done) ws c₁
    (c₂, seen₁ ++ seen₂)

def branches (ws : List Walk) : Walk := fun c => fork c.state [] ws c

def inside (deeper : Bool) (w : Walk) : Walk := fun c =>
  let (c₁, seen) := w { c with ifDepth := c.ifDepth + deeper.toNat }
  ({ c₁ with ifDepth := c.ifDepth }, seen)

def pass (body : Walk) (entry : FlowState) : Walk := fun c =>
  let (c₁, seen) := body (c.enterLoop entry)
  (c₁.leaveLoop, seen)

/-- A loop with some body. If the body may be skipped, the state on entry is one of those after the loop. -/
def loop (skippable : Bool) (body : Walk) : Walk := fun c =>
  let before := c.state
  let (c₁, seen₁) := pass body before { c with silent := c.silent + 1 }
  let entry := FlowState.merge [before, c₁.state]
  let (c₂, seen₂) := pass body entry { c₁ with silent := c₁.silent - 1, state := entry }
  let after := if skippable then FlowState.merge [c₂.state, entry] else c₂.state
  ({ c₂ with state := after }, seen₁ ++ seen₂)

end Walk

open Walk

mutual

/-- The walk through an expression. What is called is not a node of its own if it is a name, and of a method only the
object it is called on is. -/
def Expr.walk : Expr → Walk
  | e@(.constant ..) => see (.expr e)
  | e@(.name ..) => see (.expr e)
  | e@(.member target _ _ _) => target.walk.andThen (see (.expr e))
  | e@(.scope target _ _) => target.walk.andThen (see (.expr e))
  | e@(.index target indices _) => target.walk.andThen ((walkAll indices).andThen (see (.expr e)))
  | e@(.unary _ operand _) => operand.walk.andThen (see (.expr e))
  | e@(.binary _ left right _) => left.walk.andThen (right.walk.andThen (see (.expr e)))
  | e@(.set items _) => (walkAll items).andThen (see (.expr e))
  | e@(.call callee args implicit span) =>
    let before :=
      match callee with
      | .name .. => stay
      | .member target _ _ _ => target.walk
      | .scope target _ _ => target.walk
      | other => other.walk
    before.andThen ((walkAll args).andThen ((see (.expr e)).andThen
      (change (·.applyCall ⟨callee, args, implicit, span⟩))))

def Expr.walkAll : List Expr → Walk
  | [] => stay
  | e :: es => e.walk.andThen (walkAll es)

end

def Expr.walkOption : Option Expr → Walk
  | none => stay
  | some e => e.walk

mutual

/-- The walk through a statement. An `if` that is the only statement of an else branch is `chained` and does not
count as nested. -/
def Stmt.walk (chained : Bool) : Stmt → Walk
  | s@(.assignment target op value _) =>
    (see (.stmt s)).andThen (value.walk.andThen (target.walk.andThen
      (change (·.applyAssignment target op value))))
  | s@(.call c _) => (see (.stmt s)).andThen c.toExpr.walk
  | s@(.error c _) => (see (.stmt s)).andThen (c.toExpr.walk.andThen (change (·.terminate)))
  | s@(.exit value _) => (see (.stmt s)).andThen ((Expr.walkOption value).andThen (change (·.terminate)))
  | s@(.jump ..) => see (.stmt s)
  | s@(.block body _) => (see (.stmt s)).andThen (walkAll body)
  | s@(.withDo target body _) => (see (.stmt s)).andThen (target.walk.andThen (walkAll body))
  | s@(.ifThen condition thenBody elseBody _) =>
    inside (!chained) ((see (.stmt s)).andThen (condition.walk.andThen
      (branches [walkAll thenBody, walkElse elseBody])))
  | s@(.caseOf selector cases elseBody _) =>
    (see (.stmt s)).andThen (selector.walk.andThen
      (branches (walkCases cases ++ [walkOther elseBody])))
  | s@(.repeatUntil body condition _) =>
    (see (.stmt s)).andThen (loop false ((walkAll body).andThen condition.walk))
  | s@(.whileDo condition body _) =>
    (see (.stmt s)).andThen (loop true (condition.walk.andThen (walkAll body)))
  | s@(.forTo _ first last _ body _) =>
    (see (.stmt s)).andThen (first.walk.andThen (last.walk.andThen (loop true (walkAll body))))
  | s@(.forEach _ iterable body _) =>
    (see (.stmt s)).andThen (iterable.walk.andThen (loop true (walkAll body)))

def Stmt.walkAll : List Stmt → Walk
  | [] => stay
  | s :: rest => (Stmt.walk false s).andThen (walkAll rest)

def Stmt.walkElse : Option (List Stmt) → Walk
  | none => stay
  | some [] => stay
  | some [s] => Stmt.walk true s
  | some (s :: rest) => (Stmt.walk false s).andThen (walkAll rest)

def Stmt.walkOther : Option (List Stmt) → Walk
  | none => stay
  | some body => walkAll body

def Stmt.walkCases : List (Branch Stmt) → List Walk
  | [] => []
  | ⟨values, body, _⟩ :: rest => (Expr.walkAll values).andThen (walkAll body) :: walkCases rest

end

end AlLint
