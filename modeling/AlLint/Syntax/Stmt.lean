import AlLint.Syntax.Expr

/-!
# Statements

The statements of the language. A branch, a loop body and a block are lists of statements; a block that is
the only statement of a branch is not kept.
-/

namespace AlLint

inductive AssignOp where
  | set
  | add
  | subtract
  | multiply
  | divide
deriving DecidableEq, Repr

def AssignOp.text : AssignOp → String
  | .set => ":="
  | .add => "+="
  | .subtract => "-="
  | .multiply => "*="
  | .divide => "/="

inductive Jump where
  | leave
  | next
deriving DecidableEq, Repr

def Jump.text : Jump → String
  | .leave => "break"
  | .next => "continue"

structure Branch (body : Type) where
  values : List Expr
  body : List body
  span : Span
deriving Repr

inductive Stmt where
  | assignment (target : Expr) (op : AssignOp) (value : Expr) (span : Span)
  | call (call : Call) (span : Span)
  /-- A call of `Error`, which does not come back. -/
  | error (call : Call) (span : Span)
  | ifThen (condition : Expr) (thenBody : List Stmt) (elseBody : Option (List Stmt)) (span : Span)
  | caseOf (selector : Expr) (branches : List (Branch Stmt)) (elseBody : Option (List Stmt)) (span : Span)
  | repeatUntil (body : List Stmt) (condition : Expr) (span : Span)
  | whileDo (condition : Expr) (body : List Stmt) (span : Span)
  | forTo (counter : Expr) (first last : Expr) (down : Bool) (body : List Stmt) (span : Span)
  | forEach (item : Expr) (iterable : Expr) (body : List Stmt) (span : Span)
  | exit (value : Option Expr) (span : Span)
  | block (body : List Stmt) (span : Span)
  | withDo (target : Expr) (body : List Stmt) (span : Span)
  | jump (jump : Jump) (span : Span)
deriving Repr

namespace Stmt

def span : Stmt → Span
  | assignment _ _ _ s | call _ s | error _ s | ifThen _ _ _ s | caseOf _ _ _ s | repeatUntil _ _ s
  | whileDo _ _ s | forTo _ _ _ _ _ s | forEach _ _ _ s | exit _ s | block _ s | withDo _ _ s
  | jump _ s => s

def kind : Stmt → String
  | assignment .. => "assignment"
  | call .. => "call_statement"
  | error .. => "error"
  | ifThen .. => "if"
  | caseOf .. => "case"
  | repeatUntil .. => "repeat"
  | whileDo .. => "while"
  | forTo .. => "for"
  | forEach .. => "foreach"
  | exit .. => "exit"
  | block .. => "block"
  | withDo .. => "with"
  | jump .. => "jump"

mutual

/-- A statement and the statements inside it, outermost first and in source order. -/
def nested : Stmt → List Stmt
  | s@(ifThen _ thenBody elseBody _) => s :: (allNested thenBody ++ elseNested elseBody)
  | s@(caseOf _ branches elseBody _) => s :: (branchesNested branches ++ elseNested elseBody)
  | s@(repeatUntil body _ _) => s :: allNested body
  | s@(whileDo _ body _) => s :: allNested body
  | s@(forTo _ _ _ _ body _) => s :: allNested body
  | s@(forEach _ _ body _) => s :: allNested body
  | s@(block body _) => s :: allNested body
  | s@(withDo _ body _) => s :: allNested body
  | s@(assignment ..) => [s]
  | s@(call ..) => [s]
  | s@(error ..) => [s]
  | s@(exit ..) => [s]
  | s@(jump ..) => [s]

def allNested : List Stmt → List Stmt
  | [] => []
  | s :: rest => nested s ++ allNested rest

def elseNested : Option (List Stmt) → List Stmt
  | none => []
  | some body => allNested body

def branchesNested : List (Branch Stmt) → List Stmt
  | [] => []
  | ⟨_, body, _⟩ :: rest => allNested body ++ branchesNested rest

end

def isLoop : Stmt → Bool
  | repeatUntil .. | whileDo .. | forTo .. | forEach .. => true
  | _ => false

end Stmt

end AlLint
