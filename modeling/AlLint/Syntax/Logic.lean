import AlLint.Syntax.Stmt

/-!
# Business logic

How much a body decides and computes, as opposed to asking the user.
-/

namespace AlLint

def Expr.isPrompt : Expr → Bool
  | .unary .not operand _ => operand.isPrompt
  | .call (.name n _ _) _ _ _ => ["confirm", "strmenu"].contains (Text.lower n)
  | _ => false

/-- Whether a statement is business logic: a decision that is not only a prompt, a loop or an assignment. -/
def Stmt.isLogic : Stmt → Bool
  | .ifThen condition _ _ _ => !condition.isPrompt
  | .caseOf selector _ _ _ => !selector.isPrompt
  | .repeatUntil .. | .whileDo .. | .forTo .. | .forEach .. | .assignment .. => true
  | _ => false

def businessLogic (body : List Stmt) : Nat := (Stmt.allNested body).countP Stmt.isLogic

end AlLint
