import AlLint.Catalog.Basic
import AlLint.Catalog.Option
import AlLint.Syntax.Logic

/-!
# Rules about architecture

Tables do not talk to the user, and pages do not hold business rules.
-/

namespace AlLint.Catalog

def userCallInTable (c : Context) (call : Call) : List Finding :=
  if c.inTableTrigger && c.isUserCall call then
    let trigger := (c.routine.map Routine.name).getD ""
    let place :=
      match c.owner.filter (· ≠ "") with
      | some owner => owner ++ "." ++ trigger
      | none => trigger
    [found call.span [call.calleeText, place]]
  else []

def uiInTable : Rule where
  id := "ui-in-table"
  category := "Architecture"
  severity := "warning"
  kinds := ["call"]
  message := "%1 in table trigger %2; user interaction belongs on pages, not in the data layer"
  check := onCall userCallInTable
  description := "User-interface calls inside table and field triggers."

/-- Errors raised in an action whose trigger holds more business logic than allowed. -/
def logicInAction (c : Context) (s : Stmt) : Except Misfit (List Finding) :=
  match c.objectKind, c.place, c.routine with
  | "page", .actionTrigger, some routine =>
    let logic := businessLogic routine.body
    let action := (c.owner.filter (· ≠ "")).getD routine.name
    (isAbove logic (c.option "rule-in-page" "max_logic_statements" (.int 0))).map fun above =>
      if above then [found s.span [action, toString logic]] else []
  | _, _, _ => .ok []

def ruleInPage : Rule where
  id := "rule-in-page"
  category := "Architecture"
  severity := "warning"
  kinds := ["error"]
  message := "Error raised in action %1 after %2 business-logic statement(s); move the rule into a codeunit"
  check := onStmtWith logicInAction
  description := "Business validation written directly in page action triggers."
  options := [("max_logic_statements", .int 0)]

end AlLint.Catalog
