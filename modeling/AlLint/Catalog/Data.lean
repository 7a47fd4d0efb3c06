import AlLint.Catalog.Basic

/-!
# Rules about data and transactions

Fields with a fixed list of values, and commits where they split a transaction.
-/

namespace AlLint.Catalog

def optionField (f : Field) : List Finding :=
  if (f.type.map TypeRef.isOption).getD false then [found f.span [f.name]] else []

def enumPreference : Rule where
  id := "enum-preference"
  category := "DataIntegrity"
  severity := "warning"
  kinds := ["field"]
  message := "Field %1 is declared as Option; declare an Enum so values stay extensible"
  check := onField optionField
  description := "Option fields that should be enums."

def splittingCommit (c : Context) (call : Call) : List Finding :=
  if call.isGlobal && call.method == "commit" then
    if c.inLoop then [found call.span ["a loop"]]
    else if c.inTableTrigger then
      [found call.span ["table trigger " ++ (c.routine.map Routine.name).getD "trigger"]]
    else []
  else []

def commitInLoop : Rule where
  id := "commit-in-loop"
  category := "TransactionScope"
  severity := "error"
  kinds := ["call"]
  message := "Commit inside %1 splits the transaction"
  check := onCall splittingCommit
  description := "Explicit commits inside loops and table triggers."

end AlLint.Catalog
