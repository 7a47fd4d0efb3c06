import AlLint.Catalog.Basic

/-!
# Rules about performance

Work that is repeated in loops, locks that are not needed, and records that are loaded in part.
-/

namespace AlLint.Catalog

def repeatedLookup (c : Context) (call : Call) : List Finding :=
  if c.inLoop && call.method == "get" then
    match c.recordReceiver? call with
    | some record =>
      if c.loopEntryLoad record != Load.full.label then [found call.span [call.receiverText]] else []
    | none => []
  else []

def lookupInLoop : Rule where
  id := "lookup-in-loop"
  category := "Performance"
  severity := "warning"
  kinds := ["call"]
  message := "%1.Get inside a loop; load the record before the loop or use SetLoadFields with a join"
  check := onCall repeatedLookup
  description := "Record lookups repeated on every loop iteration."

def repeatedCalculation (c : Context) (call : Call) : List Finding :=
  if c.inLoop && ["calcfields", "calcsums"].contains call.method && (c.recordReceiver? call).isSome then
    [found call.span [call.receiverText, call.methodText]]
  else []

def calcFieldsInLoop : Rule where
  id := "calc-fields-in-loop"
  category := "Performance"
  severity := "warning"
  kinds := ["call"]
  message := "%1.%2 inside a loop; call %1.SetAutoCalcFields before the loop instead"
  check := onCall repeatedCalculation
  description := "FlowField calculation once per iteration."

def unguardedChange (c : Context) (call : Call) : List Finding :=
  if ["deleteall", "modifyall"].contains call.method then
    match c.recordReceiver? call with
    | some record =>
      if c.isTemporary record || c.isChecked record then []
      else [found call.span [call.receiverText, call.methodText]]
    | none => []
  else []

def unguardedBulkOp : Rule where
  id := "unguarded-bulk-op"
  category := "Performance"
  severity := "warning"
  kinds := ["call"]
  message := "%1.%2 without a preceding %1.IsEmpty check; bulk operations lock the table even when nothing matches"
  check := onCall unguardedChange
  description := "DeleteAll/ModifyAll not guarded by IsEmpty on the same filters."

def partialWrite (c : Context) (call : Call) : List Finding :=
  if ["insert", "modify", "delete", "rename", "transferfields"].contains call.method then
    match c.recordReceiver? call with
    | some record =>
      if c.load record == Load.part.label then [found call.span [call.receiverText, call.methodText]] else []
    | none => []
  else []

def partialLoadWriteConflict : Rule where
  id := "partial-load-write-conflict"
  category := "Performance"
  severity := "warning"
  kinds := ["call"]
  message := "%1.%2 on a record loaded with SetLoadFields; fields outside the load set are written back as loaded"
  check := onCall partialWrite
  description := "Writes on partially loaded records."

def countCall? (c : Context) (e : Expr) : Option Call :=
  (e.asCall?).filter fun call => call.method == "count" && (c.recordReceiver? call).isSome

def isZero : Expr → Bool
  | .constant value .number _ => value == "0"
  | _ => false

def countBesideZero? (c : Context) (left right : Expr) : Option Call :=
  ((countCall? c left).filter fun _ => isZero right).or ((countCall? c right).filter fun _ => isZero left)

def countComparison (c : Context) : Expr → List Finding
  | .binary op left right span =>
    if [BinaryOp.equal, .notEqual, .greater, .less].contains op then
      ((countBesideZero? c left right).map fun call => found span [call.receiverText]).toList
    else []
  | _ => []

def countForExistence : Rule where
  id := "count-for-existence"
  category := "Performance"
  severity := "warning"
  kinds := ["binary"]
  message := "%1.Count compared with 0; use %1.IsEmpty to test for existence"
  check := fun _ s =>
    match s.node with
    | .expr e => { findings := countComparison s.context e }
    | _ => {}
  description := "Counting records only to learn whether any exist."

end AlLint.Catalog
