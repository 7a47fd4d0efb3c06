import AlLint.Rule.Severity

/-!
# Diagnostics

Complaints with their place, in an order that does not depend on how they were found, and each place and rule
only once.
-/

namespace AlLint

structure Diagnostic where
  ruleId : String
  severity : String
  category : String
  path : String
  line : Int
  column : Int
  message : String
deriving DecidableEq, Repr

namespace Diagnostic

def order (a b : Diagnostic) : Ordering :=
  (compare a.path b.path).then ((compare a.line b.line).then ((compare a.column b.column).then
    ((compare a.ruleId b.ruleId).then (compare a.message b.message))))

def sameKey (a b : Diagnostic) : Bool :=
  a.ruleId == b.ruleId && a.path == b.path && a.line == b.line && a.column == b.column

/-- Keeps the first diagnostic of each rule and place. `seen` are those that were kept. -/
def firstOfEach (seen : List Diagnostic) : List Diagnostic → List Diagnostic
  | [] => []
  | d :: ds => if seen.any (sameKey d) then firstOfEach seen ds else d :: firstOfEach (d :: seen) ds

def finalize (ds : List Diagnostic) : List Diagnostic :=
  firstOfEach [] (ds.mergeSort fun a b => (order a b).isLE)

/-- How many diagnostics of each severity there are. The known severities come first, whether there are any or not. -/
def counts (ds : List Diagnostic) : List (String × Nat) :=
  let others := ((ds.map severity).filter fun s => !Severity.labels.contains s).eraseDups
  (Severity.labels ++ others).map fun s => (s, ds.countP (·.severity == s))

end Diagnostic

end AlLint
