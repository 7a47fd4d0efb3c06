import AlLint.Rule.Basic

/-!
# Registries

A registry holds rules by id, and for each kind of node the rules that look at it, in the order of their ids.
-/

namespace AlLint

inductive Rejection where
  | duplicateId (id : String)
  | unknownSeverity (id severity : String)
deriving DecidableEq, Repr

def Rejection.message : Rejection → String
  | .duplicateId id => s!"duplicate rule id '{id}'"
  | .unknownSeverity id severity => s!"rule '{id}' has unknown severity '{severity}'"

structure Registry where
  rules : Keyed Rule := []
  byKind : Keyed (List Rule) := []

namespace Registry

/-- Puts a rule into a list that is sorted by id, after the rules with smaller or equal ids. -/
def insertById (r : Rule) : List Rule → List Rule
  | [] => [r]
  | s :: rest => if r.id < s.id then r :: s :: rest else s :: insertById r rest

def index (r : Rule) (byKind : Keyed (List Rule)) (kind : String) : Keyed (List Rule) :=
  byKind.insert kind (insertById r ((byKind.get? kind).getD []))

/-- Adds a rule. Its id must be new, and its severity one of those that there are. -/
def register (reg : Registry) (r : Rule) : Except Rejection Registry :=
  if reg.rules.has r.id || EngineRule.has r.id then .error (.duplicateId r.id)
  else if !Severity.labels.contains r.severity then .error (.unknownSeverity r.id r.severity)
  else .ok { rules := reg.rules.insert r.id r, byKind := r.kinds.foldl (index r) reg.byKind }

def ofRules (rules : List Rule) : Except Rejection Registry := rules.foldlM register {}

def copy (reg : Registry) : Except Rejection Registry := ofRules reg.rules.values

def get? (reg : Registry) (id : String) : Option Rule := reg.rules.get? id

def sorted (reg : Registry) : List Rule := reg.rules.values.foldl (fun acc r => insertById r acc) []

def ids (reg : Registry) : List String := reg.sorted.map Rule.id

def size (reg : Registry) : Nat := reg.rules.length

def forKind (reg : Registry) (kind : String) : List Rule := (reg.byKind.get? kind).getD []

/-- The description of a rule: the one that is given, or the first line of a longer explanation. None if the
explanation has only blanks. -/
def summary? (description : String) (explanation : Option String) : Option String :=
  match explanation with
  | none => some description
  | some text =>
    if description ≠ "" || text = "" then some description else (Text.lines (Text.strip text)).head?

end Registry

end AlLint
