import AlLint.Rule.Registry

/-!
# Settings

What a run changes about the rules: which ones are off, how grave they are, and their options.
-/

namespace AlLint

structure RuleSettings where
  enabled : Bool := true
  severity : Option String := none
  options : Keyed Document := []
deriving Inhabited

structure Settings where
  rules : Keyed RuleSettings := []
  namePrefix : Option String := none

namespace Settings

/-- Whether a rule is on. Rules are on if nothing is set. -/
def isEnabled (s : Settings) (id : String) : Bool := ((s.rules.get? id).map RuleSettings.enabled).getD true

def severityFor (s : Settings) (id default : String) : String :=
  (((s.rules.get? id).bind RuleSettings.severity).filter (· ≠ "")).getD default

def optionsFor (s : Settings) (r : Rule) : Keyed Document :=
  match s.rules.get? r.id with
  | some rs => r.options.insertAll rs.options
  | none => r.options

def optionsOf (s : Settings) (reg : Registry) : Options := reg.sorted.map fun r => (r.id, s.optionsFor r)

end Settings

end AlLint
