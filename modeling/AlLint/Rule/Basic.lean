import AlLint.Flow.Walk
import AlLint.Formula.Failure
import AlLint.Rule.Message
import AlLint.Rule.Severity

/-!
# Rules

A rule looks at nodes of some kinds and finds places to complain about. It may fail; what it found before that still
counts.
-/

namespace AlLint

/-- A place that a rule complains about, and the values for its message. A message of its own takes the place of
the rule's. -/
structure Finding where
  span : Span
  args : List Document := []
  message : Option String := none

/-- What a rule cannot do with the value of an option, because of the value's type. -/
inductive Misfit where
  | compare (type : String)
  | add (type : String)
  | list (type : String)
  | ending (type : String)
  | endings (type : String)
deriving DecidableEq, Repr

def Misfit.message : Misfit → String
  | .compare type => s!"'>' not supported between instances of 'int' and '{type}'"
  | .add type =>
    if type = "str" ∨ type = "list" then s!"can only concatenate {type} (not \"int\") to {type}"
    else s!"unsupported operand type(s) for +: '{type}' and 'int'"
  | .list type => s!"'{type}' object is not iterable"
  | .ending type => s!"endswith first arg must be str or a tuple of str, not {type}"
  | .endings type => s!"tuple for endswith must only contain str, not {type}"

inductive Fault where
  | formula (f : Formula.Failure)
  | numeral (o : Oversized)
  | longNumber
  | option (m : Misfit)
  | broken (b : Breakdown)
deriving DecidableEq, Repr

def Fault.ofUnfilled : Message.Unfilled → Fault
  | .place o => .numeral o
  | .value => .longNumber

/-- What a rule has to say about a node: findings, and then perhaps a fault. -/
structure Verdict where
  findings : List Finding := []
  fault : Option Fault := none

structure Rule where
  id : String
  category : String
  severity : String
  kinds : List String
  message : String
  check : SourceFile → Sight → Verdict
  description : String := ""
  options : Keyed Document := []
  custom : Bool := false

def Rule.render (r : Rule) (f : Finding) : Except Fault String :=
  match f.message with
  | some message => .ok message
  | none => (Message.render r.message f.args).mapError .ofUnfilled

def ruleCategories : List String := [
  "Architecture", "Performance", "CodeQuality", "TransactionScope", "DataIntegrity"]

/-- A rule of the program itself, which no registry holds. -/
structure EngineRule where
  id : String
  category : String
  severity : String

namespace EngineRule

def syntaxError : EngineRule := ⟨"syntax-error", "Syntax", "error"⟩

def internalError : EngineRule := ⟨"internal-error", "Engine", "warning"⟩

def ioError : EngineRule := ⟨"io-error", "Engine", "error"⟩

def all : List EngineRule := [syntaxError, internalError, ioError]

def has (id : String) : Bool := all.any (·.id == id)

end EngineRule

end AlLint
