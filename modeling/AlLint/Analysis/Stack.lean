import AlLint.Analysis.Basic
import AlLint.Catalog.Registry

/-!
# Analysing on a stack of limited depth

Reading a text, walking through what it declares and the checks of rules all go down into what is nested. A
stack that is not deep enough overflows on the way. What happens then depends on where: a text that is not read
gives a fault of its file, a rule that gives up gives one of its own, and a walk that breaks off keeps what has
come of it so far.
-/

namespace AlLint

/-- A stack, and where it overflows: whether a text is read, after how many visits the walk through it breaks
off, and after how many findings a rule gives up at a node. On a text with few enough tokens there is room for
all that the program does by itself. -/
structure Stack where
  overflow : Breakdown
  reads : String → Bool
  walks : String → Option Nat
  checks : String → Rule → Sight → Option Nat
  room : Nat
  reads_short : ∀ text, (Scan.ofText text).tokens.length ≤ room → reads text = true
  walks_short : ∀ text, (Scan.ofText text).tokens.length ≤ room → walks text = none
  checks_short : ∀ text, (Scan.ofText text).tokens.length ≤ room → ∀ r ∈ Catalog.rules, ∀ sight,
    checks text r sight = none

namespace Stack

def fault (stack : Stack) : Fault := .broken stack.overflow

/-- A stack that does not overflow. -/
def ample : Stack where
  overflow := ⟨"RecursionError", "maximum recursion depth exceeded"⟩
  reads := fun _ => true
  walks := fun _ => none
  checks := fun _ _ _ => none
  room := 0
  reads_short := fun _ _ => rfl
  walks_short := fun _ _ => rfl
  checks_short := fun _ _ _ _ _ => rfl

/-- Reads a text, unless the stack overflows. -/
def read {α : Type} (stack : Stack) (text : String) (result : Except Oversized α) : Except Fault α :=
  if stack.reads text then result.mapError .numeral else .error stack.fault

/-- A rule that gives up where the stack overflows. What it has found by then counts. -/
def limit (stack : Stack) (text : String) (rule : Rule) : Rule :=
  { rule with
    check := fun file sight =>
      match stack.checks text rule sight with
      | none => rule.check file sight
      | some n => { findings := (rule.check file sight).findings.take n, fault := some stack.fault } }

end Stack

def SyntaxTree.within (stack : Stack) (text : String) : Except Fault SyntaxTree :=
  stack.read text (SyntaxTree.ofText text)

namespace Analysis

/-- Each node of a file with each rule that looks at it, in turn. -/
def visits (reg : Registry) (settings : Settings) (file : SourceFile) : List (Sight × Rule) :=
  ((sights reg settings file).filter Sight.active).flatMap fun s =>
    ((reg.forKind s.node.kind).filter fun r => settings.isEnabled r.id).map (s, ·)

def checkWithin (stack : Stack) (reg : Registry) (settings : Settings) (file : SourceFile) (text : String) : Result :=
  let run (visits : List (Sight × Rule)) : Result :=
    visits.foldl (fun acc v => acc.append (runRule settings file v.1 (stack.limit text v.2))) {}
  let all := visits reg settings file
  match stack.walks text with
  | none => run all
  | some n => (run (all.take n)).append (fileFault settings file.path stack.fault)

def within (stack : Stack) (reg : Registry) (settings : Settings) (path text : String) : Result :=
  match stack.read text (SourceFile.ofText path text) with
  | .error fault => fileFault settings path fault
  | .ok (file, issues) =>
    Result.append { diagnostics := issueDiagnostics settings path issues } (checkWithin stack reg settings file text)

end Analysis

end AlLint
