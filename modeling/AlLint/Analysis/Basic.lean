import AlLint.Declaration.Build
import AlLint.Report.Diagnostic
import AlLint.Settings.Basic

/-!
# Analysing a file

Every node of a file is shown once to every rule that wants to see its kind, with the context at that place. What a
rule finds becomes diagnostics. A rule that fails gives a diagnostic about itself, and the others go on.
-/

namespace AlLint

inductive Notice where
  | ruleFault (rule kind path : String) (span : Span) (fault : Fault)
  | fileFault (path : String) (fault : Fault)
  | unreadable (path : String)
  | missing (path : String)
  | written (count : Nat) (path : String)
  | remark (message : String)

def Fault.kind : Fault → String
  | .formula .nullCharacter => "ValueError"
  | .formula (.broken b) | .broken b => b.kind
  | .formula _ => "ExpressionEvalError"
  | .numeral _ | .longNumber => "ValueError"
  | .option _ => "TypeError"

def Fault.message : Fault → String
  | .formula f => f.message
  | .numeral o => o.message
  | .longNumber => longNumberMessage
  | .option m => m.message
  | .broken b => b.message

def Fault.text (f : Fault) : String := f.kind ++ ": " ++ f.message

def Notice.text : Notice → String
  | .ruleFault rule kind path span fault =>
    s!"[alnomic] Rule '{rule}' failed on {kind} at {path}:{span.line}:{span.column} ({fault.text})."
  | .fileFault path fault => s!"[alnomic] Analysis of {path} failed ({fault.text})."
  | .unreadable path => s!"[alnomic] Could not read {path}"
  | .missing path => s!"[alnomic] Path not found: {path}"
  | .written count path => s!"[alnomic] Wrote {count} diagnostic(s) to {path}"
  | .remark message => s!"[alnomic] {message}"

namespace Analysis

/-- What comes of an analysis: diagnostics and notices, each in the order in which they arise. -/
structure Result where
  diagnostics : List Diagnostic := []
  notices : List Notice := []

def Result.append (a b : Result) : Result := ⟨a.diagnostics ++ b.diagnostics, a.notices ++ b.notices⟩

def engineDiagnostic? (settings : Settings) (rule : EngineRule) (path : String) (line column : Nat)
    (message : String) : Option Diagnostic :=
  if settings.isEnabled rule.id then
    some { ruleId := rule.id, severity := settings.severityFor rule.id rule.severity, category := rule.category
           path, line, column, message }
  else none

def ruleFault (settings : Settings) (path : String) (rule : Rule) (node : Node) (fault : Fault) : Result :=
  let span := node.span
  let message := s!"rule '{rule.id}' failed on {node.kind}: {fault.text}"
  { diagnostics :=
      (engineDiagnostic? settings .internalError path span.line span.column message).toList
    notices := [.ruleFault rule.id node.kind path span fault] }

def report (settings : Settings) (path : String) (rule : Rule) : List Finding → List Diagnostic × Option Fault
  | [] => ([], none)
  | f :: rest =>
    match rule.render f with
    | .error fault => ([], some fault)
    | .ok message =>
      let d : Diagnostic :=
        { ruleId := rule.id, severity := settings.severityFor rule.id rule.severity, category := rule.category
          path, line := f.span.line, column := f.span.column, message }
      let (more, fault) := report settings path rule rest
      (d :: more, fault)

def runRule (settings : Settings) (file : SourceFile) (sight : Sight) (rule : Rule) : Result :=
  let verdict := rule.check file sight
  let (diagnostics, broken) := report settings file.path rule verdict.findings
  match broken.or verdict.fault with
  | none => { diagnostics }
  | some fault => Result.append { diagnostics } (ruleFault settings file.path rule sight.node fault)

/-- What comes of showing a node to all rules that want to see its kind. In a silent pass they do not look. -/
def dispatch (reg : Registry) (settings : Settings) (file : SourceFile) (sight : Sight) : Result :=
  if sight.active then
    let rules := (reg.forKind sight.node.kind).filter fun r => settings.isEnabled r.id
    rules.foldl (fun acc r => acc.append (runRule settings file sight r)) {}
  else {}

def contextFor (settings : Settings) (options : Options) (d : Declaration) (place : Place)
    (routine : Option Routine) (owner : Option String) : Context :=
  { declaration := d, place, routine, owner
    symbols := Symbols.ofScope d ((routine.map Routine.parameters).getD []) ((routine.map Routine.vars).getD [])
    namePrefix := settings.namePrefix, options }

def routineSights (fresh : Place → Option Routine → Option String → Context) (place : Place)
    (owner : Option String) (r : Routine) : List Sight :=
  let c := fresh place (some r) owner
  ⟨.routine r, c⟩ :: r.vars.map (fun v => ⟨.var v, c⟩) ++ (Stmt.walkAll r.body c).2

def triggerSights (fresh : Place → Option Routine → Option String → Context) (place : Place)
    (owner : Option String) (triggers : Triggers) : List Sight :=
  triggers.values.flatMap fun t => routineSights fresh place owner (.trigger t)

def contentSights (fresh : Place → Option Routine → Option String → Context) (c : Context) :
    Contents → List Sight
  | .table fields keys modifications =>
    fields.map (fun f => ⟨.field f, c⟩) ++
      (fields ++ modifications).flatMap (fun f => triggerSights fresh .fieldTrigger (some f.name) f.triggers) ++
      keys.map (fun k => ⟨.key k, c⟩)
  | .processUnit => []
  | .page fields actions =>
    fields.flatMap (fun f =>
      ⟨.pageField f, c⟩ :: triggerSights fresh .controlTrigger (some f.name) f.triggers) ++
      actions.flatMap fun a => ⟨.action a, c⟩ :: triggerSights fresh .actionTrigger (some a.name) a.triggers
  | .enumeration values => values.map fun v => ⟨.enumValue v, c⟩

def declarationSights (settings : Settings) (options : Options) (d : Declaration) : List Sight :=
  let fresh := contextFor settings options d
  let c := fresh .declaration none none
  ⟨.declaration d, c⟩ :: d.vars.map (fun v => ⟨.var v, c⟩) ++ contentSights fresh c d.contents ++
    triggerSights fresh .trigger none d.triggers ++
    d.procedures.flatMap fun p => routineSights fresh .procedure none (.procedure p)

def sights (reg : Registry) (settings : Settings) (file : SourceFile) : List Sight :=
  file.declarations.flatMap (declarationSights settings (settings.optionsOf reg))

def check (reg : Registry) (settings : Settings) (file : SourceFile) : Result :=
  (sights reg settings file).foldl (fun acc s => acc.append (dispatch reg settings file s)) {}

def issueDiagnostics (settings : Settings) (path : String) (issues : List Issue) : List Diagnostic :=
  issues.filterMap fun i =>
    engineDiagnostic? settings .syntaxError path i.span.line i.span.column i.message

def fileFault (settings : Settings) (path : String) (fault : Fault) : Result :=
  { diagnostics := (engineDiagnostic? settings .internalError path 1 1 s!"analysis failed: {fault.text}").toList
    notices := [.fileFault path fault] }

def ofText (reg : Registry) (settings : Settings) (path text : String) : Result :=
  match SourceFile.ofText path text with
  | .error o => fileFault settings path (.numeral o)
  | .ok (file, issues) =>
    Result.append { diagnostics := issueDiagnostics settings path issues } (check reg settings file)

end Analysis

end AlLint
