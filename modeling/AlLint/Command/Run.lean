import AlLint.Analysis.Run
import AlLint.Command.Setup

/-!
# Carrying out requests

What a request comes to: a text for the standard output, lines for the user, an exit status and perhaps a file
to write.
-/

namespace AlLint.Command

open Files (Disk Obstacle Tree)

structure Output where
  text : String := ""
  notices : List Notice := []
  status : Nat

def Output.failed (message : String) : Output :=
  { notices := [.remark message], status := Report.Outcome.incomplete.status }

def ruleLine (r : Rule) : String :=
  String.intercalate "\t" [r.id, r.category, r.severity, String.intercalate "," r.kinds, r.description] ++ "\n"

def listRules (reg : Registry) : Output :=
  { text := String.join (reg.sorted.map ruleLine), status := Report.Outcome.clean.status }

def countOf (s : Severity) (ds : List Diagnostic) : Nat := ((Diagnostic.counts ds).lookup s.label).getD 0

def summary (run : Run) : String :=
  let count (s : Severity) : Nat := countOf s run.diagnostics
  s!"{run.filesCompleted} of {run.filesTotal} file(s) analyzed: " ++
    s!"{count .error} error(s), {count .warning} warning(s), {count .info} info."

/-- The file that the report of a run goes to, with its text. None if it goes to the standard output. -/
def reportFile? (r : AnalyzeRequest) (run : Run) : Option (String × String) :=
  (given? r.out).map fun path => (path, r.format.render run.diagnostics)

def statusOf (r : AnalyzeRequest) (run : Run) : Nat :=
  (Report.outcome r.failOn.label run.completed run.diagnostics).status

def printed (r : AnalyzeRequest) (run : Run) : Output :=
  { text := r.format.render run.diagnostics
    notices := run.notices ++ [.remark (summary run)]
    status := statusOf r run }

def written (r : AnalyzeRequest) (run : Run) (path : String) : Output :=
  { notices := run.notices ++ [.written run.diagnostics.length path, .remark (summary run)]
    status := statusOf r run }

def unwritten (run : Run) (path : String) (o : Obstacle) : Output :=
  let last := Output.failed s!"Could not write {path}: {o.message path}"
  { last with notices := run.notices ++ last.notices }

def analyze (h : Host) (disk : Disk) (r : AnalyzeRequest) : Except SetupError Run := do
  let (reg, settings) ← setup h disk r
  .ok (Run.ofPaths reg settings disk r.paths)

/-- The output for something wrong with what a run is set up from. None if the error is one that is not foreseen. -/
def SetupError.output? (e : SetupError) : Option Output := e.message?.map Output.failed

def recover (result : Except SetupError (Output × Tree)) (tree : Tree) : Except SetupError (Output × Tree) :=
  match result with
  | .ok done => .ok done
  | .error e =>
    match e.output? with
    | some o => .ok (o, tree)
    | none => .error e

/-- Carries out a request in a folder. Gives the output and the folder as it is afterwards. -/
def perform (h : Host) (tree : Tree) : Request → Except SetupError (Output × Tree)
  | .rules files => recover ((rulesOf h (.ofTree tree) files).map fun reg => (listRules reg, tree)) tree
  | .analyze r =>
    let done (run : Run) : Output × Tree :=
      match reportFile? r run with
      | none => (printed r run, tree)
      | some (path, text) =>
        match tree.write path text.toUTF8 with
        | .ok after => (written r run path, after)
        | .error o => (unwritten run path o, tree)
    recover ((analyze h (.ofTree tree) r).map done) tree

end AlLint.Command
