import AlLint.Analysis.Basic
import AlLint.Files.Source

/-!
# Runs

A run analyses some files. It counts as complete unless something could not be read, or time ran out before the first
file was done.
-/

namespace AlLint

structure FileResult where
  result : Analysis.Result
  ioFailed : Bool := false

def FileResult.ofSource (reg : Registry) (settings : Settings) (source : Files.Source) : FileResult :=
  match source.text? with
  | some text => ⟨Analysis.ofText reg settings source.path text, false⟩
  | none =>
    { result :=
        { diagnostics :=
            (Analysis.engineDiagnostic? settings .ioError source.path 1 1 "could not read file").toList
          notices := [.unreadable source.path] }
      ioFailed := true }

def FileResult.ofMissing (settings : Settings) (path : String) : FileResult :=
  { result :=
      { diagnostics := (Analysis.engineDiagnostic? settings .ioError path 1 1 "path does not exist").toList
        notices := [.missing path] }
    ioFailed := true }

structure Run where
  diagnostics : List Diagnostic := []
  filesTotal : Int := 0
  filesCompleted : Int := 0
  timedOut : Bool := false
  ioFailed : Bool := false
  notices : List Notice := []

namespace Run

def completed (r : Run) : Bool := !r.ioFailed && !(r.timedOut && r.filesCompleted = 0)

/-- The run that has found some paths to lead nowhere and has done some files, in the order in which they were
done. -/
def ofResults (total : Nat) (missing files : List FileResult) : Run :=
  let all := missing ++ files
  { diagnostics := Diagnostic.finalize (all.flatMap fun f => f.result.diagnostics)
    filesTotal := total
    filesCompleted := files.length
    ioFailed := all.any FileResult.ioFailed
    notices := all.flatMap fun f => f.result.notices }

def ofPaths (reg : Registry) (settings : Settings) (disk : Files.Disk) (paths : List String) : Run :=
  let sources := Files.Sources.collect disk paths
  ofResults sources.files.length (sources.missing.map (FileResult.ofMissing settings))
    (sources.files.map (FileResult.ofSource reg settings))

end Run

end AlLint
