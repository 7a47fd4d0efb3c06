import AlLint.Command.Run
import AlLint.Yaml.Read

/-!
# The program

Reads what the arguments name from the disk, carries out the request, and writes what comes of it.
-/

namespace AlLint.Program

open Files (Disk Obstacle Tree)

def usage : String :=
  "usage: alnomic analyze PATH [PATH ...] [--format text|json] [--rule-config CONFIG] [--rules RULE_FILE ...]\n" ++
  "                       [--fail-on info|warning|error] [--timeout DURATION] [--jobs N] [--prefix AFFIX]\n" ++
  "                       [--out OUT_FILE]\n" ++
  "       alnomic rules [--rules RULE_FILE ...]"

def obstacleOf : IO.Error → Obstacle
  | .permissionDenied _ _ _ => .denied
  | .inappropriateType _ _ _ => .notFolder
  | _ => .absent

def bytesOf (path : String) : IO (Option ByteArray) := do
  try
    return some (← IO.FS.readBinFile path)
  catch _ => return none

/-- The tree at a path. In folders only source files are read. -/
partial def load (inFolder : Bool) (path : String) : IO Tree := do
  let place ← IO.FS.realPath path
  if ← place.isDir then
    let entries ← place.readDir
    let children ← entries.toList.mapM fun e => do
      return (e.fileName, ← load true e.path.toString)
    return .folder children
  else if inFolder && !Files.isSourceName path then return .file none
  else return .file (← bytesOf path)

def entryAt (path : String) : IO (Except Obstacle Tree) := do
  try
    let place ← IO.FS.realPath path
    let _ ← place.metadata
    return .ok (← load false path)
  catch e => return .error (obstacleOf e)

def diskOf (paths : List String) : IO Disk := do
  let entries ← paths.mapM fun path => do
    return (path, ← entryAt path)
  return ⟨fun path => (entries.lookup path).getD (.error .absent)⟩

def emit (o : Command.Output) : IO UInt32 := do
  IO.print o.text
  for n in o.notices do
    IO.eprintln n.text
  return o.status.toUInt32

def emitError (e : Command.SetupError) : IO UInt32 := do
  match e.output? with
  | some o => emit o
  | none =>
    IO.eprintln "[alnomic] unforeseen error"
    return 1

def emitRun (r : Command.AnalyzeRequest) (run : Run) : IO UInt32 := do
  match Command.reportFile? r run with
  | none => emit (Command.printed r run)
  | some (path, text) =>
    let refusal ←
      try
        IO.FS.writeFile path text
        pure none
      catch e => pure (some (obstacleOf e))
    match refusal with
    | none => emit (Command.written r run path)
    | some o => emit (Command.unwritten run path o)

def perform : Command.Request → IO UInt32
  | .rules files => do
    match Command.rulesOf Yaml.host (← diskOf files) files with
    | .error e => emitError e
    | .ok reg => emit (Command.listRules reg)
  | .analyze r => do
    let disk ← diskOf (r.ruleFiles ++ (Command.given? r.ruleConfig).toList ++ r.paths)
    match Command.analyze Yaml.host disk r with
    | .error e => emitError e
    | .ok run => emitRun r run

end AlLint.Program

def main (args : List String) : IO UInt32 := do
  match AlLint.Command.Request.ofArguments args with
  | .error .help =>
    IO.println AlLint.Program.usage
    return 0
  | .error .usage =>
    IO.eprintln AlLint.Program.usage
    return 2
  | .ok request => AlLint.Program.perform request
