import AlLint.Catalog.Registry
import AlLint.Command.Duration
import AlLint.Command.Request
import AlLint.Files.Source
import AlLint.Rule.Custom
import AlLint.Settings.Read

/-!
# Setting up

Before a run the rules are put together from the built-in ones and files of further ones, and the settings are
read. The first thing that is wrong ends the run before it starts.
-/

namespace AlLint.Command

open Files (Disk Obstacle)

inductive SetupError where
  | ruleFile (path : String) (o : Obstacle)
  | ruleSyntax (path : String) (e : Unread)
  | rule (path : String) (document : Nat) (e : RuleError)
  | config (path : String) (o : Obstacle)
  | configSyntax (path : String) (e : Unread)
  | setting (origin : String) (e : SettingsError)
  | duration (e : DurationError)
  | jobs (n : Int)
  | encoding (path : String)

/-- The wording of what is wrong. There is none for an error that the program does not foresee. -/
def SetupError.message? : SetupError → Option String
  | .ruleFile path o => some s!"could not read rule file {path}: {o.message path}"
  | .ruleSyntax path (.malformed detail) => some s!"rule file {path} is not valid YAML: {detail}"
  | .rule path document (.problem p) => some s!"{path}#doc{document}: {p.message}"
  | .rule _ _ _ => none
  | .config path o => some s!"could not read rule config {path}: {o.message path}"
  | .configSyntax path (.malformed detail) => some s!"rule config {path} is not valid YAML: {detail}"
  | .ruleSyntax _ (.broken _) | .configSyntax _ (.broken _) => none
  | .setting origin (.problem p) => some s!"{origin}: {p.message}"
  | .setting _ .longNumber => none
  | .duration (.unknownUnit _) => none
  | .duration e => some e.message
  | .jobs n => some s!"--jobs must be at least 1, got {n}"
  | .encoding _ => none

def addRules (h : Host) (path : String) (reg : Registry) (docs : List Document) : Except SetupError Registry :=
  (reg.addDocuments h docs).mapError fun (number, e) => .rule path number e

def readText (obstructed : Obstacle → SetupError) (disk : Disk) (path : String) : Except SetupError String :=
  match disk.read path with
  | .error o => .error (obstructed o)
  | .ok bytes =>
    match Files.decode? bytes with
    | none => .error (.encoding path)
    | some text => .ok text

def addRuleFile (h : Host) (disk : Disk) (reg : Registry) (path : String) : Except SetupError Registry := do
  let text ← readText (.ruleFile path) disk path
  let docs ← (h.documents text).mapError (.ruleSyntax path)
  addRules h path reg docs

def rulesOf (h : Host) (disk : Disk) (files : List String) : Except SetupError Registry :=
  files.foldlM (addRuleFile h disk) Catalog.registry

def settingsOf (reg : Registry) (origin : String) (doc : Document) : Except SetupError Settings :=
  (Settings.ofDocument reg doc).mapError (.setting origin)

def settingsOfFile (h : Host) (disk : Disk) (reg : Registry) (path : String) : Except SetupError Settings := do
  let text ← readText (.config path) disk path
  let doc ← (h.document text).mapError (.configSyntax path)
  settingsOf reg path doc

def given? (value : Option String) : Option String := value.filter (· ≠ "")

/-- Checks the time limit and the number of files to analyse at once. The files are analysed one after the other
in one go, so neither changes what a run does. -/
def checkLimits (r : AnalyzeRequest) : Except SetupError Unit := do
  match given? r.timeout with
  | none => .ok ()
  | some text =>
    match Duration.ofText text with
    | .ok _ => .ok ()
    | .error e => .error (.duration e)
  match r.jobs with
  | none => .ok ()
  | some n => if n < 1 then .error (.jobs n) else .ok ()

def setup (h : Host) (disk : Disk) (r : AnalyzeRequest) : Except SetupError (Registry × Settings) := do
  let reg ← rulesOf h disk r.ruleFiles
  let settings ←
    match given? r.ruleConfig with
    | none => .ok {}
    | some path => settingsOfFile h disk reg path
  checkLimits r
  .ok (reg, { settings with namePrefix := r.namePrefix })

end AlLint.Command
