import AlLint.Settings.Basic
import AlLint.Text.Sort

/-!
# Reading settings

Settings are read from a document that maps rule ids to what is set for them. Anything that is not understood is
an error, so that a mistake does not go unnoticed.
-/

namespace AlLint

inductive SettingsProblem where
  | notMapping
  | unknownRule (id : String)
  | ruleNotMapping (id : String)
  | unknownKeys (id : String) (keys : List String)
  | enabledNotBool (id : String)
  | unknownSeverity (id : String) (value : Document)
  | optionsNotMapping (id : String)
  | noOptions (id : String)
  | unknownOption (id name : String) (known : List String)
  | optionType (id name expected actual : String)

def quotedTexts (texts : List String) : String := (Document.list (texts.map .text)).quoted

def SettingsProblem.message : SettingsProblem → String
  | .notMapping => "expected a mapping of rule ids to settings"
  | .unknownRule id => s!"unknown rule id '{id}'"
  | .ruleNotMapping id => s!"settings for '{id}' must be a mapping"
  | .unknownKeys id keys => s!"unknown key(s) {quotedTexts keys} for rule '{id}'"
  | .enabledNotBool id => s!"'enabled' of rule '{id}' must be true or false"
  | .unknownSeverity id value =>
    let list := ", ".intercalate Severity.labels
    s!"unknown severity {value.quoted} for rule '{id}' (expected one of {list})"
  | .optionsNotMapping id => s!"'options' of rule '{id}' must be a mapping"
  | .noOptions id => s!"rule '{id}' takes no options"
  | .unknownOption id name known =>
    let list := if known.isEmpty then "none" else ", ".intercalate known
    s!"rule '{id}' has no option '{name}' (known options: {list})"
  | .optionType id name expected actual =>
    s!"option '{name}' of rule '{id}' expects {expected}, got {actual}"

/-- Why settings cannot be read: there is a problem with their document, or a number in it has too many digits to be
written. Only the first is foreseen. -/
inductive SettingsError where
  | problem (p : SettingsProblem)
  | longNumber

namespace Settings

def isText : Document → Bool
  | .text _ => true
  | _ => false

/-- Whether an option may have a value, given its default: truth values, whole numbers, texts and lists of texts
must stay what they are. -/
def optionAccepts : (default value : Document) → Bool
  | .bool _, .bool _ => true
  | .bool _, _ => false
  | .int _, .int _ => true
  | .int _, _ => false
  | .list _, .list items => items.all isText
  | .list _, _ => false
  | .text _, .text _ => true
  | .text _, _ => false
  | _, _ => true

def readKeyed {α : Type} (read : String → Document → Except SettingsError α) (e : Document × Document) :
    Except SettingsError (String × α) := do
  let name ← e.1.shownOr .longNumber
  (read name e.2).map (name, ·)

/-- Reads the entries of a mapping. Of those with keys that are shown alike the last counts. -/
def readAll {α : Type} (read : String → Document → Except SettingsError α) (entries : List (Document × Document)) :
    Except SettingsError (Keyed α) :=
  (entries.mapM (readKeyed read)).map Keyed.ofList

def readOption (r : Rule) (name : String) (value : Document) : Except SettingsError Document :=
  match r.options.get? name with
  | none => .error (.problem (.unknownOption r.id name (Text.sorted r.options.keys)))
  | some default =>
    if optionAccepts default value then .ok value
    else .error (.problem (.optionType r.id name default.typeName value.typeName))

def ruleKeys : List String := ["enabled", "severity", "severity-override", "options"]

def isRuleKey : Document → Bool
  | .text s => ruleKeys.contains s
  | _ => false

def checkKeys (id : String) (entries : List (Document × Document)) : Except SettingsError Unit := do
  match ← (entries.filter fun e => !isRuleKey e.1).mapM (·.1.shownOr .longNumber) with
  | [] => .ok ()
  | unknown => .error (.problem (.unknownKeys id (Text.sorted unknown)))

def readEnabled (id : String) (entries : List (Document × Document)) : Except SettingsError Bool :=
  match Document.get? entries "enabled" with
  | none => .ok true
  | some (.bool b) => .ok b
  | some _ => .error (.problem (.enabledNotBool id))

/-- Reads how grave the complaints of a rule are. The second spelling counts only without the first. -/
def readSeverity (id : String) (entries : List (Document × Document)) : Except SettingsError (Option String) :=
  let given := (Document.get? entries "severity").or (Document.get? entries "severity-override")
  match given.getD .null with
  | .null => .ok none
  | .text s =>
    if Severity.labels.contains (Text.lower s) then .ok (some (Text.lower s))
    else .error (.problem (.unknownSeverity id (.text s)))
  | value => .error (if value.isWritable then .problem (.unknownSeverity id value) else .longNumber)

/-- Reads what is set for the options of a rule; the program's own rules have none. -/
def readOptions (id : String) (rule : Option Rule) (entries : List (Document × Document)) :
    Except SettingsError (Keyed Document) :=
  match (Document.get? entries "options").getD .null, rule with
  | .null, _ => .ok []
  | .map options, some r => readAll (readOption r) options
  | .map _, none => .error (.problem (.noOptions id))
  | _, _ => .error (.problem (.optionsNotMapping id))

def readEntries (id : String) (rule : Option Rule) (entries : List (Document × Document)) :
    Except SettingsError RuleSettings := do
  checkKeys id entries
  let enabled ← readEnabled id entries
  let severity ← readSeverity id entries
  let options ← readOptions id rule entries
  return { enabled, severity, options }

def readRule (reg : Registry) (id : String) (value : Document) : Except SettingsError RuleSettings :=
  let rule := reg.get? id
  if rule.isNone && !EngineRule.has id then .error (.problem (.unknownRule id))
  else
    match value with
    | .null => .ok {}
    | .map entries => readEntries id rule entries
    | _ => .error (.problem (.ruleNotMapping id))

def ofDocument (reg : Registry) : Document → Except SettingsError Settings
  | .null => .ok {}
  | .map entries => (readAll (readRule reg) entries).map fun rules => { rules }
  | _ => .error (.problem .notMapping)

end Settings

end AlLint
