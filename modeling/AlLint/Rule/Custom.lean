import AlLint.Rule.Registry
import AlLint.Rule.Template
import AlLint.Text.Sort

/-!
# Rules as documents

A rule can be written as a document: a mapping with an id, a category, a severity, the kinds of node that it
looks at, a formula that says when it complains, and a message. A file of rules holds such mappings one by one,
in lists, or under a key of their own.
-/

namespace AlLint

inductive RuleProblem where
  | notRules
  | missingFields (names : List String)
  | unknownCategory (id category : String)
  | unknownSeverity (id severity : String)
  | kindsNotList (id : String)
  | unknownKinds (id : String) (kinds : List String)
  | formula (id : String) (f : Formula.Failure)
  | duplicateId (id : String)

def RuleProblem.message : RuleProblem → String
  | .notRules => "expected a rule mapping or a list of rule mappings"
  | .missingFields names =>
    let list := (Document.list (names.map .text)).quoted
    s!"rule is missing required field(s) {list}"
  | .unknownCategory id category => s!"rule '{id}' has unknown category '{category}'"
  | .unknownSeverity id severity => s!"rule '{id}' has unknown severity '{severity}'"
  | .kindsNotList id => s!"'kinds' of rule '{id}' must be a list"
  | .unknownKinds id kinds =>
    let list := (Document.list (kinds.map .text)).quoted
    s!"rule '{id}' names unknown node kind(s) {list}"
  | .formula id f => s!"rule '{id}': {f.message}"
  | .duplicateId id => s!"duplicate rule id '{id}'"

/-- Why rules cannot be taken from documents: there is a problem with a rule, a kind is of a type that no kind
can be compared with, a formula holds a character that no text may hold, reading one broke down, or a number has
too many digits to be written. Only the first is foreseen. -/
inductive RuleError where
  | problem (p : RuleProblem)
  | unhashableKind (type : String)
  | nullCharacter
  | broken (b : Breakdown)
  | longNumber

namespace CustomRule

def nodeKinds : List String := [
  "declaration", "field", "key", "enum_value", "page_field", "action", "trigger", "procedure", "variable",
  "assignment", "call_statement", "if", "case", "repeat", "while", "for", "foreach", "exit", "error", "block",
  "with", "jump", "call", "binary"]

def requiredFields : List String := ["id", "category", "severity", "kinds", "when", "message"]

def isMissing : Option Document → Bool
  | none | some .null | some (.text "") | some (.list []) => true
  | _ => false

def environment (file : SourceFile) (sight : Sight) : Formula.Environment :=
  ([("node", .ofNode 0 sight.node), ("ctx", .ofPlace 0),
    ("decl", .ofNode 0 (.declaration sight.context.declaration)), ("source", .ofFile 0 file)] :
      Formula.Environment) ++
    Formula.Environment.base

def check (h : Host) (condition : Formula.Written) (message : List Template.Piece) (file : SourceFile)
    (sight : Sight) :
    Verdict :=
  let env := environment file sight
  let scene := Formula.Scene.at sight.context
  match condition.value h scene env with
  | .error f => { fault := some (.formula f) }
  | .ok v =>
    if !v.truth then {}
    else
      match Template.fill h scene env message with
      | .ok s => { findings := [{ span := sight.node.span, message := some s }] }
      | .error fault => { fault := some fault }

/-- The kinds that a field lists; a text is the only one. -/
def kindsOf? : Document → Option (List Document)
  | .text s => some [.text s]
  | .list items => some items
  | _ => none

/-- Whether a document is a kind of node. Only what cannot change can be looked up, and sets, of which a copy is. -/
def isKind : Document → Except RuleError Bool
  | .text s => .ok (nodeKinds.contains s)
  | .set _ => .ok false
  | d =>
    match d.changeable? with
    | some type => .error (.unhashableKind type)
    | none => .ok false

def unknownKinds : List Document → Except RuleError (List String)
  | [] => .ok []
  | d :: rest => do
    if ← isKind d then unknownKinds rest
    else
      let name ← d.shownOr .longNumber
      return name :: (← unknownKinds rest)

def ensure (holds : Bool) (p : RuleProblem) : Except RuleError Unit := if holds then .ok () else .error (.problem p)

def readKinds (id : String) (doc : Document) : Except RuleError (List String) :=
  match kindsOf? doc with
  | none => .error (.problem (.kindsNotList id))
  | some kinds => do
    let unknown ← unknownKinds kinds
    ensure unknown.isEmpty (.unknownKinds id (Text.sorted unknown))
    return kinds.map Document.shown

def formulaError (id : String) : Formula.Failure → RuleError
  | .nullCharacter => .nullCharacter
  | .broken b => .broken b
  | f => .problem (.formula id f)

def ofEntries (h : Host) (entries : List (Document × Document)) : Except RuleError Rule := do
  let field := Document.get? entries
  let shown := fun name => ((field name).getD .null).shownOr .longNumber
  let missing := requiredFields.filter fun name => isMissing (field name)
  ensure missing.isEmpty (.missingFields missing)
  let id ← shown "id"
  let category ← shown "category"
  ensure (ruleCategories.contains category) (.unknownCategory id category)
  let severity ← shown "severity"
  ensure (Severity.labels.contains (Text.lower severity)) (.unknownSeverity id severity)
  let kinds ← readKinds id ((field "kinds").getD .null)
  let formula ← shown "when"
  let message ← shown "message"
  let condition ← (Formula.Written.ofText h formula).mapError (formulaError id)
  let pieces ← (Template.read h message).mapError (formulaError id)
  let description ← ((field "description").getD (.text "")).shownOr .longNumber
  return {
    id, category, kinds, message, description
    severity := Text.lower severity
    check := check h condition pieces
    custom := true }

def mappings? (docs : List Document) : Option (List (List (Document × Document))) :=
  docs.mapM fun
    | .map entries => some entries
    | _ => none

def mappingsAt : Document → Except RuleError (List (List (Document × Document)))
  | .map entries => .ok [entries]
  | .list docs =>
    match mappings? docs with
    | some found => .ok found
    | none => .error (.problem .notRules)
  | _ => .error (.problem .notRules)

def mappingsOf : Document → Except RuleError (List (List (Document × Document)))
  | .null => .ok []
  | .map entries => mappingsAt ((Document.get? entries "rules").getD (.map entries))
  | doc => mappingsAt doc

end CustomRule

namespace Registry

def addMapping (h : Host) (reg : Registry) (entries : List (Document × Document)) : Except RuleError Registry := do
  let rule ← CustomRule.ofEntries h entries
  match reg.register rule with
  | .ok reg => return reg
  | .error (.duplicateId id) => throw (.problem (.duplicateId id))
  | .error (.unknownSeverity id severity) => throw (.problem (.unknownSeverity id severity))

def addDocument (h : Host) (reg : Registry) (doc : Document) : Except RuleError Registry := do
  (← CustomRule.mappingsOf doc).foldlM (addMapping h) reg

/-- Adds the rules of the documents of a file. An error comes with the number of its document, counted from one. -/
def addDocuments (h : Host) (reg : Registry) (docs : List Document) : Except (Nat × RuleError) Registry :=
  docs.zipIdx.foldlM (fun reg (doc, i) => (reg.addDocument h doc).mapError ((i + 1, ·))) reg

end Registry

end AlLint
