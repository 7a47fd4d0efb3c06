import AlLint.Declaration.Basic
import AlLint.Reading.File

/-!
# From objects to declarations

An element that does not say enough to mean something is dropped, with an issue at its place. Everything else is
kept, in the order of the source.
-/

namespace AlLint

namespace Declaration

/-- What became of an element: nothing if it was dropped, and the issues with it. -/
structure Built (α : Type) where
  value : Option α
  issues : List Issue

namespace Built

variable {α β : Type}

def drop (complaint : Complaint) (span : Span) : Built α := ⟨none, [⟨complaint, span⟩]⟩

def map (f : α → β) (b : Built α) : Built β := ⟨b.value.map f, b.issues⟩

end Built

/-- What became of some elements: those that were kept, in order, and all issues. -/
def collect {α : Type} : List (Built α) → List α × List Issue
  | [] => ([], [])
  | b :: rest =>
    let (values, issues) := collect rest
    (b.value.toList ++ values, b.issues ++ issues)

def name? : List Token → Option String
  | [t] => if t.isName then some t.value else none
  | _ => none

def number? : List Token → Except Oversized (Option Nat)
  | [t] => if t.kind == .number then wholeNumber? t.value else .ok none
  | _ => .ok none

def commaParts (ts : List Token) : List (List Token) :=
  (ts.splitOnP (·.isOp ",")).filter fun part => !part.isEmpty

def trigger (owner : Option String) (c : CodeMember) : Trigger :=
  { name := c.name, span := c.span, body := c.body, vars := c.vars, parameters := c.parameters, owner }

def triggersOf (owner : Option String) (codes : List CodeMember) : Triggers :=
  Keyed.ofList ((codes.filter (·.kind == .trigger)).map fun c => (Text.lower c.name, trigger owner c))

def misplaced (owner : String) (codes : List CodeMember) : List Issue :=
  (codes.filter (·.kind == .procedure)).map fun c => ⟨.misplacedProcedure owner, c.span⟩

def procedure (c : CodeMember) : Procedure :=
  { name := c.name, span := c.span, visibility := c.visibility, parameters := c.parameters
    returnType := c.returnType, returnName := c.returnName, doc := Doc.ofComments? c.doc
    attributes := c.attributes, vars := c.vars, body := c.body, hasBody := c.hasBody }

def field (inp : Reading.Input) (e : Element) : Except Oversized (Built Field) :=
  match e.args with
  | id :: nameArg :: (first :: rest) :: _ => do
    match ← number? id, name? nameArg with
    | some fieldId, some name =>
      let f : Field :=
        { name, span := e.span, fieldId := some fieldId, type := some (Reading.typeRef inp first rest)
          quoted := nameArg.any Token.isQuoted, properties := Properties.ofList e.properties
          triggers := triggersOf (some name) e.codes, doc := Doc.ofComments? e.doc }
      return ⟨some f, misplaced name e.codes⟩
    | _, _ => return .drop .incompleteField e.span
  | _ => .ok (.drop .incompleteField e.span)

def modification (e : Element) : Built Field :=
  match name? (e.args.headD []) with
  | none => .drop .namelessModification e.span
  | some name =>
    let f : Field :=
      { name, span := e.span, fieldId := none, type := none, quoted := (e.args.headD []).any Token.isQuoted
        properties := Properties.ofList e.properties, triggers := triggersOf (some name) e.codes, doc := none }
    ⟨some f, misplaced name e.codes⟩

def keyField (inp : Reading.Input) (part : List Token) : String :=
  ((name? part).filter (· ≠ "")).getD (inp.textOf part)

def key (inp : Reading.Input) (e : Element) : Built TableKey :=
  match name? (e.args.headD []) with
  | none => .drop .namelessKey e.span
  | some name =>
    match (commaParts (e.args.getD 1 [])).map (keyField inp) with
    | [] => .drop (.emptyKey name) e.span
    | fields => ⟨some { name, fields, span := e.span, properties := Properties.ofList e.properties }, []⟩

def enumValue (e : Element) : Except Oversized (Built EnumValue) := do
  match ← number? (e.args.headD []), name? (e.args.getD 1 []) with
  | some ordinal, some name =>
    return ⟨some { ordinal, name, span := e.span, properties := Properties.ofList e.properties }, []⟩
  | _, _ => return .drop .incompleteEnumValue e.span

def pageField (inp : Reading.Input) (e : Element) : Built PageField :=
  match name? (e.args.headD []) with
  | none => .drop .namelessPageField e.span
  | some name =>
    let f : PageField :=
      { name, source := inp.textOf (e.args.getD 1 []), span := e.span
        properties := Properties.ofList e.properties, triggers := triggersOf (some name) e.codes }
    ⟨some f, misplaced name e.codes⟩

def pageAction (e : Element) : Built PageAction :=
  match name? (e.args.headD []) with
  | none => .drop .namelessAction e.span
  | some name =>
    let a : PageAction :=
      { name, span := e.span, properties := Properties.ofList e.properties
        triggers := triggersOf (some name) e.codes }
    ⟨some a, misplaced name e.codes⟩

def inSections (keyword : String) (e : Element) : List Element :=
  (e.children.filter (·.keyword == keyword)).flatMap Element.children

mutual

def below : Element → List Element
  | ⟨_, _, _, _, children, _, _, _⟩ => allBelow children

def allBelow : List Element → List Element
  | [] => []
  | e :: es => e :: (below e ++ allBelow es)

end

def belowSections (keyword inner : String) (e : Element) : List Element :=
  ((e.children.filter (·.keyword == keyword)).flatMap below).filter (·.keyword == inner)

def fieldOrChange (inp : Reading.Input) (e : Element) : Except Oversized (Built (Field ⊕ Field)) :=
  match e.keyword with
  | "field" => (field inp e).map (·.map .inl)
  | "modify" => .ok ((modification e).map .inr)
  | _ => .ok ⟨none, []⟩

def tableContents (inp : Reading.Input) (e : Element) : Except Oversized (Contents × List Issue) := do
  let built ← (inSections "fields" e).mapM (fieldOrChange inp)
  let (parts, issues) := collect built
  let (keys, keyIssues) := collect (((inSections "keys" e).filter (·.keyword == "key")).map (key inp))
  return (.table (parts.filterMap Sum.getLeft?) keys (parts.filterMap Sum.getRight?), issues ++ keyIssues)

def pageContents (inp : Reading.Input) (e : Element) : Contents × List Issue :=
  let (fields, issues) := collect ((belowSections "layout" "field" e).map (pageField inp))
  let (actions, actionIssues) := collect ((belowSections "actions" "action" e).map pageAction)
  (.page fields actions, issues ++ actionIssues)

def enumContents (e : Element) : Except Oversized (Contents × List Issue) := do
  let built ← (e.children.filter (·.keyword == "value")).mapM enumValue
  let (values, issues) := collect built
  return (.enumeration values, issues)

def contents? (inp : Reading.Input) (e : Element) : Except Oversized (Option (Contents × List Issue)) :=
  match e.keyword with
  | "table" | "tableextension" => (tableContents inp e).map some
  | "codeunit" => .ok (some (.processUnit, []))
  | "page" | "pageextension" => .ok (some (pageContents inp e))
  | "enum" | "enumextension" => (enumContents e).map some
  | _ => .ok none

def ofObject (inp : Reading.Input) (o : ObjectSyntax) : Except Oversized (Built Declaration) := do
  match ← contents? inp o.body with
  | none => return ⟨none, []⟩
  | some (contents, issues) =>
    let d : Declaration :=
      { objectType := o.body.keyword, objectId := o.objectId, name := o.name, span := o.body.span
        extends? := o.extends?, properties := Properties.ofList o.body.properties
        vars := o.body.vars, triggers := triggersOf none o.body.codes
        procedures := (o.body.codes.filter (·.kind == .procedure)).map procedure, contents }
    return ⟨some d, issues⟩

end Declaration

def SourceFile.ofText (path text : String) : Except Oversized (SourceFile × List Issue) := do
  let tree ← SyntaxTree.ofText text
  let built ← tree.objects.mapM (Declaration.ofObject ⟨text, (Scan.ofText text).eof⟩)
  let (declarations, issues) := Declaration.collect built
  return (⟨path, text, declarations, tree.comments⟩, tree.issues ++ issues)

end AlLint
