import AlLint.Formula.Value

/-!
# What formulas can ask about parts

Every part of a file has attributes, which formulas read by name: what it is made of, and a few things that
follow from that. Attributes that are questions are called with arguments. A part is the same part wherever
formulas find it.
-/

namespace AlLint.Formula

/-! ## Parts as values -/

def nodeMark (file : Nat) (n : Node) : Mark := .piece file n.kind n.span

/-- The mark of a type. A type that is not written is that of the record that code works on without declaring it. -/
def typeMark (file : Nat) (t : TypeRef) : Mark := (t.start.map (Mark.type file)).getD (.single file "record")

namespace Value

def ofNode (file : Nat) (n : Node) : Value := part (.node n) (nodeMark file n)

def ofExpr (file : Nat) (e : Expr) : Value := ofNode file (.expr e)

def ofRoutine (file : Nat) (r : Routine) : Value := ofNode file (.routine r)

def ofRoutine? (file : Nat) (r : Option Routine) : Value := (r.map (ofRoutine file)).getD none

def ofNodes {α : Type} (file : Nat) (f : α → Node) (items : List α) (m : Mark) : Value :=
  list (items.map fun a => ofNode file (f a)) m

def ofExprs (file : Nat) (es : List Expr) (m : Mark) : Value := ofNodes file .expr es m

def ofStmts (file : Nat) (body : List Stmt) (m : Mark) : Value := ofNodes file .stmt body m

def ofStmts? (file : Nat) (body : Option (List Stmt)) (m : Mark) : Value := (body.map (ofStmts file · m)).getD none

def ofSpan (s : Span) (m : Mark) : Value := part (.span s) m

def ofType (file : Nat) (t : TypeRef) : Value := part (.type t) (typeMark file t)

def ofType? (file : Nat) (t : Option TypeRef) : Value := (t.map (ofType file)).getD none

def ofProperty (file : Nat) (p : Property) : Value := part (.property p) (.piece file "property" p.span)

def ofProperties (file : Nat) (ps : Properties) (m : Mark) : Value := ofKeyed (fun p _ => ofProperty file p) ps m

def ofTriggers (file : Nat) (ts : Triggers) (m : Mark) : Value :=
  ofKeyed (fun t _ => ofRoutine file (.trigger t)) ts m

def ofParameters (file : Nat) (ps : List Parameter) (m : Mark) : Value :=
  list (ps.map fun p => part (.parameter p) (.piece file "parameter" p.span)) m

def ofDoc? (file : Nat) (d : Option Doc) : Value :=
  (d.map fun d => part (.doc d) (.piece file "doc" d.span)).getD none

def ofPropertyText? (file : Nat) (ps : Properties) (name : String) : Value :=
  ((ps.get? (Text.lower name)).map fun p => ofText p.value (.named (.piece file "property" p.span) "value")).getD none

def ofFile (file : Nat) (f : SourceFile) : Value := part (.file f) (.single file "file")

def ofPlace (file : Nat) : Value := part .place (.single file "place")

/-- How an expression is written. A name or number that stands alone is the text that the expression has. -/
def ofExprText (file : Nat) (e : Expr) (m : Mark) : Value :=
  match e with
  | .name name false _ => ofText name (.named (nodeMark file (.expr e)) "name")
  | .constant value kind _ =>
    if kind = .string then ofText e.text m else ofText value (.named (nodeMark file (.expr e)) "value")
  | .call callee _ true _ => ofExprText file callee m
  | e => ofText e.text m

end Value

/-! ## Attributes -/

/-- An attribute of a part. What is kept with a part is always the same value, and what follows from it is made
anew. -/
inductive Attribute where
  | fixed (v : Value)
  | kept (value : Mark → Value)
  | made (value : Mark → Value)

def Attribute.value (a : Attribute) (own fresh : Mark) (name : String) : Value :=
  match a with
  | fixed v => v
  | kept f => f (.named own name)
  | made f => f fresh

namespace Attribute

def ofBool (b : Bool) : Attribute := fixed (.bool b)

def ofBool? (b : Option Bool) : Attribute := fixed ((b.map .bool).getD .none)

def ofWord (s : String) : Attribute := fixed (.word s)

def ofText (s : String) : Attribute := kept (Value.ofText s)

def ofText? (s : Option String) : Attribute := kept (Value.ofText? s)

def ofNewText (s : String) : Attribute := made (Value.ofNewText s)

def ofSpan (s : Span) : Attribute := kept (Value.ofSpan s)

/-- A text that comes from a property, or is a fixed one without it. It is the value of the property itself if
nothing had to be cut off. -/
def ofProperty (file : Nat) (ps : Properties) (key : String) (s : String) : Attribute :=
  match ps.get? key with
  | some p => if p.value = s then fixed (.ofPropertyText? file ps key) else ofText s
  | none => ofWord s

def ofProperty? (file : Nat) (ps : Properties) (key : String) (s : Option String) : Attribute :=
  (s.map (ofProperty file ps key)).getD (fixed .none)

end Attribute

/-- The attributes of an expression. The span of a call without parentheses is that of what is called. -/
def exprAttributes (file : Nat) (e : Expr) : List (String × Attribute) :=
  let expr := fun e => Attribute.fixed (.ofExpr file e)
  let exprs := fun es => Attribute.kept (Value.ofExprs file es)
  match e with
  | .constant value kind span => [
    ("value", .ofText value), ("literal_type", .ofWord kind.label), ("span", .ofSpan span)]
  | .name name quoted span => [
    ("name", .ofText name), ("span", .ofSpan span), ("quoted", .ofBool quoted), ("key", .ofNewText (Text.lower name))]
  | .member target name quoted span => [
    ("target", expr target), ("name", .ofText name), ("span", .ofSpan span), ("quoted", .ofBool quoted)]
  | .scope target name span => [("target", expr target), ("name", .ofText name), ("span", .ofSpan span)]
  | .index target indices span => [("target", expr target), ("indices", exprs indices), ("span", .ofSpan span)]
  | .unary op operand span => [("op", .ofText op.text), ("operand", expr operand), ("span", .ofSpan span)]
  | .binary op left right span => [
    ("op", .ofText op.text), ("left", expr left), ("right", expr right), ("span", .ofSpan span)]
  | .set items span => [("items", exprs items), ("span", .ofSpan span)]
  | .call callee args implicit span =>
    let call : Call := ⟨callee, args, implicit, span⟩
    let spanOf := if implicit then .fixed (.ofSpan span (.named (nodeMark file (.expr callee)) "span"))
      else .ofSpan span
    [("callee", expr callee), ("args", exprs args), ("span", spanOf), ("implicit", .ofBool implicit),
      ("method", .ofNewText call.method),
        ("receiver", .made fun m => (call.receiver?.map (Value.ofNewText · m)).getD .none),
      ("is_global", .ofBool call.isGlobal)]

def stmtAttributes (file : Nat) (s : Stmt) : List (String × Attribute) :=
  let expr := fun e => Attribute.fixed (.ofExpr file e)
  let stmts := fun body => Attribute.kept (Value.ofStmts file body)
  let stmts? := fun body => Attribute.kept (Value.ofStmts? file body)
  match s with
  | .assignment target op value span => [
    ("target", expr target), ("op", .ofText op.text), ("value", expr value), ("span", .ofSpan span)]
  | .call c span => [("call", expr c.toExpr), ("span", .ofSpan span)]
  | .error c span => [
    ("call", expr c.toExpr), ("span", .ofSpan span),
    ("args", .fixed (.ofExprs file c.args (.named (nodeMark file (.expr c.toExpr)) "args")))]
  | .ifThen condition thenBody elseBody span => [
    ("condition", expr condition), ("then_branch", stmts thenBody), ("else_branch", stmts? elseBody),
      ("span", .ofSpan span)]
  | .caseOf selector branches elseBody span => [
    ("selector", expr selector),
    ("branches", .kept (.list (branches.map fun b => .part (.branch b) (.piece file "branch" b.span)))),
    ("else_branch", stmts? elseBody), ("span", .ofSpan span)]
  | .repeatUntil body condition span => [
    ("body", stmts body), ("condition", expr condition), ("span", .ofSpan span)]
  | .whileDo condition body span => [
    ("condition", expr condition), ("body", stmts body), ("span", .ofSpan span)]
  | .forTo counter first last down body span => [
    ("variable", expr counter), ("start", expr first), ("stop", expr last), ("body", stmts body),
      ("span", .ofSpan span),
    ("downto", .ofBool down)]
  | .forEach item iterable body span => [
    ("variable", expr item), ("iterable", expr iterable), ("body", stmts body), ("span", .ofSpan span)]
  | .exit value span => [("value", .fixed ((value.map (Value.ofExpr file)).getD .none)), ("span", .ofSpan span)]
  | .block body span => [("body", stmts body), ("span", .ofSpan span)]
  | .withDo target body span => [("target", expr target), ("body", stmts body), ("span", .ofSpan span)]
  | .jump jump span => [("keyword", .ofText jump.text), ("span", .ofSpan span)]

def routineAttributes (file : Nat) : Routine → List (String × Attribute)
  | .trigger t => [
    ("name", .ofText t.name), ("span", .ofSpan t.span), ("body", .kept (Value.ofStmts file t.body)),
    ("variables", .kept (Value.ofNodes file .var t.vars)),
      ("parameters", .kept (Value.ofParameters file t.parameters)),
    ("owner", .ofText? t.owner), ("key", .ofNewText t.key)]
  | .procedure p => [
    ("name", .ofText p.name), ("span", .ofSpan p.span), ("visibility", .ofWord p.visibility.text),
    ("parameters", .kept (Value.ofParameters file p.parameters)),
      ("return_type", .fixed (.ofType? file p.returnType)),
    ("return_name", .ofText? p.returnName), ("doc", .fixed (.ofDoc? file p.doc)),
    ("attributes", .kept (Value.ofTexts p.attributes)), ("variables", .kept (Value.ofNodes file .var p.vars)),
    ("body", .kept (Value.ofStmts file p.body)), ("has_body", .ofBool p.hasBody), ("is_public", .ofBool p.isPublic)]

def fieldAttributes (file : Nat) (f : Field) : List (String × Attribute) := [
  ("name", .ofText f.name), ("span", .ofSpan f.span), ("field_id", .kept (Value.ofNat? f.fieldId)),
  ("type", .fixed (.ofType? file f.type)), ("quoted", .ofBool f.quoted),
  ("properties", .kept (Value.ofProperties file f.properties)),
    ("triggers", .kept (Value.ofTriggers file f.triggers)),
  ("doc", .fixed (.ofDoc? file f.doc)),
  ("field_class", .ofProperty file f.properties "fieldclass" f.fieldClass),
  ("calc_formula", .fixed (.ofPropertyText? file f.properties "CalcFormula")),
  ("table_relation", .fixed (.ofPropertyText? file f.properties "TableRelation")), ("editable", .ofBool? f.editable),
  ("not_blank", .ofBool f.notBlank), ("option_members", .kept (Value.ofTexts f.optionMembers)),
  ("is_flowfield", .ofBool f.isFlowField), ("on_validate", .fixed (.ofRoutine? file (f.onValidate?.map .trigger)))]

def contentAttributes (file : Nat) (d : Declaration) : List (String × Attribute) :=
  match d.contents with
  | .table fields keys modifications => [
    ("fields", .kept (Value.ofNodes file .field fields)), ("keys", .kept (Value.ofNodes file .key keys)),
    ("field_modifications", .kept (Value.ofNodes file .field modifications))]
  | .processUnit => []
  | .page fields actions => [
    ("source_table", .ofProperty? file d.properties "sourcetable" d.sourceTable),
    ("page_type", .ofProperty? file d.properties "pagetype" d.pageType),
    ("fields", .kept (Value.ofNodes file .pageField fields)), ("actions", .kept (Value.ofNodes file .action actions))]
  | .enumeration values => [
    ("values", .kept (Value.ofNodes file .enumValue values)), ("extensible", .ofBool d.extensible)]

def declarationAttributes (file : Nat) (d : Declaration) : List (String × Attribute) := ([
  ("object_type", .ofText d.objectType), ("object_id", .kept (Value.ofNat? d.objectId)), ("name", .ofText d.name),
  ("span", .ofSpan d.span), ("extends", .ofText? d.extends?),
    ("properties", .kept (Value.ofProperties file d.properties)),
  ("variables", .kept (Value.ofNodes file .var d.vars)), ("triggers", .kept (Value.ofTriggers file d.triggers)),
  ("procedures", .kept (Value.ofNodes file (fun p => .routine (.procedure p)) d.procedures))] :
    List (String × Attribute)) ++
  contentAttributes file d ++ ([("declaration_kind", .ofWord d.kind)] : List (String × Attribute))

def nodeAttributes (file : Nat) (n : Node) : List (String × Attribute) :=
  ("kind", .ofWord n.kind) ::
    match n with
    | .declaration d => declarationAttributes file d
    | .var v => [
      ("name", .ofText v.name), ("type", .fixed (.ofType file v.type)), ("span", .ofSpan v.span),
        ("quoted", .ofBool v.quoted),
      ("label", .fixed ((v.label.map fun l => Value.part (.label l)
        (.named (typeMark file v.type) "label")).getD .none)),
      ("key", .ofNewText v.key)]
    | .field f => fieldAttributes file f
    | .key k => [
      ("name", .ofText k.name), ("fields", .kept (Value.ofTexts k.fields)), ("span", .ofSpan k.span),
      ("clustered", .ofBool k.clustered), ("properties", .kept (Value.ofProperties file k.properties))]
    | .pageField f => [
      ("name", .ofText f.name), ("source", .ofText f.source), ("span", .ofSpan f.span),
      ("properties", .kept (Value.ofProperties file f.properties)),
        ("triggers", .kept (Value.ofTriggers file f.triggers))]
    | .action a => [
      ("name", .ofText a.name), ("span", .ofSpan a.span),
        ("properties", .kept (Value.ofProperties file a.properties)),
      ("triggers", .kept (Value.ofTriggers file a.triggers))]
    | .enumValue v => [
      ("ordinal", .kept (Value.ofInt v.ordinal)), ("name", .ofText v.name), ("span", .ofSpan v.span),
      ("properties", .kept (Value.ofProperties file v.properties))]
    | .routine r => routineAttributes file r
    | .stmt s => stmtAttributes file s
    | .expr e => exprAttributes file e

def placeAttributes (file : Nat) (s : Surroundings) : List (String × Attribute) := [
  ("object_kind", .ofWord s.objectKind), ("member_kind", .ofWord s.memberKind),
  ("member", .fixed (.ofRoutine? file s.member)), ("owner", .ofText? s.owner),
  ("loop_depth", .kept (Value.ofInt s.loopDepth)), ("in_loop", .ofBool s.inLoop),
  ("in_table_trigger", .ofBool s.inTableTrigger), ("if_depth", .kept (Value.ofInt s.ifDepth)),
  ("commit_observed", .ofBool s.commitObserved), ("reachable", .ofBool s.reachable),
    ("prefix", .ofText? s.namePrefix)]

def Part.attributes (face : Option Surroundings) (file : Nat) : Part → List (String × Attribute)
  | .node n => nodeAttributes file n
  | .span s => [
    ("line", .kept (Value.ofInt s.line)), ("column", .kept (Value.ofInt s.column)),
    ("end_line", .kept (Value.ofInt s.endLine)), ("end_column", .kept (Value.ofInt s.endColumn))]
  | .comment c => [("text", .ofText c.text), ("kind", .ofWord c.kind.label), ("span", .ofSpan c.span)]
  | .type t => [
    ("name", .ofText t.name), ("text", .ofText t.text), ("subtype", .ofText? t.subtype),
      ("length", .ofText? t.length),
    ("temporary", .ofBool t.temporary), ("element", .fixed (.ofType? file t.element)), ("key", .ofNewText t.key),
    ("is_record", .ofBool t.isRecord), ("is_option", .ofBool t.isOption), ("is_label", .ofBool t.isLabel)]
  | .property p => [
    ("name", .ofText p.name), ("value", .ofText p.value), ("span", .ofSpan p.span), ("flag", .ofBool? p.flag?)]
  | .label l => [
    ("text", .ofText l.text), ("comment", .ofText? l.comment), ("locked", .ofBool l.locked),
    ("properties", .kept (Value.ofKeyed Value.ofText l.properties))]
  | .parameter p => [
    ("name", .ofText p.name), ("type", .fixed (.ofType file p.type)), ("span", .ofSpan p.span),
      ("by_ref", .ofBool p.byRef),
    ("key", .ofNewText p.key)]
  | .doc d => [
    ("text", .ofText d.text), ("span", .ofSpan d.span), ("summary", .ofText? d.summary),
    ("params", .kept (Value.ofTexts d.params)), ("returns", .ofText? d.returns)]
  | .branch b => [
    ("values", .kept (Value.ofExprs file b.values)), ("body", .kept (Value.ofStmts file b.body)),
      ("span", .ofSpan b.span)]
  | .file f => [
    ("path", .ofText f.path), ("text", .ofText f.text),
      ("declarations", .kept (Value.ofNodes file .declaration f.declarations)),
    ("comments", .kept (.list (f.comments.map fun c => .part (.comment c) (.piece file "comment" c.span))))]
  | .place => (face.map (placeAttributes file)).getD []
  | .hidden _ => []

def Part.questions : Part → List String
  | .node (.declaration _) => ["property_value"]
  | .span _ => ["covering"]
  | .file _ => ["line_text"]
  | .place => [
    "type_of", "is_record", "is_temporary", "load_state", "loop_entry_load_state", "is_emptiness_checked"]
  | _ => []

def Part.attribute? (face : Option Surroundings) (p : Part) (own fresh : Mark) (name : String) : Option Value :=
  if p.questions.contains name then some (.method (.part p own) name fresh)
  else (p.attributes face own.file |>.lookup name).map fun a => a.value own fresh name

end AlLint.Formula
