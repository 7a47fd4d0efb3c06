import AlLint.Formula.Value

/-!
# Parts as texts

A part of a file is shown as its kind with everything that it is made of.
-/

namespace AlLint.Formula

def shownBool (b : Bool) : String := if b then "True" else "False"

def shownOption {α : Type} (f : α → String) : Option α → String
  | none => "None"
  | some a => f a

def shownList (items : List String) : String := "[" ++ ", ".intercalate items ++ "]"

def shownKeyed {α : Type} (f : α → String) (entries : Keyed α) : String :=
  "\x7b" ++ ", ".intercalate (entries.map fun (k, a) => Text.quoted k ++ ": " ++ f a) ++ "\x7d"

def shownRecord (kind : String) (fields : List (String × String)) : String :=
  kind ++ "(" ++ ", ".intercalate (fields.map fun (name, value) => name ++ "=" ++ value) ++ ")"

def shownSpan (s : Span) : String :=
  shownRecord "Span" [
    ("line", s.line.repr), ("column", s.column.repr), ("end_line", s.endLine.repr), ("end_column", s.endColumn.repr)]

mutual

def shownExpr : Expr → String
  | .constant value kind span =>
    shownRecord "Constant" [
      ("value", Text.quoted value), ("literal_type", Text.quoted kind.label), ("span", shownSpan span)]
  | .name name quoted span =>
    shownRecord "Name" [("name", Text.quoted name), ("span", shownSpan span), ("quoted", shownBool quoted)]
  | .member target name quoted span =>
    shownRecord "Member" [
      ("target", shownExpr target), ("name", Text.quoted name), ("span", shownSpan span),
        ("quoted", shownBool quoted)]
  | .scope target name span =>
    shownRecord "ScopeAccess" [("target", shownExpr target), ("name", Text.quoted name), ("span", shownSpan span)]
  | .index target indices span =>
    shownRecord "Index" [
      ("target", shownExpr target), ("indices", shownList (shownExprs indices)), ("span", shownSpan span)]
  | .unary op operand span =>
    shownRecord "Unary" [("op", Text.quoted op.text), ("operand", shownExpr operand), ("span", shownSpan span)]
  | .binary op left right span =>
    shownRecord "Binary" [
      ("op", Text.quoted op.text), ("left", shownExpr left), ("right", shownExpr right), ("span", shownSpan span)]
  | .set items span => shownRecord "SetLiteral" [("items", shownList (shownExprs items)), ("span", shownSpan span)]
  | .call callee args implicit span =>
    shownRecord "Call" [
      ("callee", shownExpr callee), ("args", shownList (shownExprs args)), ("span", shownSpan span),
      ("implicit", shownBool implicit)]

def shownExprs : List Expr → List String
  | [] => []
  | e :: rest => shownExpr e :: shownExprs rest

end

mutual

def shownStmt : Stmt → String
  | .assignment target op value span =>
    shownRecord "Assignment" [
      ("target", shownExpr target), ("op", Text.quoted op.text), ("value", shownExpr value), ("span", shownSpan span)]
  | .call c span => shownRecord "CallStatement" [("call", shownExpr c.toExpr), ("span", shownSpan span)]
  | .error c span => shownRecord "ErrorStatement" [("call", shownExpr c.toExpr), ("span", shownSpan span)]
  | .ifThen condition thenBody elseBody span =>
    shownRecord "IfStatement" [
      ("condition", shownExpr condition), ("then_branch", shownList (shownStmts thenBody)),
      ("else_branch", shownElse elseBody), ("span", shownSpan span)]
  | .caseOf selector branches elseBody span =>
    shownRecord "CaseStatement" [
      ("selector", shownExpr selector), ("branches", shownList (shownBranches branches)),
      ("else_branch", shownElse elseBody), ("span", shownSpan span)]
  | .repeatUntil body condition span =>
    shownRecord "RepeatStatement" [
      ("body", shownList (shownStmts body)), ("condition", shownExpr condition), ("span", shownSpan span)]
  | .whileDo condition body span =>
    shownRecord "WhileStatement" [
      ("condition", shownExpr condition), ("body", shownList (shownStmts body)), ("span", shownSpan span)]
  | .forTo counter first last down body span =>
    shownRecord "ForStatement" [
      ("variable", shownExpr counter), ("start", shownExpr first), ("stop", shownExpr last),
      ("body", shownList (shownStmts body)), ("span", shownSpan span), ("downto", shownBool down)]
  | .forEach item iterable body span =>
    shownRecord "ForEachStatement" [
      ("variable", shownExpr item), ("iterable", shownExpr iterable), ("body", shownList (shownStmts body)),
      ("span", shownSpan span)]
  | .exit value span => shownRecord "ExitStatement" [("value", shownOption shownExpr value), ("span", shownSpan span)]
  | .block body span => shownRecord "BlockStatement" [("body", shownList (shownStmts body)), ("span", shownSpan span)]
  | .withDo target body span =>
    shownRecord "WithStatement" [
      ("target", shownExpr target), ("body", shownList (shownStmts body)), ("span", shownSpan span)]
  | .jump jump span => shownRecord "JumpStatement" [("keyword", Text.quoted jump.text), ("span", shownSpan span)]

def shownStmts : List Stmt → List String
  | [] => []
  | s :: rest => shownStmt s :: shownStmts rest

def shownElse : Option (List Stmt) → String
  | none => "None"
  | some body => shownList (shownStmts body)

def shownBranches : List (Branch Stmt) → List String
  | [] => []
  | ⟨values, body, span⟩ :: rest =>
    shownRecord "CaseBranch" [
      ("values", shownList (shownExprs values)), ("body", shownList (shownStmts body)), ("span", shownSpan span)] ::
      shownBranches rest

end

def shownBranch (b : Branch Stmt) : String :=
  shownRecord "CaseBranch" [
    ("values", shownList (shownExprs b.values)), ("body", shownList (shownStmts b.body)), ("span", shownSpan b.span)]

mutual

def shownType : TypeRef → String
  | ⟨name, text, subtype, length, temporary, element, _⟩ =>
    shownRecord "TypeRef" [
      ("name", Text.quoted name), ("text", Text.quoted text), ("subtype", shownOption Text.quoted subtype),
      ("length", shownOption Text.quoted length), ("temporary", shownBool temporary),
        ("element", shownElement element)]

def shownElement : Option TypeRef → String
  | none => "None"
  | some t => shownType t

end

def shownProperty (p : Property) : String :=
  shownRecord "Property" [("name", Text.quoted p.name), ("value", Text.quoted p.value), ("span", shownSpan p.span)]

def shownLabel (l : Label) : String :=
  shownRecord "LabelInfo" [
    ("text", Text.quoted l.text), ("comment", shownOption Text.quoted l.comment), ("locked", shownBool l.locked),
    ("properties", shownKeyed Text.quoted l.properties)]

def shownVariable (v : Variable) : String :=
  shownRecord "VariableDecl" [
    ("name", Text.quoted v.name), ("type", shownType v.type), ("span", shownSpan v.span),
      ("quoted", shownBool v.quoted),
    ("label", shownOption shownLabel v.label)]

def shownParameter (p : Parameter) : String :=
  shownRecord "Parameter" [
    ("name", Text.quoted p.name), ("type", shownType p.type), ("span", shownSpan p.span),
      ("by_ref", shownBool p.byRef)]

def shownDoc (d : Doc) : String :=
  shownRecord "DocComment" [
    ("text", Text.quoted d.text), ("span", shownSpan d.span), ("summary", shownOption Text.quoted d.summary),
    ("params", shownList (d.params.map Text.quoted)), ("returns", shownOption Text.quoted d.returns)]

def shownRoutine : Routine → String
  | .trigger t =>
    shownRecord "Trigger" [
      ("name", Text.quoted t.name), ("span", shownSpan t.span), ("body", shownList (shownStmts t.body)),
      ("variables", shownList (t.vars.map shownVariable)),
      ("parameters", shownList (t.parameters.map shownParameter)), ("owner", shownOption Text.quoted t.owner)]
  | .procedure p =>
    shownRecord "Procedure" [
      ("name", Text.quoted p.name), ("span", shownSpan p.span), ("visibility", Text.quoted p.visibility.text),
      ("parameters", shownList (p.parameters.map shownParameter)),
        ("return_type", shownOption shownType p.returnType),
      ("return_name", shownOption Text.quoted p.returnName), ("doc", shownOption shownDoc p.doc),
      ("attributes", shownList (p.attributes.map Text.quoted)), ("variables", shownList (p.vars.map shownVariable)),
      ("body", shownList (shownStmts p.body)), ("has_body", shownBool p.hasBody)]

def shownProperties (ps : Properties) : String := shownKeyed shownProperty ps

def shownTriggers (ts : Triggers) : String := shownKeyed (fun t => shownRoutine (.trigger t)) ts

def shownField (f : Field) : String :=
  shownRecord "Field" [
    ("name", Text.quoted f.name), ("span", shownSpan f.span), ("field_id", shownOption Nat.repr f.fieldId),
    ("type", shownOption shownType f.type), ("quoted", shownBool f.quoted),
      ("properties", shownProperties f.properties),
    ("triggers", shownTriggers f.triggers), ("doc", shownOption shownDoc f.doc),
      ("field_class", Text.quoted f.fieldClass),
    ("calc_formula", shownOption Text.quoted f.calcFormula),
      ("table_relation", shownOption Text.quoted f.tableRelation),
    ("editable", shownOption shownBool f.editable), ("not_blank", shownBool f.notBlank),
    ("option_members", shownList (f.optionMembers.map Text.quoted))]

def shownKey (k : TableKey) : String :=
  shownRecord "Key" [
    ("name", Text.quoted k.name), ("fields", shownList (k.fields.map Text.quoted)), ("span", shownSpan k.span),
    ("clustered", shownBool k.clustered), ("properties", shownProperties k.properties)]

def shownPageField (f : PageField) : String :=
  shownRecord "PageField" [
    ("name", Text.quoted f.name), ("source", Text.quoted f.source), ("span", shownSpan f.span),
    ("properties", shownProperties f.properties), ("triggers", shownTriggers f.triggers)]

def shownAction (a : PageAction) : String :=
  shownRecord "Action" [
    ("name", Text.quoted a.name), ("span", shownSpan a.span), ("properties", shownProperties a.properties),
    ("triggers", shownTriggers a.triggers)]

def shownEnumValue (v : EnumValue) : String :=
  shownRecord "EnumValue" [
    ("ordinal", v.ordinal.repr), ("name", Text.quoted v.name), ("span", shownSpan v.span),
    ("properties", shownProperties v.properties)]

def shownContents (d : Declaration) : String × List (String × String) :=
  match d.contents with
  | .table fields keys modifications => ("Table", [
    ("fields", shownList (fields.map shownField)), ("keys", shownList (keys.map shownKey)),
    ("field_modifications", shownList (modifications.map shownField))])
  | .processUnit => ("ProcessUnit", [])
  | .page fields actions => ("Page", [
    ("source_table", shownOption Text.quoted d.sourceTable), ("page_type", shownOption Text.quoted d.pageType),
    ("fields", shownList (fields.map shownPageField)), ("actions", shownList (actions.map shownAction))])
  | .enumeration values => ("Enumeration", [
    ("values", shownList (values.map shownEnumValue)), ("extensible", shownBool d.extensible)])

def shownDeclaration (d : Declaration) : String :=
  let (kind, more) := shownContents d
  shownRecord kind ([
    ("object_type", Text.quoted d.objectType), ("object_id", shownOption Nat.repr d.objectId),
      ("name", Text.quoted d.name),
    ("span", shownSpan d.span), ("extends", shownOption Text.quoted d.extends?),
    ("properties", shownProperties d.properties), ("variables", shownList (d.vars.map shownVariable)),
    ("triggers", shownTriggers d.triggers),
    ("procedures", shownList (d.procedures.map fun p => shownRoutine (.procedure p)))] ++ more)

def shownNode : Node → String
  | .declaration d => shownDeclaration d
  | .var v => shownVariable v
  | .field f => shownField f
  | .key k => shownKey k
  | .pageField f => shownPageField f
  | .action a => shownAction a
  | .enumValue v => shownEnumValue v
  | .routine r => shownRoutine r
  | .stmt s => shownStmt s
  | .expr e => shownExpr e

def shownComment (c : Comment) : String :=
  shownRecord "Comment" [("text", Text.quoted c.text), ("kind", Text.quoted c.kind.label), ("span", shownSpan c.span)]

/-- A part as a text. The place where a rule looks shows nothing of itself, nor does what is hidden. -/
def Part.shown : Part → String
  | .node n => shownNode n
  | .span s => shownSpan s
  | .comment c => shownComment c
  | .type t => shownType t
  | .property p => shownProperty p
  | .label l => shownLabel l
  | .parameter p => shownParameter p
  | .doc d => shownDoc d
  | .branch b => shownBranch b
  | .file f =>
    shownRecord "SourceFile" [
      ("path", Text.quoted f.path), ("text", Text.quoted f.text),
      ("declarations", shownList (f.declarations.map shownDeclaration)),
      ("comments", shownList (f.comments.map shownComment))]
  | .place => "<context>"
  | .hidden h => "<" ++ h.label ++ ">"

end AlLint.Formula
