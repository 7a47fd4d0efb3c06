import AlLint.Declaration.Doc
import AlLint.Syntax.Element
import AlLint.Text.Line

/-!
# Declarations

What the objects of a file mean: tables with fields and keys, units of code, pages with controls and actions, and
enumerations. Properties and triggers are found by name without regard to case, and of two with one name
the last one counts.
-/

namespace AlLint

def Property.flag? (p : Property) : Option Bool :=
  match Text.lower (Text.strip p.value) with
  | "true" => some true
  | "false" => some false
  | _ => none

abbrev Properties := Keyed Property

namespace Properties

def ofList (ps : List Property) : Properties := Keyed.ofList (ps.map fun p => (Text.lower p.name, p))

def value? (ps : Properties) (name : String) : Option String := (ps.get? (Text.lower name)).map Property.value

def isSet (ps : Properties) (name : String) : Bool := (ps.get? name).bind Property.flag? == some true

end Properties

/-- A trigger. Its owner is the field, control or action that it belongs to, if it is not the object itself. -/
structure Trigger where
  name : String
  span : Span
  body : List Stmt
  vars : List Variable
  parameters : List Parameter
  owner : Option String

def Trigger.key (t : Trigger) : String := Text.lower t.name

abbrev Triggers := Keyed Trigger

structure Procedure where
  name : String
  span : Span
  visibility : Visibility
  parameters : List Parameter
  returnType : Option TypeRef
  returnName : Option String
  doc : Option Doc
  attributes : List String
  vars : List Variable
  body : List Stmt
  hasBody : Bool

def Procedure.isPublic (p : Procedure) : Bool := p.visibility == .everyone

/-- A field of a table. The change of a field of another table has neither number nor type. -/
structure Field where
  name : String
  span : Span
  fieldId : Option Nat
  type : Option TypeRef
  quoted : Bool
  properties : Properties
  triggers : Triggers
  doc : Option Doc

namespace Field

def fieldClass (f : Field) : String := ((f.properties.value? "FieldClass").map Text.strip).getD "Normal"

def isFlowField (f : Field) : Bool := Text.lower f.fieldClass == "flowfield"

def calcFormula (f : Field) : Option String := f.properties.value? "CalcFormula"

def tableRelation (f : Field) : Option String := f.properties.value? "TableRelation"

def editable (f : Field) : Option Bool := (f.properties.get? "editable").bind Property.flag?

def notBlank (f : Field) : Bool := f.properties.isSet "notblank"

def optionMembers (f : Field) : List String :=
  match f.properties.value? "OptionMembers" with
  | none => []
  | some value => (value.toList.splitOn ',').map fun cs => Text.strip (String.ofList cs)

def onValidate? (f : Field) : Option Trigger := f.triggers.get? "onvalidate"

end Field

structure TableKey where
  name : String
  fields : List String
  span : Span
  properties : Properties

def TableKey.clustered (k : TableKey) : Bool := k.properties.isSet "clustered"

structure PageField where
  name : String
  source : String
  span : Span
  properties : Properties
  triggers : Triggers

structure PageAction where
  name : String
  span : Span
  properties : Properties
  triggers : Triggers

structure EnumValue where
  ordinal : Nat
  name : String
  span : Span
  properties : Properties

inductive Contents where
  | table (fields : List Field) (keys : List TableKey) (modifications : List Field)
  | processUnit
  | page (fields : List PageField) (actions : List PageAction)
  | enumeration (values : List EnumValue)

def Contents.kind : Contents → String
  | .table .. => "table"
  | .processUnit => "process_unit"
  | .page .. => "page"
  | .enumeration .. => "enumeration"

/-- A declaration. The object type is the keyword that starts it. -/
structure Declaration where
  objectType : String
  objectId : Option Nat
  name : String
  span : Span
  extends? : Option String
  properties : Properties
  vars : List Variable
  triggers : Triggers
  procedures : List Procedure
  contents : Contents

namespace Declaration

def kind (d : Declaration) : String := d.contents.kind

/-- A text without blanks around it, and without the quotation marks around it if there are any. -/
def unquote (value : String) : String :=
  let cs := (Text.strip value).toList
  match cs, cs.getLast? with
  | first :: _ :: _, some last => if first = last && Doc.isQuote first then
      String.ofList cs.tail.dropLast else String.ofList cs
  | _, _ => String.ofList cs

def sourceTable (d : Declaration) : Option String := (d.properties.value? "SourceTable").map unquote

def pageType (d : Declaration) : Option String := (d.properties.value? "PageType").map unquote

def extensible (d : Declaration) : Bool := d.properties.isSet "extensible"

def recordOf (table : Option String) : TypeRef :=
  { name := "Record", text := "Record \"" ++ table.getD "None" ++ "\"", subtype := table }

/-- The record that the code of a table or page works on without declaring it. -/
def implicitRecord? (d : Declaration) : Option TypeRef :=
  match d.contents with
  | .table .. => some (recordOf (if d.objectType = "tableextension" then d.extends? else some d.name))
  | .page .. =>
    match d.sourceTable.filter (· ≠ "") with
    | some table => some (recordOf (some table))
    | none =>
      if d.objectType = "pageextension" then some { name := "Record", text := "Record" } else none
  | _ => none

end Declaration

structure SourceFile where
  path : String
  text : String
  declarations : List Declaration
  comments : List Comment

def SourceFile.lineText (f : SourceFile) (line : Int) : String :=
  if line ≤ 0 then "" else (Text.lines f.text).getD (line.toNat - 1) ""

end AlLint
