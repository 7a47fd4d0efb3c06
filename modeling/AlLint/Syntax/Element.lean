import AlLint.Syntax.Stmt
import AlLint.Syntax.TypeRef

/-!
# Objects as they are written

An object is a tree of elements: sections such as `fields` or `layout`, the elements inside them, and their
properties, variables and code. What an element means is not decided here.
-/

namespace AlLint

/-- A declared variable. The label is there for variables of label type. -/
structure Variable where
  name : String
  type : TypeRef
  span : Span
  quoted : Bool
  label : Option Label

def Variable.key (v : Variable) : String := Text.lower v.name

structure Parameter where
  name : String
  type : TypeRef
  span : Span
  byRef : Bool

def Parameter.key (p : Parameter) : String := Text.lower p.name

/-- `name = value` in an object or element. The value is kept as it is written. -/
structure Property where
  name : String
  value : String
  span : Span

inductive Visibility where
  | everyone
  | sameObject
  | sameApp
  | extensions
deriving DecidableEq, Repr

def Visibility.text : Visibility → String
  | .everyone => "public"
  | .sameObject => "local"
  | .sameApp => "internal"
  | .extensions => "protected"

inductive CodeKind where
  | trigger
  | procedure
deriving DecidableEq, Repr

def CodeKind.label : CodeKind → String
  | .trigger => "trigger"
  | .procedure => "procedure"

structure CodeMember where
  kind : CodeKind
  name : String
  span : Span
  visibility : Visibility
  attributes : List String
  parameters : List Parameter
  returnType : Option TypeRef
  returnName : Option String
  vars : List Variable
  body : List Stmt
  hasBody : Bool
  doc : List Comment

/-- `keyword(arg; arg) { ... }`: a section or an element of one. -/
structure Element where
  keyword : String
  span : Span
  args : List (List Token)
  properties : List Property
  children : List Element
  codes : List CodeMember
  vars : List Variable
  doc : List Comment

structure ObjectSyntax where
  objectId : Option Nat
  name : String
  extends? : Option String
  implements : List String
  body : Element

structure SyntaxTree where
  objects : List ObjectSyntax
  comments : List Comment
  issues : List Issue

end AlLint
