import AlLint.Declaration.Basic
import AlLint.Document.Basic
import AlLint.Flow.State

/-!
# Where a rule looks

Everything that a rule may know about the place of the node that it checks: the declaration and the routine around
it, the variables in scope, the enclosing loops and conditions, and what is known along the paths that
lead there.
-/

namespace AlLint

inductive Routine where
  | trigger (t : Trigger)
  | procedure (p : Procedure)

namespace Routine

def name : Routine → String
  | trigger t => t.name
  | procedure p => p.name

def parameters : Routine → List Parameter
  | trigger t => t.parameters
  | procedure p => p.parameters

def vars : Routine → List Variable
  | trigger t => t.vars
  | procedure p => p.vars

def body : Routine → List Stmt
  | trigger t => t.body
  | procedure p => p.body

end Routine

inductive Place where
  | declaration
  | trigger
  | fieldTrigger
  | controlTrigger
  | actionTrigger
  | procedure
deriving DecidableEq, Repr

def Place.label : Place → String
  | .declaration => "declaration"
  | .trigger => "trigger"
  | .fieldTrigger => "field_trigger"
  | .controlTrigger => "control_trigger"
  | .actionTrigger => "action_trigger"
  | .procedure => "procedure"

abbrev Symbols := Keyed TypeRef

/-- The variables in scope of a routine: the records that are there without being declared, then the variables
of the object, the parameters and the local variables. Later ones hide earlier ones. -/
def Symbols.ofScope (d : Declaration) (parameters : List Parameter) (vars : List Variable) : Symbols :=
  let implicit :=
    match d.implicitRecord? with
    | some t => [("rec", t), ("xrec", t)]
    | none => []
  Keyed.ofList (implicit ++ d.vars.map (fun v => (v.key, v.type)) ++ parameters.map (fun p => (p.key, p.type)) ++
    vars.map (fun v => (v.key, v.type)))

abbrev Options := Keyed (Keyed Document)

/-- Where a rule looks. `loopEntries` holds the states on entry to the enclosing loops, innermost first, and `silent`
counts the passes that only gather what is known. -/
structure Context where
  declaration : Declaration
  place : Place := .declaration
  routine : Option Routine := none
  owner : Option String := none
  symbols : Symbols := []
  state : FlowState := {}
  loopDepth : Int := 0
  loopEntries : List FlowState := []
  ifDepth : Nat := 0
  silent : Nat := 0
  namePrefix : Option String := none
  options : Options := []

namespace Context

/-! ## Questions -/

def objectKind (c : Context) : String := c.declaration.kind

def inLoop (c : Context) : Bool := c.loopDepth > 0

def inTableTrigger (c : Context) : Bool :=
  c.objectKind == "table" && (c.place == .trigger || c.place == .fieldTrigger)

def option? (c : Context) (rule name : String) : Option Document :=
  (c.options.get? rule).bind (·.get? name)

def typeOf? (c : Context) (name : String) : Option TypeRef := c.symbols.get? (Text.lower name)

def isRecord (c : Context) (name : String) : Bool :=
  !name.isEmpty && ((c.typeOf? name).map TypeRef.isRecord).getD false

def isTemporary (c : Context) (name : String) : Bool :=
  !name.isEmpty && ((c.typeOf? name).map TypeRef.temporary).getD false

def recordReceiver? (c : Context) (call : Call) : Option String := call.receiver?.filter c.isRecord

def loadLabel (s : FlowState) (name : String) : String :=
  ((s.loads.get? (Text.lower name)).map Load.label).getD Load.unknownLabel

def load (c : Context) (name : String) : String := loadLabel c.state name

/-- How a record is loaded on entry to the outermost loop, or here if there is no loop. -/
def loopEntryLoad (c : Context) (name : String) : String :=
  loadLabel (c.loopEntries.getLast?.getD c.state) name

def isChecked (c : Context) (name : String) : Bool := c.state.checked.contains (Text.lower name)

def isUserCall (c : Context) (call : Call) : Bool :=
  if call.isGlobal then ["confirm", "message", "strmenu"].contains call.method
  else
    match call.receiver? with
    | none => false
    | some receiver =>
      ["open", "update"].contains call.method && ((c.typeOf? receiver).map TypeRef.isDialog).getD false

/-! ## Changes -/

def update (c : Context) (f : FlowState → FlowState) : Context := { c with state := f c.state }

def enterLoop (c : Context) (entry : FlowState) : Context :=
  { c with loopDepth := c.loopDepth + 1, loopEntries := entry :: c.loopEntries }

def leaveLoop (c : Context) : Context :=
  { c with loopDepth := c.loopDepth - 1, loopEntries := c.loopEntries.tail }

def terminate (c : Context) : Context := c.update ({ · with reachable := false })

def filterMethods : List String := ["setrange", "setfilter", "copyfilters", "copyfilter", "setview", "reset"]

def methodEffect (method record : String) (s : FlowState) : FlowState :=
  let s :=
    match method with
    | "get" => s.mark record .full
    | "setloadfields" | "addloadfields" => s.mark record .part
    | "isempty" => s.check record
    | "reset" => s.unmark record
    | _ => s
  if filterMethods.contains method then s.uncheck record else s

def applyCall (c : Context) (call : Call) : Context :=
  if call.isGlobal then
    match call.method, call.args with
    | "commit", _ => c.update ({ · with commit := true })
    | "clear", .name n _ _ :: _ =>
      let record := Text.lower n
      if c.isRecord record then c.update fun s => (s.unmark record).uncheck record else c
    | _, _ => c
  else
    match c.recordReceiver? call with
    | none => c
    | some record => c.update (methodEffect call.method record)

/-- What an assignment does: a record that is assigned takes over how the other one is loaded. -/
def applyAssignment (c : Context) (target : Expr) (op : AssignOp) (value : Expr) : Context :=
  match op, target with
  | .set, .name n _ _ =>
    let record := Text.lower n
    if !c.isRecord record then c
    else
      let taken : Option Load :=
        match value with
        | .name m _ _ => if c.isRecord (Text.lower m) then c.state.loads.get? (Text.lower m) else none
        | _ => none
      match taken with
      | some load => c.update (·.mark record load)
      | none => c.update (·.unmark record)
  | _, _ => c

end Context

end AlLint
