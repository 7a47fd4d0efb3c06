import AlLint.Reading.Cursor
import AlLint.Syntax.TypeRef
import AlLint.Text.Blank

/-!
# Reading types

A type is read from the tokens that stand for it, which have been collected before. Any tokens are
some type; what is not understood is only kept as text.
-/

namespace AlLint.Reading

def depthChange (t : Token) : Int :=
  if t.isOpIn ["(", "["] then 1 else if t.isOpIn [")", "]"] then -1 else 0

/-- Splits tokens at a separator outside of brackets. `part` holds the current part in reverse. Empty
parts are kept. -/
def splitAtDepth (separator : String) (depth : Int) (part : List Token) : List Token → List (List Token)
  | [] => [part.reverse]
  | t :: ts =>
    if depthChange t = 0 ∧ depth = 0 ∧ t.isOp separator then
      part.reverse :: splitAtDepth separator depth [] ts
    else splitAtDepth separator (depth + depthChange t) (t :: part) ts

/-- The parts of some tokens between separators outside of brackets, without the empty ones. -/
def splitTokens (separator : String) (ts : List Token) : List (List Token) :=
  (splitAtDepth separator 0 [] ts).filter fun part => !part.isEmpty

def typesWithSubtype : List String := [
  "record", "codeunit", "page", "report", "query", "xmlport", "enum", "interface", "testpage",
  "testrequestpage", "dotnet", "controladdin"]

/-- The property `name = value` of a label. A value that is one string stands for itself. -/
def labelProperty? (inp : Input) : List Token → Option (String × String)
  | name :: eq :: value :: more =>
    if eq.isOp "=" then
      let text := if more.isEmpty && value.kind == .string then value.value else inp.textOf (value :: more)
      some (Text.lower name.value, text)
    else none
  | _ => none

def labelText? : List (List Token) → Option String
  | (t :: _) :: _ => if t.kind == .string then some t.value else none
  | _ => none

def label (inp : Input) (ts : List Token) : Label :=
  let parts := splitTokens "," ts
  let text := labelText? parts
  let rest := if text.isSome then parts.tail else parts
  let properties := Keyed.ofList (rest.filterMap (labelProperty? inp))
  { text := text.getD ""
    comment := properties.get? "comment"
    locked := Text.lower (Text.strip ((properties.get? "locked").getD "")) == "true"
    properties }

/-- The text between an opening bracket and the first closing one, if `ts` starts with a bracket. -/
def bracketText? (inp : Input) : List Token → Option String
  | t :: ts => if t.isOp "[" then some (inp.textOf (ts.takeWhile fun u => !u.isOp "]")) else none
  | [] => none

def arrayLength? (inp : Input) (rest : List Token) : Option String :=
  match rest.takeWhile fun t => !t.isWord "of" with
  | t :: u :: more => if t.isOp "[" then some (inp.textOf (u :: more).dropLast) else none
  | _ => none

def subtype? (first : Token) : List Token → Option String
  | t :: _ => if typesWithSubtype.contains first.lower && (t.isName || t.kind == .number) then some t.value else none
  | [] => none

def typeRef (inp : Input) (first : Token) (rest : List Token) : TypeRef :=
  let text := inp.textOf (first :: rest)
  let start := some first.start
  if first.isWord "label" then { name := first.value, text, start }
  else if first.isWord "array" then
    let length := arrayLength? inp rest
    match _h : rest.dropWhile fun t => !t.isWord "of" with
    | [] => { name := first.value, text, start }
    | [_] => { name := first.value, text, length, start }
    | _ :: e :: es => { name := first.value, text, length, start, element := some (typeRef inp e es) }
  else
    let length := bracketText? inp rest
    let subtype := if length.isNone then subtype? first rest else none
    { name := first.value, text, subtype, length, start
      temporary := (rest.getLast?.map (·.isWord "temporary")).getD false }
termination_by rest.length
decreasing_by
  have := (List.dropWhile_suffix (fun t : Token => !t.isWord "of") (l := rest)).length_le
  simp only [_h, List.length_cons] at this; omega

def typeLabel? (inp : Input) (first : Token) (rest : List Token) : Option Label :=
  if first.isWord "label" then some (label inp rest) else none

end AlLint.Reading
