import AlLint.Formula.Host
import AlLint.Yaml.Node
import AlLint.Yaml.Scalar

/-!
# Reading documents in YAML

The part of YAML that configuration needs: mappings and sequences by indentation or in brackets, plain and
quoted scalars, comments, and several documents in one file. What does not fit is not a document at all.

Keys are scalars. A key that comes again takes the new value in its old place.
-/

namespace AlLint.Yaml

def buildScalar (text : List Char) (isPlain : Bool) : Except Error Document :=
  if isPlain then resolve text else .ok (.text (String.ofList text))

mutual

def build : Node → Except Error Document
  | .scalar text isPlain => buildScalar text isPlain
  | .sequence items => do return .list (← buildItems items)
  | .mapping entries => do
    return .map ((← buildEntries entries).foldl (fun es e => Document.insertKey es e.1 e.2) [])

def buildItems : List Node → Except Error (List Document)
  | [] => .ok []
  | n :: rest => do
    let d ← build n
    return d :: (← buildItems rest)

def buildEntries : List (Node × Node) → Except Error (List (Document × Document))
  | [] => .ok []
  | (.scalar text isPlain, v) :: rest => do
    let key ← buildScalar text isPlain
    let value ← build v
    return (key, value) :: (← buildEntries rest)
  | _ :: _ => .error .malformed

end

def isAllowed (c : Char) : Bool :=
  let n := c.toNat
  n == 9 || n == 10 || n == 13 || (0x20 ≤ n && n ≤ 0x7e) || n == 0x85 || (0xa0 ≤ n && n ≤ 0xfffd) || 0x10000 ≤ n

def Error.unread : Error → Unread
  | .malformed => .malformed Error.malformed.message
  | e => .broken ⟨"ValueError", e.message⟩

def nodes (text : String) : Except Error (List Node) :=
  let cs := text.toList
  match if cs.all isAllowed then (Token.scan cs).bind Node.ofTokens? else none with
  | none => .error .malformed
  | some nodes => .ok nodes

def documents (text : String) : Except Error (List Document) := do buildItems (← nodes text)

def document (text : String) : Except Error Document := do
  match ← nodes text with
  | [] => return .null
  | [n] => build n
  | _ => .error .malformed

/-- What reads documents here. Nothing is too deep for it, and it does not tell in detail what is wrong with a
formula. -/
def host : Host where
  documents := fun text => (documents text).mapError Error.unread
  document := fun text => (document text).mapError Error.unread
  breakdown? := fun _ => none
  complaint := fun _ => "no formula"
  detail := fun _ _ e => e.name

end AlLint.Yaml
