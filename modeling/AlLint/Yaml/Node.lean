import AlLint.Yaml.Token

/-!
# Nodes

A document is a node: a scalar, a sequence or a mapping, by indentation or between brackets. What is left out
where a node could stand is an empty plain scalar. Each function takes the tokens that are left, and `fuel`
bounds the depth of the calls: between two tokens there are only a few.
-/

namespace AlLint.Yaml

inductive Node where
  | scalar (text : List Char) (isPlain : Bool)
  | sequence (items : List Node)
  | mapping (entries : List (Node × Node))

namespace Node

def empty : Node := scalar [] true

def isNext (marks : List Token) : List Token → Bool
  | [] => false
  | t :: _ => marks.contains t

mutual

def flow : Nat → List Token → Option (Node × List Token)
  | 0, _ => none
  | _ + 1, .scalar text isPlain :: ts => some (scalar text isPlain, ts)
  | fuel + 1, .flowSequenceStart :: ts => (flowItems fuel true ts).map fun (items, ts) => (sequence items, ts)
  | fuel + 1, .flowMappingStart :: ts => (flowEntries fuel true ts).map fun (entries, ts) => (mapping entries, ts)
  | _ + 1, _ => none

def flowOr : Nat → List Token → List Token → Option (Node × List Token)
  | 0, _, _ => none
  | fuel + 1, marks, ts => if isNext marks ts then some (empty, ts) else flow fuel ts

/-- The key and the value of an entry that ends before some tokens, after the mark of the key. -/
def flowPair : Nat → List Token → List Token → Option ((Node × Node) × List Token)
  | 0, _, _ => none
  | fuel + 1, marks, ts => do
    let (key, ts) ← flowOr fuel (.value :: marks) ts
    match ts with
    | .value :: ts => do
      let (value, ts) ← flowOr fuel marks ts
      return ((key, value), ts)
    | _ => return ((key, empty), ts)

/-- The items of a sequence in brackets, up to the closing bracket. Before all but the first there is a comma. -/
def flowItems : Nat → Bool → List Token → Option (List Node × List Token)
  | 0, _, _ => none
  | _ + 1, _, .flowSequenceEnd :: ts => some ([], ts)
  | fuel + 1, isFirst, ts => do
    let ts ←
      match isFirst, ts with
      | true, _ => some ts
      | false, .flowEntry :: ts => some ts
      | false, _ => none
    match ts with
    | .flowSequenceEnd :: ts => return ([], ts)
    | .key :: ts => do
      let (pair, ts) ← flowPair fuel [.flowEntry, .flowSequenceEnd] ts
      let (items, ts) ← flowItems fuel false ts
      return (mapping [pair] :: items, ts)
    | _ => do
      let (item, ts) ← flow fuel ts
      let (items, ts) ← flowItems fuel false ts
      return (item :: items, ts)

/-- The entries of a mapping in braces, up to the closing brace. A node that is no key has no value. -/
def flowEntries : Nat → Bool → List Token → Option (List (Node × Node) × List Token)
  | 0, _, _ => none
  | _ + 1, _, .flowMappingEnd :: ts => some ([], ts)
  | fuel + 1, isFirst, ts => do
    let ts ←
      match isFirst, ts with
      | true, _ => some ts
      | false, .flowEntry :: ts => some ts
      | false, _ => none
    match ts with
    | .flowMappingEnd :: ts => return ([], ts)
    | .key :: ts => do
      let (pair, ts) ← flowPair fuel [.flowEntry, .flowMappingEnd] ts
      let (entries, ts) ← flowEntries fuel false ts
      return (pair :: entries, ts)
    | _ => do
      let (key, ts) ← flow fuel ts
      let (entries, ts) ← flowEntries fuel false ts
      return ((key, empty) :: entries, ts)

end

mutual

/-- A node outside of brackets. A sequence that is the key or value of a mapping need not be indented further
than it. -/
def block : Nat → (inMapping : Bool) → List Token → Option (Node × List Token)
  | 0, _, _ => none
  | fuel + 1, _, .sequenceStart :: ts => (items fuel ts).map fun (items, ts) => (sequence items, ts)
  | fuel + 1, _, .mappingStart :: ts => (entries fuel ts).map fun (entries, ts) => (mapping entries, ts)
  | fuel + 1, true, .entry :: ts => (flushItems fuel (.entry :: ts)).map fun (items, ts) => (sequence items, ts)
  | fuel + 1, _, ts => flow fuel ts

def blockOr : Nat → Bool → List Token → List Token → Option (Node × List Token)
  | 0, _, _, _ => none
  | fuel + 1, inMapping, marks, ts => if isNext marks ts then some (empty, ts) else block fuel inMapping ts

def items : Nat → List Token → Option (List Node × List Token)
  | 0, _ => none
  | fuel + 1, .entry :: ts => do
    let (item, ts) ← blockOr fuel false [.entry, .blockEnd] ts
    let (items, ts) ← items fuel ts
    return (item :: items, ts)
  | _ + 1, .blockEnd :: ts => some ([], ts)
  | _ + 1, _ => none

def flushItems : Nat → List Token → Option (List Node × List Token)
  | 0, _ => none
  | fuel + 1, .entry :: ts => do
    let (item, ts) ← blockOr fuel false [.entry, .key, .value, .blockEnd] ts
    let (items, ts) ← flushItems fuel ts
    return (item :: items, ts)
  | _ + 1, ts => some ([], ts)

def entries : Nat → List Token → Option (List (Node × Node) × List Token)
  | 0, _ => none
  | fuel + 1, .key :: ts => do
    let marks := [.key, .value, .blockEnd]
    let (key, ts) ← blockOr fuel true marks ts
    let (value, ts) ←
      match ts with
      | .value :: ts => blockOr fuel true marks ts
      | _ => some (empty, ts)
    let (entries, ts) ← entries fuel ts
    return ((key, value) :: entries, ts)
  | _ + 1, .blockEnd :: ts => some ([], ts)
  | _ + 1, _ => none

end

def callsPerToken : Nat := 8

def document? (ts : List Token) : Option (Node × List Token) := do
  let (node, ts) ← block (callsPerToken * (ts.length + 1)) false ts
  return (node, if isNext [.documentEnd] ts then ts.tail else ts)

def markedDocuments : Nat → List Token → Option (List Node)
  | 0, _ => none
  | fuel + 1, ts =>
    match ts.dropWhile (· == .documentEnd) with
    | [] => some []
    | .documentStart :: ts => do
      let (node, ts) ← if ts.isEmpty || isNext [.documentStart, .documentEnd] ts then
        some (empty, ts) else document? ts
      let nodes ← markedDocuments fuel ts
      return node :: nodes
    | _ => none

/-- All documents of a text. Only the first one may start without a mark. -/
def ofTokens? (ts : List Token) : Option (List Node) :=
  if ts.isEmpty || isNext [.documentStart] ts then markedDocuments (ts.length + 1) ts
  else do
    let (node, ts) ← document? ts
    let nodes ← markedDocuments (ts.length + 1) ts
    return node :: nodes

end Node

end AlLint.Yaml
