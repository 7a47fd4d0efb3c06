import AlLint.Formula.Number
import AlLint.Formula.Shown
import AlLint.Formula.Syntax

/-!
# Equality and order of values

Numbers are compared by value, texts by the numbers of their characters, lists item by item and sets by
inclusion. Inside of other values a value is equal to itself, even if it is a number that is not equal to any.
Values of kinds that cannot be compared are different, and neither comes before the other.
-/

namespace AlLint.Formula

namespace Value

mutual

def isKey : Value → Bool
  | list .. | set .. | dict .. | mapping .. | view .keys .. | view .items .. => false
  | tuple items _ => areKeys items
  | part (.span _) _ | part .place _ | part (.hidden .frame) _ | part (.hidden .evaluator) _ => true
  | part .. => false
  | _ => true

def areKeys : List Value → Bool
  | [] => true
  | v :: rest => isKey v && areKeys rest

end

def checkKey (v : Value) : Except Mishap Unit := if v.isKey then .ok () else .error .type

def memberCount? : Value → Option Nat
  | set items _ _ => some items.length
  | view .keys entries _ | view .items entries _ => some entries.length
  | _ => Option.none

/-! ## Equality -/

/-- Whether two values that hold no others are equal. Parts are equal if they are shown alike. -/
def equalScalars (a b : Value) : Bool :=
  match a.number?, b.number? with
  | some x, some y => x.equal y
  | Option.none, Option.none =>
    match a, b with
    | bytes xs _, bytes ys _ => xs == ys
    | part .place _, _ | _, part .place _ | part (.hidden _) _, _ | _, part (.hidden _) _ => isSame a b
    | part p _, part q _ => p.shown == q.shown
    | _, _ => isSame a b
  | _, _ => false

abbrev Test := Value → Except Mishap Bool

/-- Something that is looked up in a value that is like a set: whether it can be a key, and the test that finds
it. A pair can also be found by its two parts. -/
structure Probe where
  isKey : Bool
  finds : Test
  parts : Option (Bool × Test × Test) := Option.none

def orSame (x : Value) (test : Test) : Test := fun y => if isSame x y then .ok true else test y

def bothPass (first second : Test) (a b : Value) : Except Mishap Bool := do
  if ← first a then second b else return false

def Probe.isIn (p : Probe) : Value → Except Mishap Bool
  | set items _ _ => if p.isKey then items.anyM p.finds else .error .type
  | view .keys entries _ => if p.isKey then entries.anyM fun e => p.finds e.1 else .error .type
  | view .items entries _ =>
    match p.parts with
    | Option.none => .ok false
    | some (isKey, first, second) =>
      if isKey then entries.anyM fun e => bothPass first second e.1 e.2 else .error .type
  | _ => .ok false

def Probe.ofPair (k v : Value) (first second : Test) : Probe where
  isKey := k.isKey && v.isKey
  finds
    | tuple [a, b] _ => bothPass first second a b
    | _ => .ok false
  parts := some (k.isKey, first, second)

mutual

/-- Whether two values are equal. Fails if something that cannot be a key would have to be looked up in a set. -/
def equal : Value → Test
  | int i _, int j _ => .ok (i == j)
  | text s _, text t _ => .ok (s == t)
  | list xs _, list ys _ => equalItems xs ys
  | tuple xs _, tuple ys _ => equalItems xs ys
  | set xs _ _, b =>
    if b.memberCount? ≠ some xs.length then .ok false
    else
      match b with
      -- the pairs are looked up in the set, and so have to be keys
      | view .items ys _ =>
        let found := testsFor xs
        ys.allM fun e => if e.2.isKey then found.anyM fun test => test (tuple [e.1, e.2] .only) else .error .type
      | _ => allMembers xs b
  | view .keys xs _, b => if b.memberCount? = some xs.length then allKeys xs b else .ok false
  | view .items xs _, b => if b.memberCount? = some xs.length then allPairs xs b else .ok false
  | dict xs _, dict ys _ | dict xs _, mapping ys _ | mapping xs _, dict ys _ | mapping xs _, mapping ys _ =>
    if xs.length = ys.length then allEntries xs ys else .ok false
  | a, b => .ok (equalScalars a b)

def equalItems : List Value → List Value → Except Mishap Bool
  | [], [] => .ok true
  | x :: xs, y :: ys => do if isSame x y || (← equal x y) then equalItems xs ys else return false
  | _, _ => .ok false

def testsFor : List Value → List Test
  | [] => []
  | x :: xs => orSame x (equal x) :: testsFor xs

def allMembers : List Value → Test
  | [], _ => .ok true
  | x :: xs, c => do
    let p : Probe :=
      match x with
      | tuple [k, v] _ => .ofPair k v (orSame k (equal k)) (orSame v (equal v))
      | x => { isKey := x.isKey, finds := orSame x (equal x) }
    if ← p.isIn c then allMembers xs c else return false

def allKeys : List (Value × Value) → Test
  | [], _ => .ok true
  | (x, _) :: rest, c => do
    let p : Probe :=
      match x with
      | tuple [k, v] _ => .ofPair k v (orSame k (equal k)) (orSame v (equal v))
      | x => { isKey := x.isKey, finds := orSame x (equal x) }
    if ← p.isIn c then allKeys rest c else return false

def allPairs : List (Value × Value) → Test
  | [], _ => .ok true
  | (k, v) :: rest, c => do
    let p : Probe := .ofPair k v (orSame k (equal k)) (orSame v (equal v))
    if ← p.isIn c then allPairs rest c else return false

def allEntries : List (Value × Value) → List (Value × Value) → Except Mishap Bool
  | [], _ => .ok true
  | (k, v) :: rest, ys => do
    let isThere ← ys.anyM fun e => bothPass (orSame k (equal k)) (orSame v (equal v)) e.1 e.2
    if isThere then allEntries rest ys else return false

end

def isFound (x : Value) : Test := orSame x (equal x)

def insertItem (items : List Value) (v : Value) : Except Mishap (List Value) := do
  v.checkKey
  return if ← items.anyM v.isFound then items else items ++ [v]

/-- Gives a key a value. A key that is there stays as it is. -/
def insertEntry (entries : List (Value × Value)) (key value : Value) : Except Mishap (List (Value × Value)) := do
  key.checkKey
  match ← entries.findM? fun e => key.isFound e.1 with
  | some (k, _) => return entries.map fun e => if isSame e.1 k then (e.1, value) else e
  | Option.none => return entries ++ [(key, value)]

def entryOf? (entries : List (Value × Value)) (key : Value) : Except Mishap (Option Value) := do
  key.checkKey
  return (← entries.findM? fun e => key.isFound e.1).map Prod.snd

/-! ## Order -/

def fits (op : Comparison) (o : Ordering) : Bool :=
  match op with
  | .less => o == .lt
  | .lessEqual => o != .gt
  | .greater => o == .gt
  | .greaterEqual => o != .lt
  | _ => false

def orderScalars (op : Comparison) (a b : Value) : Except Mishap Bool :=
  match a.number?, b.number? with
  | some x, some y => do return (← x.compare? y).any (fits op)
  | _, _ =>
    match a, b with
    | text s _, text t _ => .ok (fits op (compare s t))
    | bytes xs _, bytes ys _ => .ok (fits op (compare (xs.map UInt8.toNat) (ys.map UInt8.toNat)))
    | _, _ => .error .type

def isIncluded : Value → Test
  | set items _ _, b => allMembers items b
  | view .keys entries _, b => allKeys entries b
  | view .items entries _, b => allPairs entries b
  | _, _ => .error .type

def orderSets (op : Comparison) (a b : Value) (m n : Nat) : Except Mishap Bool :=
  match op with
  | .less => if m < n then isIncluded a b else .ok false
  | .lessEqual => if m ≤ n then isIncluded a b else .ok false
  | .greater => if m > n then isIncluded b a else .ok false
  | .greaterEqual => if m ≥ n then isIncluded b a else .ok false
  | _ => .ok false

mutual

def order (op : Comparison) : Value → Test
  | list xs _, list ys _ => orderItems op xs ys
  | tuple xs _, tuple ys _ => orderItems op xs ys
  | a, b =>
    match a.memberCount?, b.memberCount? with
    | some m, some n => orderSets op a b m n
    | _, _ => orderScalars op a b

def orderItems (op : Comparison) : List Value → List Value → Except Mishap Bool
  | x :: xs, y :: ys => do if ← x.isFound y then orderItems op xs ys else order op x y
  | xs, ys => .ok (fits op (compare xs.length ys.length))

end

end Value

end AlLint.Formula
