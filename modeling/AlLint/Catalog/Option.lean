import AlLint.Rule.Basic

/-!
# The values of options

What rules do with the values of their options: compare counts with them, and look for them at the end of names.
Numbers are compared with numbers of every kind, a truth value being one, and a name is held against one text or
against all that can be listed. A value of another type does not fit.
-/

namespace AlLint

def Context.option (c : Context) (rule name : String) (default : Document) : Document :=
  (c.option? rule name).getD default

namespace Catalog

def fullTypeName : Document → String
  | .moment m => "datetime." ++ m.typeName
  | d => d.typeName

def isAbove (count : Nat) : (limit : Document) → Except Misfit Bool
  | .int i => .ok (i < count)
  | .bool b => .ok (b.toNat < count)
  | .float f => .ok (f < Float.ofNat count)
  | d => .error (.compare (fullTypeName d))

def isNext (count : Nat) : (limit : Document) → Except Misfit Bool
  | .int i => .ok (count = i + 1)
  | .bool b => .ok (count = b.toNat + 1)
  | .float f => .ok (Float.ofNat count == f + 1)
  | d => .error (.add (fullTypeName d))

/-- What a value lists: its items, the characters of a text, the numbers of bytes, the keys of a mapping. -/
def listed : Document → Except Misfit (List Document)
  | .list items | .tuple items | .set items => .ok items
  | .text s => .ok (s.toList.map fun c => .text c.toString)
  | .bytes bs => .ok (bs.map fun b => .int b.toNat)
  | .map entries => .ok (entries.map Prod.fst)
  | d => .error (.list (fullTypeName d))

def endsWith (name ending : String) : Bool := ending.toList.isSuffixOf name.toList

def endsWithOne (name : String) : List Document → Except Misfit Bool
  | [] => .ok false
  | .text s :: rest => if endsWith name s then .ok true else endsWithOne name rest
  | d :: _ => .error (.endings (fullTypeName d))

def endsWithValue (name : String) : Document → Except Misfit Bool
  | .text s => .ok (endsWith name s)
  | .tuple endings => endsWithOne name endings
  | d => .error (.ending (fullTypeName d))

end Catalog

end AlLint
