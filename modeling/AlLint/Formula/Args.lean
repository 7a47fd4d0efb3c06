import AlLint.Formula.Item

/-!
# Arguments

The arguments of a call, given by place or by name, and what functions make of them.
-/

namespace AlLint.Formula

structure Args where
  places : List Value
  named : List (String × Value) := []

namespace Args

/-- The arguments of a function whose parameters have no names. Their number is between two bounds. -/
def byPlace (a : Args) (low high : Nat) : Except Mishap (List Value) :=
  if a.named.isEmpty && low ≤ a.places.length && a.places.length ≤ high then .ok a.places else .error .type

/-- The arguments of a function by the names of its parameters. Each is given at most once. -/
def byName (a : Args) (names : List String) : Except Mishap (List (Option Value)) :=
  let isTaken := fun (n : String) => (names.take a.places.length).contains n
  if a.places.length > names.length || a.named.any fun (n, _) => !names.contains n || isTaken n then .error .type
  else .ok (names.mapIdx fun i n => (a.places[i]?).or (a.named.reverse.lookup n))

def one (a : Args) (name : String) : Except Mishap Value := do
  match ← a.byName [name] with
  | [some v] => return v
  | _ => .error .type

def plain (a : Args) (v : Value) : Except Mishap Value := do
  let _ ← a.byPlace 0 0
  return v

end Args

end AlLint.Formula
