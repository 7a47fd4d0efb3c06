/-!
# Paths

A path is a row of names with slashes between them. It starts at the root of the disk if it starts with a slash.
Two paths that differ only in empty names, single dots, or names that are taken back by two dots have the same
normal form.
-/

namespace AlLint.Files.Path

def parts : List Char → List (List Char)
  | [] => [[]]
  | '/' :: rest => [] :: parts rest
  | c :: rest =>
    match parts rest with
    | [] => [[c]]
    | p :: ps => (c :: p) :: ps

def names (path : String) : List String := (parts path.toList).map String.ofList

/-- How many slashes the normal form of a path starts with. Two are kept, more count as one. -/
def rootSlashes : List Char → Nat
  | '/' :: '/' :: '/' :: _ => 1
  | '/' :: '/' :: _ => 2
  | '/' :: _ => 1
  | _ => 0

/-- Goes on by a name. The names so far stand in reverse. Two dots take back the last name, unless there is none
or it is two dots as well; at the root there is nothing above. -/
def step (rooted : Bool) (above : List String) (name : String) : List String :=
  if name = "" || name = "." then above
  else if name ≠ ".." then name :: above
  else
    match above with
    | [] => if rooted then [] else [name]
    | last :: rest => if last = ".." then name :: above else rest

def normalize (path : String) : String :=
  let slashes := rootSlashes path.toList
  let kept := ((names path).foldl (step (slashes ≠ 0)) []).reverse
  let text := String.ofList (List.replicate slashes '/') ++ String.intercalate "/" kept
  if text = "" then "." else text

def join (folder name : String) : String :=
  if folder = "" || folder.toList.getLast? = some '/' then folder ++ name else folder ++ "/" ++ name

end AlLint.Files.Path
