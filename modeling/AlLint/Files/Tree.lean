import AlLint.Files.Path
import AlLint.Text.Quoted

/-!
# Trees of files

A tree is a file or a folder of named trees. A path leads from a folder to one of the trees below it: each name
but the last must be a folder, and two dots lead back to the folder above.
-/

namespace AlLint.Files

inductive Obstacle where
  | absent
  | denied
  | notFolder
  | isFolder
deriving DecidableEq, Repr

def Obstacle.message (path : String) : Obstacle → String
  | .absent => s!"[Errno 2] No such file or directory: {Text.quoted path}"
  | .denied => s!"[Errno 13] Permission denied: {Text.quoted path}"
  | .notFolder => s!"[Errno 20] Not a directory: {Text.quoted path}"
  | .isFolder => s!"[Errno 21] Is a directory: {Text.quoted path}"

inductive Tree where
  | file (bytes : Option ByteArray)
  | folder (children : List (String × Tree))
deriving Inhabited

namespace Tree

def child? (name : String) : Tree → Except Obstacle (Option Tree)
  | .file _ => .error .notFolder
  | .folder children => .ok (children.lookup name)

/-- The tree that some names lead to from the first of some folders, which stand from the inside out. -/
def follow (here : Tree) (above : List Tree) : List String → Except Obstacle Tree
  | [] => .ok here
  | name :: rest => do
    let found ← here.child? name
    if name = "" || name = "." then follow here above rest
    else if name = ".." then
      match above with
      | [] => follow here [] rest
      | up :: further => follow up further rest
    else
      match found with
      | none => .error .absent
      | some t => follow t (here :: above) rest

/-- The tree that a path leads to. The empty path leads nowhere, and what is outside of the tree is not there. -/
def find (root : Tree) (path : String) : Except Obstacle Tree :=
  if path = "" || path.toList.head? = some '/' then .error .absent else root.follow [] (Path.names path)

def bytes : Tree → Except Obstacle ByteArray
  | .file (some b) => .ok b
  | .file none => .error .denied
  | .folder _ => .error .isFolder

def put (new : Tree) : (here : Tree) → (names : List String) → Tree
  | _, [] => new
  | .file _, name :: rest => .folder [(name, put new (.folder []) rest)]
  | .folder children, name :: rest =>
    let old := (children.lookup name).getD (.folder [])
    .folder ((name, put new old rest) :: children.filter fun c => c.1 ≠ name)

def place (path : String) : List String := ((Path.names path).foldl (Path.step true) []).reverse

/-- Writes a file. Its folder must be there, and no folder may have its name. -/
def write (root : Tree) (path : String) (b : ByteArray) : Except Obstacle Tree :=
  if path = "" || path.toList.head? = some '/' then .error .absent
  else do
    let names := Path.names path
    let last := names.getLastD ""
    let parent ← root.follow [] names.dropLast
    let old ← parent.child? last
    if last = "" || last = "." || last = ".." then .error .isFolder
    else
      match old with
      | some (.folder _) => .error .isFolder
      | _ => .ok (put (.file (some b)) root (place path))

end Tree

structure Disk where
  entry : String → Except Obstacle Tree

namespace Disk

def ofTree (root : Tree) : Disk := ⟨root.find⟩

def read (disk : Disk) (path : String) : Except Obstacle ByteArray := (disk.entry path).bind Tree.bytes

end Disk

end AlLint.Files
