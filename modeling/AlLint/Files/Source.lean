import AlLint.Files.Tree
import AlLint.Text.Case
import AlLint.Text.Line

/-!
# Source files

The files of a run are the ones that are named, and the ones in named folders whose name ends in `.al` in any
letter case. A file counts once, however it is named. In a folder files come before folders, and both in the
order of their names.
-/

namespace AlLint.Files

structure Source where
  path : String
  bytes : Option ByteArray

def isSourceName (name : String) : Bool := ".al".toList.isSuffixOf (Text.lower name).toList

structure Named (α : Type) where
  name : String
  value : α

def sortNamed {α : Type} (xs : List (Named α)) : List (Named α) := xs.mergeSort fun a b => decide (a.name ≤ b.name)

def ownSources (folder : String) (children : List (String × Tree)) : List Source :=
  let named := children.filterMap fun (name, t) =>
    match t with
    | .file b => if isSourceName name then some ⟨name, b⟩ else none
    | .folder _ => none
  (sortNamed named).map fun f => ⟨Path.normalize (Path.join folder f.name), f.value⟩

mutual

def Tree.sources (path : String) : Tree → List Source
  | .file b => [⟨Path.normalize path, b⟩]
  | .folder children =>
    ownSources path children ++ (sortNamed (folderSources path children)).flatMap Named.value

def folderSources (path : String) : List (String × Tree) → List (Named (List Source))
  | [] => []
  | (_, .file _) :: rest => folderSources path rest
  | (name, .folder children) :: rest =>
    ⟨name, Tree.sources (Path.join path name) (.folder children)⟩ :: folderSources path rest

end

structure Sources where
  files : List Source := []
  missing : List String := []

namespace Sources

def add (s : Sources) (f : Source) : Sources :=
  if s.files.any fun g => g.path == f.path then s else { s with files := s.files ++ [f] }

def addPath (disk : Disk) (s : Sources) (path : String) : Sources :=
  match disk.entry path with
  | .ok t => (t.sources path).foldl add s
  | .error _ => { s with missing := s.missing ++ [path] }

def collect (disk : Disk) (paths : List String) : Sources := paths.foldl (addPath disk) {}

end Sources

def dropMark : List Char → List Char
  | '\ufeff' :: rest => rest
  | cs => cs

def decode? (b : ByteArray) : Option String :=
  (String.fromUTF8? b).map fun s => String.ofList (Text.unifyLines s.toList)

/-- The text of a source file. A byte order mark at its start is not part of it. -/
def Source.text? (s : Source) : Option String :=
  (s.bytes.bind decode?).map fun text => String.ofList (dropMark text.toList)

end AlLint.Files
