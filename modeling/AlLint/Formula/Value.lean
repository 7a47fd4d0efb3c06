import AlLint.Flow.Node
import AlLint.Formula.Failure
import AlLint.Formula.Mark

/-!
# Values of formulas

Formulas work on plain values and on the parts of a file. Of the place where a rule looks they are given a view,
which shows its surroundings: what is listed here, and nothing else that the analysis keeps.
-/

namespace AlLint.Formula

/-- What formulas can see of a place: where it is, what is known there, and what is known about variables by name. -/
structure Surroundings where
  objectKind : String
  memberKind : String
  member : Option Routine
  owner : Option String
  loopDepth : Int
  inLoop : Bool
  inTableTrigger : Bool
  ifDepth : Nat
  commitObserved : Bool
  reachable : Bool
  namePrefix : Option String
  typeOf : String → Option TypeRef
  isRecord : String → Bool
  isTemporary : String → Bool
  load : String → String
  loopEntryLoad : String → String
  isChecked : String → Bool

def Surroundings.of (c : Context) : Surroundings where
  objectKind := c.objectKind
  memberKind := c.place.label
  member := c.routine
  owner := c.owner
  loopDepth := c.loopDepth
  inLoop := c.inLoop
  inTableTrigger := c.inTableTrigger
  ifDepth := c.ifDepth
  commitObserved := c.state.commit
  reachable := c.state.reachable
  namePrefix := c.namePrefix
  typeOf := c.typeOf?
  isRecord := c.isRecord
  isTemporary := c.isTemporary
  load := c.load
  loopEntryLoad := c.loopEntryLoad
  isChecked := c.isChecked

/-- What formulas can come to by way of a generator: the frame that it works in, what a frame knows by name, the
function among that which computes the value of a text, and what a view shows the surroundings of. -/
inductive Hidden where
  | frame
  | builtins
  | evaluator
  | context
deriving DecidableEq, Repr

def Hidden.label : Hidden → String
  | frame => "frame"
  | builtins => "builtins"
  | evaluator => "eval"
  | context => "context"

/-- What stands behind the view that a formula is given: the context that is viewed, if there is one. Behind a
sealed view there is nothing that a formula can come to. -/
inductive Behind where
  | sealed
  | context (c : Option Context)

/-- What a formula is evaluated in: the surroundings that its view shows, and what stands behind the view. -/
structure Scene where
  face : Option Surroundings := none
  behind : Behind := .context none

def Scene.at (c : Context) : Scene := ⟨some (.of c), .context (some c)⟩

inductive Part where
  | node (n : Node)
  | span (s : Span)
  | comment (c : Comment)
  | type (t : TypeRef)
  | property (p : Property)
  | label (l : Label)
  | parameter (p : Parameter)
  | doc (d : Doc)
  | branch (b : Branch Stmt)
  | file (f : SourceFile)
  | place
  | hidden (h : Hidden)

inductive Helper where
  | len
  | any
  | all
  | sum
  | min
  | max
  | sorted
  | abs
  | str
  | lower
  | callee
  | method
  | receiver
  | text
  | calls
  | names
deriving DecidableEq, Repr

def Helper.byName : List (String × Helper) := [
  ("len", .len), ("any", .any), ("all", .all), ("sum", .sum), ("min", .min), ("max", .max), ("sorted", .sorted),
  ("abs", .abs), ("str", .str), ("lower", .lower), ("callee", .callee), ("method", .method), ("receiver", .receiver),
  ("text", .text), ("calls", .calls), ("names", .names)]

inductive View where
  | keys
  | values
  | items
deriving DecidableEq, Repr

/-- Where the items of a set stand: the number of places that there are, the places of the items in increasing
order, and how many places are empty but were not always so. -/
structure Shelf where
  size : Nat := 8
  places : List Nat := []
  cleared : Nat := 0
deriving DecidableEq, Repr

/-- Values. A set has its items in the order of their places, and a generator is known by its number. -/
inductive Value where
  | none
  | bool (b : Bool)
  | int (i : Int) (mark : Mark)
  | float (f : Float) (mark : Mark)
  | complex (re im : Float) (mark : Mark)
  | bytes (bs : List UInt8) (mark : Mark)
  | ellipsis
  | text (s : String) (mark : Mark)
  | list (items : List Value) (mark : Mark)
  | tuple (items : List Value) (mark : Mark)
  | set (items : List Value) (shelf : Shelf) (mark : Mark)
  | dict (entries : List (Value × Value)) (mark : Mark)
  | mapping (entries : List (Value × Value)) (mark : Mark)
  | view (shows : View) (entries : List (Value × Value)) (mark : Mark)
  | generator (number : Nat)
  | helper (h : Helper)
  | method (receiver : Value) (name : String) (mark : Mark)
  | part (p : Part) (mark : Mark)

instance : Inhabited Value := ⟨.none⟩

namespace Value

/-- A text. Texts of at most one character of the first 256 are the only ones of their kind. -/
def ofText (s : String) (m : Mark) : Value :=
  text s (if s.utf8ByteSize ≤ 2 && s.length ≤ 1 && s.toList.all (·.toNat < 256) then .only else m)

def ofChars (cs : List Char) (m : Mark) : Value := ofText (String.ofList cs) m

/-- A new text, which is one of its own even if it has one character. -/
def ofNewText (s : String) (m : Mark) : Value := text s (if s.isEmpty then .only else m)

def word (s : String) : Value := text s .only

/-- Something hidden. There is one of each kind, but every generator has a frame of its own. -/
def ofHidden (h : Hidden) (generator : Nat := 0) : Value := part (.hidden h) (.inside (.single 0 h.label) generator)

/-- Bytes. There is one value for each single byte. -/
def ofBytes (bs : List UInt8) (m : Mark) : Value := bytes bs (if bs.length ≤ 1 then .only else m)

/-- New bytes, which are of their own even if there is one. -/
def ofNewBytes (bs : List UInt8) (m : Mark) : Value := bytes bs (if bs.isEmpty then .only else m)

/-- A whole number. Of small ones there is only one each. -/
def ofInt (i : Int) (m : Mark) : Value := int i (if -5 ≤ i ∧ i ≤ 256 then .only else m)

def ofItems (items : List Value) (m : Mark) : Value := tuple items (if items.isEmpty then .only else m)

def ofText? (s : Option String) (m : Mark) : Value := (s.map (ofText · m)).getD none

def eachInside {α : Type} (f : α → Mark → Value) (items : List α) (m : Mark) : List Value :=
  items.mapIdx fun i a => f a (.inside m i)

def listOf {α : Type} (f : α → Mark → Value) (items : List α) (m : Mark) : Value := list (eachInside f items m) m

def ofTexts (texts : List String) (m : Mark) : Value := listOf ofText texts m

def ofNat? (n : Option Nat) (m : Mark) : Value := (n.map fun n => ofInt n m).getD none

def ofKeyed {α : Type} (f : α → Mark → Value) (entries : Keyed α) (m : Mark) : Value :=
  dict (entries.map fun (k, a) => (ofText k (.named (.named m k) "key"), f a (.named m k))) m

/-- The truth of a value: zero, nothing and empty are false. -/
def truth : Value → Bool
  | none => false
  | bool b => b
  | int i _ => i ≠ 0
  | float f _ => f != 0
  | complex re im _ => re != 0 || im != 0
  | bytes bs _ => !bs.isEmpty
  | text s _ => s ≠ ""
  | list items _ | tuple items _ | set items _ _ => !items.isEmpty
  | dict entries _ | mapping entries _ | view _ entries _ => !entries.isEmpty
  | ellipsis | generator _ | helper _ | method .. | part .. => true

def isSame : Value → Value → Bool
  | none, none | ellipsis, ellipsis => true
  | bool x, bool y => x == y
  | int i m, int j n => i == j && m == n
  | float _ m, float _ n => m == n
  | complex _ _ m, complex _ _ n => m == n
  | bytes xs m, bytes ys n => m == n && xs == ys
  | text s m, text t n => m == n && s == t
  | list _ m, list _ n | tuple _ m, tuple _ n | set _ _ m, set _ _ n | dict _ m, dict _ n => m == n
  | mapping _ m, mapping _ n | view _ _ m, view _ _ n | method _ _ m, method _ _ n => m == n
  | generator m, generator n => m == n
  | helper h, helper k => h == k
  | part _ m, part _ n => m == n
  | _, _ => false

end Value

/-- What a name stands for in a formula. Later names come first, and hide earlier ones. -/
abbrev Environment := List (String × Value)

def Environment.base : Environment := Helper.byName.map fun (name, h) => (name, .helper h)

end AlLint.Formula
