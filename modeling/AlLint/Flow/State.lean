import AlLint.Keyed

/-!
# What is known along a path

Which records are loaded fully or in part, which were tested for emptiness, whether a commit was seen, and
whether the place can be reached at all. Where paths meet, the worst is kept: a record that is loaded in part on one
path is loaded in part, and one is loaded fully or tested only if it is so on every path. Paths that do not
arrive say nothing.
-/

namespace AlLint

/-- How a record is loaded. A record without a mark may be loaded in any way; a mark of another name says no more
than that. -/
inductive Load where
  | full
  | part
  | other (label : String)
deriving DecidableEq, Repr

namespace Load

def unknownLabel : String := "unknown"

def label : Load → String
  | full => "full"
  | part => "partial"
  | other l => l

def ofLabel : String → Load
  | "full" => full
  | "partial" => part
  | l => other l

end Load

structure FlowState where
  loads : Keyed Load := []
  checked : List String := []
  commit : Bool := false
  reachable : Bool := true
deriving Repr, Inhabited

namespace FlowState

/-- The mark that several paths agree on for a record: loaded in part if it is so on one of them, and fully if
it is so on all of them. -/
def mergedLoad (states : List FlowState) (name : String) : Option Load :=
  let marks := states.map (·.loads.get? name)
  if marks.contains (some .part) then some .part
  else if marks.all (· == some .full) then some .full
  else none

def markedNames (states : List FlowState) : List String := (states.flatMap (·.loads.keys)).eraseDups

def merge (states : List FlowState) : FlowState :=
  match states.filter (·.reachable) with
  | [] => { states.headD {} with reachable := false }
  | first :: rest =>
    let live := first :: rest
    { loads := (markedNames live).filterMap fun name => (mergedLoad live name).map (name, ·)
      checked := first.checked.filter fun name => rest.all (·.checked.contains name)
      commit := live.any (·.commit)
      reachable := true }

def mark (s : FlowState) (name : String) (load : Load) : FlowState := { s with loads := s.loads.insert name load }

def unmark (s : FlowState) (name : String) : FlowState := { s with loads := s.loads.erase name }

def check (s : FlowState) (name : String) : FlowState :=
  if s.checked.contains name then s else { s with checked := name :: s.checked }

def uncheck (s : FlowState) (name : String) : FlowState := { s with checked := s.checked.filter (· ≠ name) }

end FlowState

end AlLint
