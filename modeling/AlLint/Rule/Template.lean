import AlLint.Formula.Eval
import AlLint.Rule.Basic

/-!
# Messages with formulas inside

The message of a rule may hold formulas between double braces. A place is two opening braces, characters other
than braces, and two closing braces; whatever does not fit stands for itself.
-/

namespace AlLint.Template

/-- A part of a message: a character, or what stands between double braces, blanks around it left out. -/
inductive Part where
  | plain (c : Char)
  | slot (text : String)
deriving DecidableEq, Repr

def isNoBrace (c : Char) : Bool := c != '\x7b' && c != '\x7d'

/-- The place at the start of some characters, after its opening braces: what it holds, and what follows it. -/
def slot? (cs : List Char) : Option (String × List Char) :=
  let inner := cs.takeWhile isNoBrace
  match inner, cs.dropWhile isNoBrace with
  | _ :: _, '\x7d' :: '\x7d' :: after => some (Text.strip (String.ofList inner), after)
  | _, _ => none

theorem length_slot?_lt {cs after : List Char} {text : String} (h : slot? cs = some (text, after)) :
    after.length < cs.length := by
  unfold slot? at h
  simp only at h
  split at h <;> simp only [Option.some.injEq, Prod.mk.injEq, reduceCtorEq] at h
  rename_i hd
  have := (List.dropWhile_suffix isNoBrace (l := cs)).length_le
  rw [hd] at this
  obtain ⟨_, rfl⟩ := h
  simp only [List.length_cons] at this
  omega

def cut : List Char → List Part
  | '\x7b' :: '\x7b' :: cs =>
    match _h : slot? cs with
    | some (text, after) => .slot text :: cut after
    | none => .plain '\x7b' :: cut ('\x7b' :: cs)
  | c :: cs => .plain c :: cut cs
  | [] => []
termination_by cs => cs.length
decreasing_by
  · have := length_slot?_lt _h
    simp only [List.length_cons]; omega
  · simp
  · simp

inductive Piece where
  | plain (c : Char)
  | slot (formula : Formula.Written)

def read (h : Host) (message : String) : Except Formula.Failure (List Piece) :=
  (cut message.toList).mapM fun
    | .plain c => .ok (.plain c)
    | .slot text => (Formula.Written.ofText h text).map .slot

/-- A piece with the value of its formula. Nothing is shown as nothing. -/
def Piece.fill (h : Host) (s : Formula.Scene) (env : Formula.Environment) : Piece → Except Fault (List Char)
  | .plain c => .ok [c]
  | .slot formula =>
    match formula.value h s env with
    | .error f => .error (.formula f)
    | .ok .none => .ok []
    | .ok v =>
      match v.shown with
      | .ok s => .ok s.toList
      | .error _ => .error .longNumber

def fill (h : Host) (s : Formula.Scene) (env : Formula.Environment) (pieces : List Piece) : Except Fault String :=
  (pieces.mapM (Piece.fill h s env)).map fun parts => String.ofList parts.flatten

end AlLint.Template
