import AlLint.Source.Scan

/-!
# Reading tokens

A cursor stands between the tokens that were read and those that are left. A reader that succeeds has used at
least one token, and one that fails has not put any back; both facts are part of the outcome, so loops
and recursive readers end because the tokens run out.
-/

namespace AlLint.Reading

/-- What every reader can see: the source text, and the token that stands for its end. -/
structure Input where
  source : String
  eof : Token

namespace Input

def slice (inp : Input) (start stop : Nat) : String :=
  String.ofList ((inp.source.toList.drop start).take (stop - start))

def textOf (inp : Input) : List Token → String
  | [] => ""
  | t :: ts => inp.slice t.start ((t :: ts).getLast (List.cons_ne_nil t ts)).stop

end Input

/-- How far reading has come: the last token read, the tokens left, and the issues so far. -/
structure Cursor where
  last : Token
  rest : List Token
  issues : List Issue

namespace Cursor

abbrev size (c : Cursor) : Nat := c.rest.length

def head (c : Cursor) (inp : Input) : Token := c.rest.headD inp.eof

def peek (c : Cursor) (inp : Input) : Token := c.rest.tail.headD inp.eof

def past (c : Cursor) (t : Token) (ts : List Token) : Cursor := { c with last := t, rest := ts }

def report (c : Cursor) (complaint : Complaint) (span : Span) : Cursor :=
  { c with issues := c.issues ++ [⟨complaint, span⟩] }

/-- From the start of a token to the end of what was read since; the token alone if nothing was. -/
def spanFrom (c : Cursor) (start : Token) : Span :=
  if c.last.start < start.start then start.span else Span.covering start.span c.last.span

abbrev After (c : Cursor) := { next : Cursor // next.size < c.size }

/-- What `f` makes of the token at the cursor and the cursor past it, if `f` takes the token. -/
def take {β : Type} (c : Cursor) (f : Token → Option β) : Option (β × c.After) :=
  match h : c.rest with
  | [] => none
  | t :: ts => (f t).map fun b => (b, ⟨c.past t ts, by simp [past, size, h]⟩)

/-- The token at the cursor and the cursor past it, if the token satisfies `p`. -/
def accept (c : Cursor) (p : Token → Bool) : Option (Token × c.After) :=
  c.take fun t => if p t then some t else none

def acceptOp (c : Cursor) (op : String) : Option (Token × c.After) := c.accept (·.isOp op)

def acceptWord (c : Cursor) (word : String) : Option (Token × c.After) := c.accept (·.isWord word)

def skipOp (c : Cursor) (op : String) : { next : Cursor // next.size ≤ c.size } :=
  match c.acceptOp op with
  | some (_, next) => ⟨next.1, Nat.le_of_lt next.2⟩
  | none => ⟨c, Nat.le_refl _⟩

theorem size_past (c : Cursor) (t : Token) (ts : List Token) : (c.past t ts).size = ts.length := rfl

theorem size_report (c : Cursor) (complaint : Complaint) (span : Span) :
    (c.report complaint span).size = c.size := rfl

end Cursor

/-- What came of reading with `n` tokens left: a value, with fewer tokens left, or an issue, with no more. -/
inductive Outcome (α : Type) (n : Nat) where
  | ok (value : α) (next : Cursor) (shorter : next.size < n)
  | fail (issue : Issue) (next : Cursor) (notLonger : next.size ≤ n)

namespace Outcome

variable {α β : Type}

def andThen {n m : Nat} (x : Outcome α n) (f : (a : α) → (c : Cursor) → c.size < n → Outcome β m)
    (le : n ≤ m := by omega) : Outcome β m :=
  match x with
  | .ok a c h => f a c h
  | .fail issue c h => .fail issue c (Nat.le_trans h le)

/-- Forgets how many tokens were used, but for `m`. -/
def weaken {n m : Nat} (x : Outcome α n) (le : n ≤ m := by omega) : Outcome α m :=
  x.andThen fun a c h => .ok a c (Nat.lt_of_lt_of_le h le)

def map {n : Nat} (f : α → β) (x : Outcome α n) : Outcome β n := x.andThen fun a c h => .ok (f a) c h

def next {n : Nat} : Outcome α n → Cursor
  | .ok _ c _ => c
  | .fail _ c _ => c

end Outcome

/-- What came of reading that cannot fail: a value, with no more tokens left than the `n` before. -/
structure Read (α : Type) (n : Nat) where
  value : α
  next : Cursor
  notLonger : next.size ≤ n

namespace Cursor

def failHere {α : Type} (c : Cursor) (inp : Input) (complaint : Complaint) : Outcome α c.size :=
  .fail ⟨complaint, (c.head inp).span⟩ c (Nat.le_refl _)

def expect (c : Cursor) (inp : Input) (p : Token → Bool) (complaint : Found → Complaint) : Outcome Token c.size :=
  match c.accept p with
  | some (t, next) => .ok t next.1 next.2
  | none => c.failHere inp (complaint (c.head inp).found)

def expectOp (c : Cursor) (inp : Input) (op context : String) : Outcome Token c.size :=
  c.expect inp (·.isOp op) (.expected op context)

def expectWord (c : Cursor) (inp : Input) (word context : String) : Outcome Token c.size :=
  c.expect inp (·.isWord word) (.expected word context)

def expectName (c : Cursor) (inp : Input) (context : String) : Outcome Token c.size :=
  c.expect inp (·.isName) (.expectedName context)

end Cursor

end AlLint.Reading
