import AlLint.Rule.Basic

/-!
# Rules about one kind of thing

Most rules look at one kind of node only and cannot fail. Here they are made from functions on that kind. A rule
with options can fail, since the value of an option may be of a type that the rule cannot use.
-/

namespace AlLint

def Verdict.ofExcept : Except Misfit (List Finding) → Verdict
  | .ok findings => { findings }
  | .error m => { fault := some (.option m) }

end AlLint

namespace AlLint.Catalog

def onCall (f : Context → Call → List Finding) : SourceFile → Sight → Verdict := fun _ s =>
  match s.node with
  | .expr e => { findings := ((e.asCall?).map (f s.context)).getD [] }
  | _ => {}

def onStmtWith (f : Context → Stmt → Except Misfit (List Finding)) : SourceFile → Sight → Verdict := fun _ s =>
  match s.node with
  | .stmt st => .ofExcept (f s.context st)
  | _ => {}

def onField (f : Field → List Finding) : SourceFile → Sight → Verdict := fun _ s =>
  match s.node with
  | .field x => { findings := f x }
  | _ => {}

def onVariable (f : Context → Variable → List Finding) : SourceFile → Sight → Verdict := fun _ s =>
  match s.node with
  | .var v => { findings := f s.context v }
  | _ => {}

def onProcedure (f : Procedure → List Finding) : SourceFile → Sight → Verdict := fun _ s =>
  match s.node with
  | .routine (.procedure p) => { findings := f p }
  | _ => {}

/-- A finding with texts for its message. Counts of what is in a file are passed on as texts: none is too long
to be written. -/
def found (span : Span) (texts : List String) : Finding := { span, args := texts.map .text }

end AlLint.Catalog
