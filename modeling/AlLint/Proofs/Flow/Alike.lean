import AlLint.Proofs.Declaration.Seen
import AlLint.Proofs.Flow.Related

/-!
# Walks through code that looks the same

A walk through a body and a walk through what is seen of the body go the same way: they come upon the same nodes
in the same order, each node of the second being what is seen of the node of the first, with the same things
known. `Context.SeenAs` says how the contexts relate; of the variables in scope only those traits count that a
rule can ask for.

`Walk.Alike` says of two walks that they keep contexts so related. Every way to put walks together keeps it.
-/

namespace AlLint

open List

/-- What is known of a variable by its type: the type's name, and whether it is temporary. -/
def TypeRef.traits (t : TypeRef) : String × Bool := (t.key, t.temporary)

def Routine.seen (v : View) : Routine → Routine
  | trigger t => trigger (t.seen v)
  | procedure p => procedure (p.seen v)

def Node.seen (v : View) : Node → Node
  | declaration d => declaration (d.seen v)
  | var x => var (x.seen v)
  | field f => field (f.seen v)
  | key k => key (k.seen v)
  | pageField f => pageField (f.seen v)
  | action a => action (a.seen v)
  | enumValue x => enumValue (x.seen v)
  | routine r => routine (r.seen v)
  | stmt s => stmt (s.seen v)
  | expr e => expr (e.seen v)

theorem Node.kind_seen (v : View) (n : Node) : (n.seen v).kind = n.kind := by
  cases n with
  | routine r => cases r <;> rfl
  | stmt s => cases s <;> rfl
  | expr e => cases e <;> rfl
  | _ => rfl

theorem Node.span_seen {v : View} (hv : ∀ s, v.place s = s) (n : Node) : (n.seen v).span = n.span := by
  cases n with
  | routine r => cases r <;> rfl
  | stmt s => exact (s.span_seen v).trans (hv _)
  | expr e => exact (e.span_seen v).trans (hv _)
  | var x => exact hv _
  | _ => rfl

/-- One context is what is seen of another one. -/
structure Context.SeenAs (v : View) (c c' : Context) : Prop where
  objectKind : c'.objectKind = c.objectKind
  place : c'.place = c.place
  routine : c'.routine = c.routine.map (Routine.seen v)
  symbols : c'.symbols.map (Prod.map id TypeRef.traits) = c.symbols.map (Prod.map id TypeRef.traits)
  state : c'.state = c.state
  loopDepth : c'.loopDepth = c.loopDepth
  loopEntries : c'.loopEntries = c.loopEntries
  ifDepth : c'.ifDepth = c.ifDepth
  silent : c'.silent = c.silent
  options : c'.options = c.options

/-- A node in its context is what is seen of another one. -/
structure Sight.SeenAs (v : View) (s s' : Sight) : Prop where
  node : s'.node = s.node.seen v
  context : s.context.SeenAs v s'.context

theorem Expr.exists_of_seen_eq_name {v : View} {e : Expr} {n : String} {quoted : Bool} {span : Span}
    (h : e.seen v = .name n quoted span) : ∃ m s, e = .name m quoted s ∧ v.see m = n := by
  cases e with
  | name m q s =>
    obtain ⟨hname, rfl, -⟩ := Expr.name.inj h
    exact ⟨m, s, rfl, hname⟩
  | _ => cases h

namespace Context.SeenAs

variable {v : View} {c c' : Context} (h : c.SeenAs v c')

include h

/-! ## Questions -/

theorem typeOf?_eq {α : Type} (f : String × Bool → α) (name : String) :
    (c'.typeOf? name).map (f ∘ TypeRef.traits) = (c.typeOf? name).map (f ∘ TypeRef.traits) := by
  have hget : ∀ c : Context, (c.typeOf? name).map (f ∘ TypeRef.traits) =
      (Keyed.get? (c.symbols.map (Prod.map id TypeRef.traits)) (Text.lower name)).map f := by
    intro c
    rw [Context.typeOf?, Keyed.get?_map_values, Option.map_map]
  rw [hget, h.symbols, hget]

theorem isRecord_eq : c'.isRecord = c.isRecord := by
  funext name
  rw [Context.isRecord, Context.isRecord, show TypeRef.isRecord =
    (fun t => t.1 == "record") ∘ TypeRef.traits from rfl,
    h.typeOf?_eq]

theorem isTemporary_eq : c'.isTemporary = c.isTemporary := by
  funext name
  rw [Context.isTemporary, Context.isTemporary, show TypeRef.temporary = Prod.snd ∘ TypeRef.traits from
    rfl, h.typeOf?_eq]

theorem recordReceiver?_eq (call : Call) : c'.recordReceiver? (call.seen v) = c.recordReceiver? call := by
  rw [Context.recordReceiver?, Context.recordReceiver?, call.receiver?_seen, h.isRecord_eq]

theorem isUserCall_eq (call : Call) : c'.isUserCall (call.seen v) = c.isUserCall call := by
  have hdialog : ∀ name, (c'.typeOf? name).map TypeRef.isDialog = (c.typeOf? name).map TypeRef.isDialog :=
    h.typeOf?_eq fun t => t.1 == "dialog"
  rw [Context.isUserCall, Context.isUserCall, call.isGlobal_seen, call.method_seen, call.receiver?_seen]
  simp only [hdialog]

theorem inLoop_eq : c'.inLoop = c.inLoop := by rw [Context.inLoop, h.loopDepth, Context.inLoop]

theorem inTableTrigger_eq : c'.inTableTrigger = c.inTableTrigger := by
  rw [Context.inTableTrigger, h.objectKind, h.place, Context.inTableTrigger]

/-! ## Changes -/

theorem withState (s : FlowState) : SeenAs v { c with state := s } { c' with state := s } := { h with state := rfl }

theorem update (f : FlowState → FlowState) : (c.update f).SeenAs v (c'.update f) := by
  rw [Context.update, Context.update, h.state]
  exact h.withState _

theorem applyCall (call : Call) : (c.applyCall call).SeenAs v (c'.applyCall (call.seen v)) := by
  unfold Context.applyCall
  rw [call.isGlobal_seen, call.method_seen, h.recordReceiver?_eq, h.isRecord_eq,
    show (call.seen v).args = Expr.seenAll v call.args from rfl]
  generalize call.method = method
  generalize call.args = args
  split
  · split
    · exact h.update _
    · simp only [Expr.seenAll, Expr.seen, v.lower_see]
      split
      · exact h.update _
      · exact h
    · next hcommit hclear =>
      split
      · exact absurd rfl hcommit
      · next heq =>
        -- what is seen as the name of a record is one
        rcases args with _ | ⟨e, es⟩
        · cases heq
        · obtain ⟨m, _, rfl, -⟩ := Expr.exists_of_seen_eq_name (List.cons.inj heq).1
          exact absurd rfl (hclear m _ _ es rfl)
      · exact h
  · split
    · exact h
    · exact h.update _

theorem applyAssignment (target : Expr) (op : AssignOp) (value : Expr) :
    (c.applyAssignment target op value).SeenAs v (c'.applyAssignment (target.seen v) op (value.seen v)) := by
  unfold Context.applyAssignment
  rw [h.isRecord_eq, h.state]
  split
  · simp only [Expr.seen, v.lower_see]
    split
    · exact h
    · cases value with
      | name m quoted span =>
        simp only [Expr.seen, v.lower_see]
        split
        · exact h.update _
        · exact h.update _
      | _ => exact h.update _
  · next hname =>
    split
    · next heq =>
      obtain ⟨m, _, rfl, -⟩ := Expr.exists_of_seen_eq_name heq
      exact absurd rfl (hname m _ _ rfl)
    · exact h

end Context.SeenAs

theorem Context.Parallel.seenAs {v : View} : Parallel (SeenAs v) where
  same h := by rw [movedTo, ← h.state, ← h.loopDepth, ← h.loopEntries, ← h.ifDepth, ← h.silent]
  moved h _ := { h with state := rfl, loopDepth := rfl, loopEntries := rfl, ifDepth := rfl, silent := rfl }

/-! ## Walks -/

namespace Walk

/-- Two walks, the second of which is what is seen of the first. -/
def Alike (v : View) : Walk → Walk → Prop := Related (Context.SeenAs v) (Sight.SeenAs v)

variable {v : View}

theorem alike_see (n : Node) : Alike v (see n) (see (n.seen v)) := fun _ _ h => ⟨h, .cons ⟨rfl, h⟩ .nil⟩

theorem alike_branches {ws ws' : List Walk} (h : List.Forall₂ (Alike v) ws ws') :
    Alike v (branches ws) (branches ws') :=
  .branches .seenAs h

end Walk

open Walk

variable {v : View}

namespace Expr

theorem walkAll_alike_of {es : List Expr} (h : ∀ e ∈ es, Alike v e.walk (e.seen v).walk) :
    Alike v (walkAll es) (walkAll (seenAll v es)) := by
  induction es with
  | nil => exact .stay
  | cons e es ih =>
    obtain ⟨he, hes⟩ := forall_mem_cons.1 h
    exact he.andThen (ih hes)

theorem evaluated_seen (e : Expr) : (e.seen v).evaluated = seenAll v e.evaluated := by
  cases e with
  | call callee args implicit span => cases callee <;> rfl
  | _ => rfl

theorem effect_alike (e : Expr) : Alike v (line e.effect) (line (e.seen v).effect) := by
  cases e with
  | call callee args implicit span =>
    exact (Related.change fun _ _ hc => hc.applyCall ⟨callee, args, implicit, span⟩).andThen .stay
  | _ => exact .stay

theorem walk_alike (e : Expr) : Alike v e.walk (e.seen v).walk := by
  induction e using induct with
  | step e ih =>
    rw [walk_eq, walk_eq (e.seen v), evaluated_seen]
    exact (walkAll_alike_of ih).andThen ((alike_see _).andThen e.effect_alike)

theorem walkAll_alike (es : List Expr) : Alike v (walkAll es) (walkAll (seenAll v es)) :=
  walkAll_alike_of fun e _ => e.walk_alike

end Expr

theorem Expr.walkOption_alike (e : Option Expr) :
    Alike v (Expr.walkOption e) (Expr.walkOption (e.map (Expr.seen v))) := by
  cases e with
  | none => exact .stay
  | some e => exact e.walk_alike

theorem alike_terminate : Alike v (change (·.terminate)) (change (·.terminate)) :=
  Related.change fun _ _ hc => hc.update _

mutual

theorem Stmt.walk_alike : ∀ (chained : Bool) (s : Stmt), Alike v (Stmt.walk chained s) (Stmt.walk chained (s.seen v))
  | _, .assignment target op value _ =>
    (alike_see _).andThen (value.walk_alike.andThen (target.walk_alike.andThen
      (Related.change fun _ _ hc => hc.applyAssignment target op value)))
  | _, .call c _ => (alike_see _).andThen c.toExpr.walk_alike
  | _, .error c _ => (alike_see _).andThen (c.toExpr.walk_alike.andThen alike_terminate)
  | _, .exit value _ => (alike_see _).andThen ((Expr.walkOption_alike value).andThen alike_terminate)
  | _, .jump .. => alike_see _
  | _, .block body _ => (alike_see _).andThen (walkAll_alike body)
  | _, .withDo target body _ => (alike_see _).andThen (target.walk_alike.andThen (walkAll_alike body))
  | chained, .ifThen condition thenBody elseBody _ =>
    ((alike_see _).andThen (condition.walk_alike.andThen
      (alike_branches (.cons (walkAll_alike thenBody) (.cons (walkElse_alike elseBody) .nil))))).inside .seenAs
        (!chained)
  | _, .caseOf selector cases elseBody _ =>
    (alike_see _).andThen (selector.walk_alike.andThen
      (alike_branches (rel_append (walkCases_alike cases) (.cons (walkOther_alike elseBody) .nil))))
  | _, .repeatUntil body condition _ =>
    (alike_see _).andThen (((walkAll_alike body).andThen condition.walk_alike).loop .seenAs false)
  | _, .whileDo condition body _ =>
    (alike_see _).andThen ((condition.walk_alike.andThen (walkAll_alike body)).loop .seenAs true)
  | _, .forTo _ first last _ body _ =>
    (alike_see _).andThen (first.walk_alike.andThen
      (last.walk_alike.andThen ((walkAll_alike body).loop .seenAs true)))
  | _, .forEach _ iterable body _ =>
    (alike_see _).andThen (iterable.walk_alike.andThen ((walkAll_alike body).loop .seenAs true))

/-- **The walk through what is seen of a body is what is seen of the walk through the body.** -/
theorem Stmt.walkAll_alike : ∀ body : List Stmt, Alike v (Stmt.walkAll body) (Stmt.walkAll (Stmt.seenAll v body))
  | [] => .stay
  | s :: rest => (walk_alike false s).andThen (walkAll_alike rest)

theorem Stmt.walkElse_alike :
    ∀ body : Option (List Stmt), Alike v (Stmt.walkElse body) (Stmt.walkElse (Stmt.seenElse v body))
  | none => .stay
  | some [] => .stay
  | some [s] => walk_alike true s
  | some (s :: t :: rest) => (walk_alike false s).andThen (walkAll_alike (t :: rest))

theorem Stmt.walkOther_alike :
    ∀ body : Option (List Stmt), Alike v (Stmt.walkOther body) (Stmt.walkOther (Stmt.seenElse v body))
  | none => .stay
  | some body => walkAll_alike body

theorem Stmt.walkCases_alike :
    ∀ cases : List (Branch Stmt), List.Forall₂ (Alike v) (Stmt.walkCases cases)
      (Stmt.walkCases (Stmt.seenBranches v cases))
  | [] => .nil
  | ⟨values, body, _⟩ :: rest => .cons ((Expr.walkAll_alike values).andThen (walkAll_alike body))
      (walkCases_alike rest)

end

end AlLint
