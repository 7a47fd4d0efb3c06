import AlLint.Proofs.Flow.Effect

/-!
# Execution paths

A path is one way through some code, followed for itself: at a condition or a choice it takes any one of the
options, a loop goes round as often as it likes, and `exit` and `Error` end it. What happens along it is a
`Trail`, the acts in the order in which they happen. There are no merges and there is no second pass.

A node can be come upon many times along a path, and the same node may stand in two places. So places are told
apart by number, in the order in which a walk comes upon them: the node with number `k` of a body is the one at
position `k` of `Code.nodes`, and of what rules get to look at.
-/

namespace AlLint

open List Effect

variable {p q : Trail}

/-- How a path through some code ends: it goes on behind it, it is over, or it leaves the pass through the loop
around. -/
inductive End where
  | on
  | ended
  | jumped (j : Jump)
deriving DecidableEq

/-- Whether a pass through a loop is over, so that the next one may start. -/
def End.passes : End → Bool
  | on => true
  | ended => false
  | jumped .leave => false
  | jumped .next => true

/-- What happens along a path. Each act has the number of the node that it comes upon, or of the next one. -/
abbrev Trail := List (Nat × Act)

/-- Straight code as a trail, if its nodes are numbered from `k` on. -/
def Act.trail (k : Nat) : List Act → Trail
  | [] => []
  | a :: rest => (k, a) :: trail (k + (Act.nodes [a]).length) rest

/-- The trail of one pass through a loop whose body leaves the trail `p`. -/
def Code.roundTrail (k : Nat) (head : List Act) (body : Code) (p : Trail) (tail : List Act) : Trail :=
  Act.trail k head ++ (p ++ Act.trail (k + (Act.nodes head).length + body.nodes.length) tail)

/-- **The paths through a skeleton** whose nodes are numbered from `k` on. -/
inductive Path : Nat → Code → Trail → End → Prop where
  | line {k : Nat} {acts : List Act} : Path k (.line acts) (Act.trail k acts) .on
  | stop {k : Nat} : Path k .stop [] .ended
  | jump {k : Nat} {j : Jump} : Path k (.jump j) [] (.jumped j)
  | seq {k : Nat} {a b : Code} {p q : Trail} {e : End} :
      Path k a p .on → Path (k + a.nodes.length) b q e → Path k (.seq a b) (p ++ q) e
  /-- What does not go on behind the first part never comes to the second. -/
  | cut {k : Nat} {a b : Code} {p : Trail} {e : End} : Path k a p e → e ≠ .on → Path k (.seq a b) p e
  | choice {k i : Nat} {os : List Code} {x : Code} {p : Trail} {e : End} :
      os[i]? = some x → Path (k + ((os.take i).flatMap Code.nodes).length) x p e → Path k (.choice os) p e
  | inside {k : Nat} {deeper : Bool} {b : Code} {p : Trail} {e : End} :
      Path k b p e → Path k (.inside deeper b) p e
  /-- The loop is left in front of its body: a condition does not hold, or there is nothing left to go through. -/
  | skip {k : Nat} {head tail : List Act} {b : Code} : Path k (.loop true head b tail) (Act.trail k head) .on
  /-- The loop is left behind its body: the condition at its end holds. -/
  | last {k : Nat} {head tail : List Act} {b : Code} {p : Trail} {e : End} :
      Path (k + (Act.nodes head).length) b p e → e.passes = true →
      Path k (.loop false head b tail) (b.roundTrail k head p tail) .on
  /-- One more round. -/
  | again {k : Nat} {skippable : Bool} {head tail : List Act} {b : Code} {p q : Trail} {e e' : End} :
      Path (k + (Act.nodes head).length) b p e → e.passes = true → Path k (.loop skippable head b tail) q e' →
      Path k (.loop skippable head b tail) (b.roundTrail k head p tail ++ q) e'
  /-- The loop is left from within. -/
  | leave {k : Nat} {skippable : Bool} {head tail : List Act} {b : Code} {p : Trail} :
      Path (k + (Act.nodes head).length) b p (.jumped .leave) →
      Path k (.loop skippable head b tail) (Act.trail k head ++ p) .on
  /-- The path ends within the loop. -/
  | ended {k : Nat} {skippable : Bool} {head tail : List Act} {b : Code} {p : Trail} :
      Path (k + (Act.nodes head).length) b p .ended →
      Path k (.loop skippable head b tail) (Act.trail k head ++ p) .ended

namespace Trail

/-- The context at the end of a trail. -/
def run (c : Context) (p : Trail) : Context := p.foldl (fun c a => a.2.apply c) c

/-- The trail comes upon the node `n` with number `k` behind its part `q`. -/
def Reaches (p : Trail) (k : Nat) (n : Node) (q : Trail) : Prop := ∃ r, p = q ++ (k, .see n) :: r

/-- What has to be known before a trail for a fact to be known after it. -/
def needs (o : Context) : Trail → Needs
  | [] => .keep
  | a :: rest => (Change.needsAll (a.2.changes o)).andThen (needs o rest)

theorem needs_append (o : Context) (p q : Trail) : needs o (p ++ q) = (needs o p).andThen (needs o q) := by
  induction p with
  | nil => rw [nil_append, needs, Needs.keep_andThen]
  | cons a rest ih => rw [cons_append, needs, needs, ih, Needs.andThen_assoc]

theorem symbols_apply (c : Context) (a : Act) : (a.apply c).symbols = c.symbols := by
  rw [a.apply_eq c]
  rfl

/-- **What is known after a trail.** -/
theorem known_run {o c : Context} (h : c.symbols = o.symbols) (p : Trail) :
    (run c p).state.known = (needs o p).after c.state.known := by
  induction p generalizing c with
  | nil => rw [needs, Needs.after_keep]; rfl
  | cons a rest ih =>
    have hrest := ih (c := a.2.apply c) ((symbols_apply c a.2).trans h)
    have hact : (a.2.apply c).state.known = (Change.needsAll (a.2.changes o)).after c.state.known := by
      rw [a.2.apply_eq c, Act.changes_congr h]
      exact Change.known_applyAll ..
    rw [needs, Needs.after_andThen, ← hact]
    exact hrest

theorem plain_run {c : Context} (h : c.state.Plain) (p : Trail) : (run c p).state.Plain := by
  induction p generalizing c with
  | nil => exact h
  | cons a rest ih =>
    have hact : (a.2.apply c).state.Plain := by
      rw [a.2.apply_eq c]
      exact Change.plain_applyAll (a.2.plain_changes c) h
    exact ih hact

theorem needs_unreached (o : Context) (p : Trail) : needs o p .unreached = {.unreached} := by
  have hall : ∀ changes : List Change, Change.needsAll changes .unreached = {.unreached} := by
    intro changes
    induction changes with
    | nil => rfl
    | cons ch rest ih =>
      have hch : ch.needs .unreached = {.unreached} := by cases ch <;> rfl
      simp [Change.needsAll, Needs.andThen, ih, hch]
  induction p with
  | nil => rfl
  | cons a rest ih => simp [needs, Needs.andThen, ih, hall]

theorem reachable_run {c : Context} (h : c.state.reachable = true) (p : Trail) :
    (run c p).state.reachable = true := by
  by_contra hr
  -- the only way to know that a place is not reached is to have known it before
  have hknown : Fact.unreached ∈ (run c p).state.known := FlowState.unreached_mem_known.2 (by simpa using hr)
  rw [known_run rfl, Needs.mem_after, needs_unreached, Set.singleton_subset_iff, FlowState.unreached_mem_known,
    h] at hknown
  exact absurd hknown (by simp)

theorem not_reaches_nil {k : Nat} {n : Node} : ¬ Reaches [] k n q := by
  rintro ⟨r, h⟩
  simp at h

/-- A node at some position of a trail is come upon behind what is before that position. -/
theorem reaches_take {m k : Nat} {n : Node} (h : p[m]? = some (k, .see n)) : p.Reaches k n (p.take m) := by
  obtain ⟨hm, hget⟩ := List.getElem?_eq_some_iff.1 h
  refine ⟨p.drop (m + 1), ?_⟩
  rw [← hget, getElem_cons_drop, take_append_drop]

theorem Reaches.append_right {k : Nat} {n : Node} (h : p.Reaches k n q) (p' : Trail) :
    Reaches (p ++ p') k n q := by
  obtain ⟨r, rfl⟩ := h
  exact ⟨r ++ p', by simp⟩

theorem Reaches.append_left {k : Nat} {n : Node} (h : p.Reaches k n q) (p' : Trail) :
    Reaches (p' ++ p) k n (p' ++ q) := by
  obtain ⟨r, rfl⟩ := h
  exact ⟨r, by simp⟩

/-- A node on a trail in two parts is on the first or on the second. -/
theorem Reaches.of_append {p' : Trail} {k : Nat} {n : Node} (h : Reaches (p ++ p') k n q) :
    p.Reaches k n q ∨ ∃ q', q = p ++ q' ∧ p'.Reaches k n q' := by
  obtain ⟨r, h⟩ := h
  -- the part in front of the node ends behind the seam or in front of it
  rcases append_eq_append_iff.1 h with ⟨q', hq, hp'⟩ | ⟨r', hp, hr⟩
  · exact Or.inr ⟨q', hq, r, hp'⟩
  · cases r' with
    | nil => exact Or.inr ⟨[], by simpa using hp.symm, r, by simpa using hr.symm⟩
    | cons x r' =>
      rw [cons_append, List.cons.injEq] at hr
      exact Or.inl ⟨r', by rw [hp, ← hr.1]⟩

end Trail

/-! ## Paths through a body -/

namespace Stmt

/-- Some path through a body that starts in the context `c` comes upon the node `n` with number `k` in the state
`t`. -/
def Arrives (body : List Stmt) (c : Context) (k : Nat) (n : Node) (t : FlowState) : Prop :=
  ∃ p e q, Path 0 (codeAll body) p e ∧ p.Reaches k n q ∧ t = (Trail.run c q).state

/-- Some path through a body that starts in the context `c` gets behind it in the state `t`. -/
def Leaves (body : List Stmt) (c : Context) (t : FlowState) : Prop :=
  ∃ p, Path 0 (codeAll body) p .on ∧ t = (Trail.run c p).state

variable {body : List Stmt} {c : Context} {k : Nat} {n : Node} {t : FlowState}

theorem Arrives.plain (h : Arrives body c k n t) (hp : c.state.Plain) : t.Plain := by
  obtain ⟨p, e, q, _, _, rfl⟩ := h
  exact Trail.plain_run hp q

theorem Arrives.reachable (h : Arrives body c k n t) (hr : c.state.reachable = true) : t.reachable = true := by
  obtain ⟨p, e, q, _, _, rfl⟩ := h
  exact Trail.reachable_run hr q

theorem Leaves.plain (h : Leaves body c t) (hp : c.state.Plain) : t.Plain := by
  obtain ⟨p, _, rfl⟩ := h
  exact Trail.plain_run hp p

theorem Leaves.reachable (h : Leaves body c t) (hr : c.state.reachable = true) : t.reachable = true := by
  obtain ⟨p, _, rfl⟩ := h
  exact Trail.reachable_run hr p

end Stmt

/-! ## Small bodies

For stating what happens in a particular body, two records `A` and `B` are in scope. -/

namespace Sample

def here : Span := ⟨1, 1, 1, 1⟩

def var (name : String) : Expr := .name name false here

/-- A call of a method without arguments. -/
def method (record name : String) : Call := ⟨.member (var record) name false here, [], false, here⟩

/-- A call of a method as a statement. -/
def run (record name : String) : Stmt := .call (method record name) here

/-- A fresh context with two records in scope. -/
def context : Context where
  declaration :=
    { objectType := "codeunit", objectId := some 50100, name := "Sample", span := here, extends? := none
      properties := [], vars := [], triggers := [], procedures := [], contents := .processUnit }
  place := .procedure
  symbols := [("a", { name := "Record" }), ("b", { name := "Record" })]

end Sample

/-! ## What is seen, by number -/

theorem Effect.length_act (o : Context) (a : Act) : (Effect.act o a).seen.length = (Act.nodes [a]).length := by
  rw [Effect.act, Act.nodes, length_map, filterMap_cons]
  cases a.node? <;> rfl

theorem Effect.nodes_line (o : Context) (acts : List Act) :
    (Effect.line o acts).seen.map Visit.node = Act.nodes acts := by
  induction acts with
  | nil => rfl
  | cons a rest ih =>
    rw [Effect.line, Effect.andThen, map_append, map_map]
    have hrest : (Effect.line o rest).seen.map (Visit.node ∘ Visit.behind (Effect.act o a).final) =
      Act.nodes rest := ih
    rw [hrest, Effect.act, Act.nodes, Act.nodes, filterMap_cons]
    cases a.node? <;> rfl

theorem Code.nodes_effect (o : Context) (code : Code) : (code.effect o).seen.map Visit.node = code.nodes := by
  induction code with
  | line acts => rw [effect, nodes, nodes_line]
  | stop => rw [effect, nodes]; rfl
  | jump j => rw [effect, nodes]; rfl
  | seq a b iha ihb =>
    rw [effect, nodes, Effect.andThen, map_append, map_map, ← iha, ← ihb]
    rfl
  | choice os ih =>
    rw [effect, nodes, Effect.join, flatMap_map, map_flatMap]
    exact flatMap_congr ih
  | inside deeper b ih =>
    rw [effect, nodes, Effect.inside, map_map, ← ih]
    rfl
  | loop skippable head b tail ih =>
    rw [effect, nodes, Effect.loop, map_map, ← ih, ← nodes_line o head, ← nodes_line o tail]
    simp only [Effect.round, Effect.andThen, map_append, map_map]
    rfl

theorem Code.length_seen (o : Context) (code : Code) : (code.effect o).seen.length = code.nodes.length := by
  rw [← code.nodes_effect o, length_map]

theorem Effect.length_line (o : Context) (acts : List Act) :
    (Effect.line o acts).seen.length = (Act.nodes acts).length := by
  rw [← nodes_line o acts, length_map]

theorem Act.needs_trail (o : Context) (k : Nat) (acts : List Act) :
    Trail.needs o (Act.trail k acts) = (Effect.line o acts).final := by
  induction acts generalizing k with
  | nil => rfl
  | cons a rest ih => rw [Act.trail, Trail.needs, ih]; rfl

end AlLint
