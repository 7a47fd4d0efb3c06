import AlLint.Proofs.Flow.Effect
import AlLint.Proofs.Flow.Shape

/-!
# Walks side by side

Two contexts may differ in what a walk only carries along. If it never looks at the difference, then walks that
start in both go the same way and come upon the same nodes. `Walk.Related` says so of two walks, for any
relation between contexts that leaves alone what a walk changes (`Context.Parallel`), and every way to put walks
together keeps it.

So the walk through a body never leaves its place, in which declaration and routine that may be
(`Stmt.stays_walkAll`), and never looks at the options, which stand in the context for the rules to read
(`Stmt.walkAll_carries`).
-/

namespace AlLint

open List Walk

/-- Whether a node is a statement or an expression. -/
def Node.isCode : Node → Bool
  | stmt _ => true
  | expr _ => true
  | _ => false

/-- An act at which nothing but statements and expressions are seen. -/
def Act.SeesCode (a : Act) : Prop := ∀ n ∈ a.node?, n.isCode = true

/-- What a statement does itself is to be seen, and to evaluate expressions. -/
theorem Stmt.seesCode_ownActs (s : Stmt) : ∀ a ∈ s.ownActs, a.SeesCode := by
  intro a ha n hn
  rcases mem_cons.1 ha with rfl | ha
  · obtain rfl := Option.some.inj hn
    rfl
  rcases mem_append.1 ha with ha | ha
  · have hevaluates := Expr.evaluatesAll s.exprs a ha
    cases a with
    | see m =>
      obtain ⟨e, -, rfl⟩ := hevaluates
      obtain rfl := Option.some.inj hn
      rfl
    | call k => cases hn
    | assign target op value => cases hn
  · cases s with
    | assignment target op value span =>
      obtain rfl := mem_singleton.1 ha
      cases hn
    | _ => cases ha

/-- A context with all that a walk changes as it is in another one. -/
def Context.movedTo (c d : Context) : Context :=
  { c with
    state := d.state, loopDepth := d.loopDepth, loopEntries := d.loopEntries, ifDepth := d.ifDepth,
    silent := d.silent }

/-- A relation between contexts that agree in what a walk changes, and that stay related if that changes in the
same way. -/
structure Context.Parallel (R : Context → Context → Prop) : Prop where
  same : ∀ {c c' : Context}, R c c' → c'.movedTo c = c'
  moved : ∀ {c c' : Context}, R c c' → ∀ d : Context, R (c.movedTo d) (c'.movedTo d)

variable {R : Context → Context → Prop} {S : Sight → Sight → Prop} {c c' : Context}

namespace Context.Parallel

theorem state (hR : Parallel R) (h : R c c') : c'.state = c.state := (congrArg Context.state (hR.same h) :).symm

theorem change (hR : Parallel R) (f : Context → Context) (h : R c c') 
    (hf : ∀ c d, f (movedTo c d) = c.movedTo (f d) := by exact fun _ _ => rfl) : R (f c) (f c') := by
  have hmoved := hR.moved h (f c)
  rwa [← hf, ← hf, hR.same h] at hmoved

end Context.Parallel

namespace Walk

/-- Two walks go the same way from related contexts, and what they come upon is related. -/
def Related (R : Context → Context → Prop) (S : Sight → Sight → Prop) (w w' : Walk) : Prop :=
  ∀ c c', R c c' → R (w c).1 (w' c').1 ∧ List.Forall₂ S (w c).2 (w' c').2

namespace Related

theorem stay : Related R S Walk.stay Walk.stay := fun _ _ h => ⟨h, .nil⟩

theorem change {f f' : Context → Context} (h : ∀ c c', R c c' → R (f c) (f' c')) :
    Related R S (Walk.change f) (Walk.change f') :=
  fun c c' hc => ⟨h c c' hc, .nil⟩

variable {u u' w w' : Walk}

theorem andThen (hu : Related R S u u') (hw : Related R S w w') : Related R S (u.andThen w) (u'.andThen w') := by
  intro c c' hc
  obtain ⟨hc₁, hseen₁⟩ := hu c c' hc
  obtain ⟨hc₂, hseen₂⟩ := hw _ _ hc₁
  exact ⟨hc₂, rel_append hseen₁ hseen₂⟩

variable (hR : Context.Parallel R)

include hR

/-- The walks of a fork start in the same state, and the states at their ends are the same. -/
theorem fork {ws ws' : List Walk} (h : List.Forall₂ (Related R S) ws ws') (start : FlowState)
    (done : List FlowState) :
    Related R S (Walk.fork start done ws) (Walk.fork start done ws') := by
  induction h generalizing done with
  | nil => exact change fun _ _ hc => hR.change (fun c => { c with state := FlowState.merge done.reverse }) hc
  | @cons w w' ws ws' hw _ ih =>
    intro c c' hc
    obtain ⟨hc₁, hseen₁⟩ := hw _ _ (hR.change (fun c => { c with state := start }) hc)
    obtain ⟨hc₂, hseen₂⟩ := ih ((w { c with state := start }).1.state :: done) _ _ hc₁
    simp only [Walk.fork, hR.state hc₁]
    exact ⟨hc₂, rel_append hseen₁ hseen₂⟩

theorem branches {ws ws' : List Walk} (h : List.Forall₂ (Related R S) ws ws') :
    Related R S (Walk.branches ws) (Walk.branches ws') := by
  intro c c' hc
  rw [Walk.branches, Walk.branches, hR.state hc]
  exact fork hR h _ _ c c' hc

theorem inside (hw : Related R S w w') (deeper : Bool) :
    Related R S (Walk.inside deeper w) (Walk.inside deeper w') := by
  intro c c' hc
  have hdepth : c'.ifDepth = c.ifDepth := (congrArg Context.ifDepth (hR.same hc) :).symm
  obtain ⟨hc₁, hseen⟩ := hw _ _ (hR.change (fun c => { c with ifDepth := c.ifDepth + deeper.toNat }) hc)
  simp only [Walk.inside, ← hdepth] at hc₁ hseen ⊢
  exact ⟨hR.change (fun d => { d with ifDepth := c'.ifDepth }) hc₁, hseen⟩

theorem pass (hw : Related R S w w') {entry entry' : FlowState} (h : entry' = entry) :
    Related R S (Walk.pass w entry) (Walk.pass w' entry') := by
  subst h
  intro c c' hc
  obtain ⟨hc₁, hseen⟩ := hw _ _ (hR.change (·.enterLoop entry') hc)
  exact ⟨hR.change Context.leaveLoop hc₁, hseen⟩

/-- Both passes of a loop start in the same states, since both walks end in the same state. -/
theorem loop (hw : Related R S w w') (skippable : Bool) :
    Related R S (Walk.loop skippable w) (Walk.loop skippable w') := by
  intro c c' hc
  have hfirst := hw.pass hR (hR.state hc) _ _ (hR.change (fun c => { c with silent := c.silent + 1 }) hc)
  unfold Walk.loop
  dsimp only
  generalize Walk.pass w c.state { c with silent := c.silent + 1 } = first at hfirst ⊢
  generalize Walk.pass w' c'.state { c' with silent := c'.silent + 1 } = first' at hfirst ⊢
  rw [hR.state hfirst.1, hR.state hc]
  generalize FlowState.merge [c.state, first.1.state] = entry
  have hsecond := hw.pass hR (Eq.refl entry) _ _
    (hR.change (fun c => { c with silent := c.silent - 1, state := entry }) hfirst.1)
  refine ⟨?_, rel_append hfirst.2 hsecond.2⟩
  exact hR.change (fun c => { c with state := if skippable then FlowState.merge [c.state, entry] else c.state })
    hsecond.1

/-- What an act does is up to the variables in scope. -/
theorem act (hsymbols : ∀ c c', R c c' → c'.symbols = c.symbols) {a : Act}
    (hsee : ∀ n ∈ a.node?, ∀ c c', R c c' → S ⟨n, c⟩ ⟨n, c'⟩) : Related R S a.walk a.walk := by
  intro c c' hc
  rw [Follows.act_apply, Follows.act_apply, Act.changes_congr (hsymbols c c' hc)]
  refine ⟨hR.change (·.update (Change.applyAll · (a.changes c))) hc, ?_⟩
  cases hn : a.node? with
  | none => exact .nil
  | some n => exact .cons (hsee n hn c c' hc) .nil

omit hR in
theorem line {acts : List Act} (h : ∀ a ∈ acts, Related R S a.walk a.walk) :
    Related R S (Walk.line acts) (Walk.line acts) := by
  induction acts with
  | nil => exact stay
  | cons a rest ih =>
    obtain ⟨ha, hrest⟩ := forall_mem_cons.1 h
    exact ha.andThen (ih hrest)

theorem code {code : Code} (h : code.All (fun a => Related R S a.walk a.walk) True fun _ _ _ _ => True) :
    Related R S code.walk code.walk := by
  induction h with
  | line hacts => rw [Code.walk]; exact line hacts
  | stop => rw [Code.walk]; exact change fun _ _ hc => hR.change (·.terminate) hc
  | jump _ => rw [Code.walk]; exact stay
  | seq _ _ ih₁ ih₂ => rw [Code.walk]; exact ih₁.andThen ih₂
  | choice _ _ ih =>
    rw [Code.walk]
    exact branches hR (forall₂_map_left_iff.2 (forall₂_map_right_iff.2 (forall₂_same.2 ih)))
  | inside _ ih => rw [Code.walk]; exact ih.inside hR _
  | loop hhead _ htail _ ih =>
    rw [Code.walk]
    exact ((line hhead).andThen (ih.andThen (line htail))).loop hR _

/-- **A body is walked in the same way from related contexts**, if its statements and expressions are seen alike
there. -/
theorem body (hsymbols : ∀ c c', R c c' → c'.symbols = c.symbols)
    (hsee : ∀ n : Node, n.isCode = true → ∀ c c', R c c' → S ⟨n, c⟩ ⟨n, c'⟩) (body : List Stmt) :
    Related R S (Stmt.walkAll body) (Stmt.walkAll body) := by
  rw [Stmt.walkAll_eq_walk]
  refine code hR (Stmt.all_codeAll fun s _ =>
    ⟨fun a ha => act hR hsymbols fun n hn => hsee n ?_, fun _ => trivial, fun _ _ _ _ _ => trivial⟩)
  exact s.seesCode_ownActs a ha n hn

end Related

end Walk

/-! ## What stays the same -/

/-- The context without what a walk changes. -/
def Context.setting (c : Context) : Context :=
  { c with state := {}, loopDepth := 0, loopEntries := [], ifDepth := 0, silent := 0 }

/-- A walk stays at its place, among statements and expressions. -/
def Walk.Stays (w : Walk) : Prop :=
  ∀ c, (w c).1.setting = c.setting ∧ ∀ s ∈ (w c).2, s.context.setting = c.setting ∧ s.node.isCode = true

/-- **The walk through a body stays at its place**, among statements and expressions. -/
theorem Stmt.stays_walkAll (body : List Stmt) : Stays (walkAll body) := by
  intro c
  have hparallel : Context.Parallel fun d d' => d' = d ∧ d.setting = c.setting :=
    ⟨fun h => h.1 ▸ rfl, fun h _ => ⟨congrArg (Context.movedTo · _) h.1, h.2⟩⟩
  have hbody := Related.body (S := fun s _ => s.context.setting = c.setting ∧ s.node.isCode = true) hparallel
    (fun _ _ h => congrArg Context.symbols h.1) (fun _ hn _ _ h => ⟨h.2, hn⟩) body c c ⟨rfl, rfl⟩
  exact ⟨hbody.1.2, forall₂_same.1 hbody.2⟩

theorem Stmt.setting_of_mem_walkAll {body : List Stmt} {c : Context} {s : Sight} (h : s ∈ (walkAll body c).2) :
    s.context.setting = c.setting :=
  ((stays_walkAll body c).2 s h).1

/-- The context with other options. -/
def Context.withOptions (c : Context) (o : Options) : Context := { c with options := o }

/-- The node in a context with other options. -/
def Sight.withOptions (s : Sight) (o : Options) : Sight := ⟨s.node, s.context.withOptions o⟩

@[simp] theorem Sight.withOptions_node (s : Sight) (o : Options) : (s.withOptions o).node = s.node := rfl

@[simp] theorem Sight.withOptions_active (s : Sight) (o : Options) : (s.withOptions o).active = s.active := rfl

@[simp] theorem Sight.withOptions_self (s : Sight) : s.withOptions s.context.options = s := rfl

/-- A walk carries the options along and does not look at them. -/
def Walk.Carries (w : Walk) : Prop :=
  ∀ (o : Options) (c : Context), w (c.withOptions o) = ((w c).1.withOptions o, (w c).2.map (·.withOptions o))

/-- **The walk through a body carries the options along.** -/
theorem Stmt.walkAll_carries (body : List Stmt) : Carries (Stmt.walkAll body) := by
  intro o c
  have hparallel : Context.Parallel fun d d' => d.withOptions o = d' := ⟨fun h => h ▸ rfl, fun h _ => h ▸ rfl⟩
  have hbody := Related.body (S := fun s s' => s.withOptions o = s') hparallel (fun _ _ h => h ▸ rfl)
    (fun _ _ _ _ h => h ▸ rfl) body c _ rfl
  have hseen := forall₂_map_left_iff.2 hbody.2
  rw [forall₂_eq_eq_eq] at hseen
  exact Prod.ext hbody.1.symm hseen.symm

end AlLint
