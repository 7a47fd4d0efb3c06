import Mathlib.Data.List.Basic
import AlLint.Proofs.Flow.Change

/-!
# What a walk does

A walk changes nothing of the context but the state, and what it does to the state and what it shows on the way
can be said without running it: an `Effect` holds what has to be known before for a fact to be known at the end,
and, for every node that rules get to look at, how many loops and conditions are around it and what has to be
known before for a fact to be known there.

`Follows` ties a walk to its effect, with one lemma for each way of putting walks together. `Code.follows` puts them
together for every skeleton. What a body does to the flow is then a matter of `Needs` alone.
-/

namespace AlLint

open Walk List Needs FlowState Walk

variable {c : Context}

/-- A node that rules get to look at: the loops and conditions around it, and what has to be known before the
code for a fact to be known there. -/
structure Visit where
  node : Node
  loops : Nat
  ifs : Nat
  needs : Needs

/-- The visit as it is when some code goes before. -/
def Visit.behind (R : Needs) (v : Visit) : Visit := { v with needs := R.andThen v.needs }

/-- What code does to what is known, and what there is to look at on the way. -/
structure Effect where
  final : Needs
  seen : List Visit

namespace Effect

/-- The effect of one act. -/
def act (o : Context) (a : Act) : Effect :=
  ⟨Change.needsAll (a.changes o), a.node?.toList.map (⟨·, 0, 0, .keep⟩)⟩

def andThen (E F : Effect) : Effect := ⟨E.final.andThen F.final, E.seen ++ F.seen.map (Visit.behind E.final)⟩

/-- The effect of straight code. -/
def line (o : Context) : List Act → Effect
  | [] => ⟨.keep, []⟩
  | a :: rest => (act o a).andThen (line o rest)

def join (Es : List Effect) : Effect := ⟨fun f => {g | ∃ E ∈ Es, g ∈ E.final f}, Es.flatMap seen⟩

def inside (deeper : Bool) (E : Effect) : Effect :=
  ⟨E.final, E.seen.map fun v => { v with ifs := deeper.toNat + v.ifs }⟩

/-- One round of a loop. -/
def round (o : Context) (head : List Act) (body : Effect) (tail : List Act) : Effect :=
  (line o head).andThen (body.andThen (line o tail))

/-- What holds on entry to the second pass through a loop: what held before it and still holds after one round. -/
def entry (E : Effect) : Needs := .meet .keep E.final

def loop (skippable : Bool) (E : Effect) : Effect :=
  ⟨if skippable then (E.entry.andThen E.final).meet E.entry else E.entry.andThen E.final,
    E.seen.map fun v => { v.behind E.entry with loops := 1 + v.loops }⟩

end Effect

/-- The effect of a skeleton. -/
def Code.effect (o : Context) : Code → Effect
  | line acts => Effect.line o acts
  | stop => ⟨.never, []⟩
  | jump _ => ⟨.keep, []⟩
  | seq a b => (a.effect o).andThen (b.effect o)
  | choice os => Effect.join (os.map (effect o))
  | inside deeper b => (b.effect o).inside deeper
  | loop skippable head b tail => Effect.loop skippable (Effect.round o head (b.effect o) tail)

/-! ## Putting walks together -/

/-- What a rule can tell of where it looks: the node, the loops and conditions around it, and what is known. -/
def Sight.view (s : Sight) : Node × Int × Nat × Set Fact :=
  (s.node, s.context.loopDepth, s.context.ifDepth, s.context.state.known)

/-- A visit as it is seen when the code starts in some context. -/
def Visit.view (c : Context) (v : Visit) : Node × Int × Nat × Set Fact :=
  (v.node, c.loopDepth + v.loops, c.ifDepth + v.ifs, v.needs.after c.state.known)

def actives (sights : List Sight) : List Sight := sights.filter Sight.active

/-- The context with another state. -/
def Context.withState (c : Context) (s : FlowState) : Context := { c with state := s }

/-- A walk does what an effect says, where the variables in scope are those of `o`. -/
structure Follows (o : Context) (w : Walk) (E : Effect) : Prop where
  /-- Nothing of the context changes but the state. -/
  frame : ∀ c, (w c).1 = c.withState (w c).1.state
  /-- What is known at the end. -/
  final : ∀ c, c.symbols = o.symbols → (w c).1.state.known = E.final.after c.state.known
  /-- A pass never becomes less silent. -/
  silent : ∀ c, ∀ s ∈ (w c).2, c.silent ≤ s.context.silent
  /-- There is one entry state for each loop around. -/
  entries : ∀ c : Context, c.loopEntries.length = c.loopDepth →
    ∀ s ∈ (w c).2, s.context.loopEntries.length = s.context.loopDepth
  /-- Only plain marks are made. -/
  plain : ∀ c : Context, c.state.Plain → (w c).1.state.Plain ∧ ∀ s ∈ (w c).2, s.context.state.Plain
  /-- What rules look at. -/
  seen : ∀ c, c.symbols = o.symbols → c.silent = 0 →
    (actives (w c).2).map Sight.view = E.seen.map (Visit.view c)

theorem actives_append (xs ys : List Sight) : actives (xs ++ ys) = actives xs ++ actives ys :=
  filter_append ..

theorem actives_eq_nil {sights : List Sight} (h : ∀ s ∈ sights, s.context.silent ≠ 0) : actives sights = [] := by
  rw [actives, filter_eq_nil_iff]
  intro s hs
  simpa [Sight.active] using h s hs

theorem Context.isRecord_congr {o : Context} (h : c.symbols = o.symbols) : c.isRecord = o.isRecord := by
  funext name
  rw [isRecord, isRecord, typeOf?, typeOf?, h]

theorem Act.changes_congr {o : Context} (h : c.symbols = o.symbols) (a : Act) : a.changes c = a.changes o := by
  have hr := Context.isRecord_congr h
  cases a with
  | see n => rfl
  | call k =>
    simp only [changes, Context.callChanges, Context.recordReceiver?, hr]
  | assign target op value =>
    simp only [changes, Context.assignmentChanges, hr]

namespace Follows

variable {o : Context} {u v w : Walk} {E F : Effect}

theorem stay : Follows o Walk.stay ⟨.keep, []⟩ where
  frame _ := rfl
  final _ _ := (after_keep _).symm
  silent _ _ hs := absurd hs not_mem_nil
  entries _ _ _ hs := absurd hs not_mem_nil
  plain _ h := ⟨h, fun _ hs => absurd hs not_mem_nil⟩
  seen _ _ _ := rfl

theorem terminate : Follows o (change (·.terminate)) ⟨.never, []⟩ where
  frame _ := rfl
  final c _ := by
    rw [after_never]
    exact known_of_unreachable rfl
  silent _ _ hs := absurd hs not_mem_nil
  entries _ _ _ hs := absurd hs not_mem_nil
  plain _ h := ⟨h, fun _ hs => absurd hs not_mem_nil⟩
  seen _ _ _ := rfl

/-- The walk of an act changes what the act changes and shows its node. -/
theorem act_apply (a : Act) (c : Context) :
    a.walk c = (c.update (Change.applyAll · (a.changes c)), a.node?.toList.map (⟨·, c⟩)) := by
  rw [← a.apply_eq c]
  cases a <;> rfl

theorem act (a : Act) : Follows o a.walk (Effect.act o a) where
  frame c := by rw [act_apply]; rfl
  final c hc := by
    rw [act_apply, Act.changes_congr hc]
    exact Change.known_applyAll ..
  silent c s hs := by
    rw [act_apply] at hs
    obtain ⟨n, _, rfl⟩ := mem_map.1 hs
    exact Nat.le_refl _
  entries c hc s hs := by
    rw [act_apply] at hs
    obtain ⟨n, _, rfl⟩ := mem_map.1 hs
    exact hc
  plain c h := by
    rw [act_apply]
    refine ⟨Change.plain_applyAll (a.plain_changes c) h, fun s hs => ?_⟩
    obtain ⟨n, _, rfl⟩ := mem_map.1 hs
    exact h
  seen c _ hs := by
    rw [act_apply, actives, Effect.act]
    cases a.node? with
    | none => rfl
    | some n => simp [Sight.active, hs, Sight.view, Visit.view]

theorem andThen (hu : Follows o u E) (hv : Follows o v F) : Follows o (u.andThen v) (E.andThen F) where
  frame c :=
    calc (v (u c).1).1 = (u c).1.withState (v (u c).1).1.state := hv.frame _
      _ = (c.withState (u c).1.state).withState (v (u c).1).1.state :=
          congrArg (fun d => d.withState (v (u c).1).1.state) (hu.frame c)
  final c hc := by
    show (v (u c).1).1.state.known = _
    rw [hv.final _ (by rw [hu.frame c]; exact hc), hu.final c hc]
    exact (after_andThen ..).symm
  silent c s hs := by
    rcases mem_append.1 hs with h | h
    · exact hu.silent c s h
    · have := hv.silent _ s h
      rwa [hu.frame c] at this
  entries c hc s hs := by
    rcases mem_append.1 hs with h | h
    · exact hu.entries c hc s h
    · exact hv.entries _ (by rw [hu.frame c]; exact hc) s h
  plain c h := by
    have hfirst := hu.plain c h
    have hsecond := hv.plain (u c).1 hfirst.1
    refine ⟨hsecond.1, fun s hs => ?_⟩
    rcases mem_append.1 hs with hs | hs
    · exact hfirst.2 s hs
    · exact hsecond.2 s hs
  seen c hc hs := by
    show (actives ((u c).2 ++ (v (u c).1).2)).map Sight.view = _
    rw [actives_append, map_append, hu.seen c hc hs,
      hv.seen _ (by rw [hu.frame c]; exact hc) (by rw [hu.frame c]; exact hs)]
    -- a visit of the second walk is one behind the first
    have hview : ∀ x : Visit, x.view (u c).1 = (x.behind E.final).view c := by
      intro x
      have hd : (u c).1.loopDepth = c.loopDepth ∧ (u c).1.ifDepth = c.ifDepth := by
        rw [hu.frame c]; exact ⟨rfl, rfl⟩
      simp only [Visit.view, Visit.behind, hd.1, hd.2, hu.final c hc, after_andThen]
    simp only [Effect.andThen, map_append, map_map]
    exact congrArg _ (map_congr_left fun x _ => hview x)

theorem line (acts : List Act) : Follows o (Walk.line acts) (Effect.line o acts) := by
  induction acts with
  | nil => exact stay
  | cons a rest ih => exact (act a).andThen ih

/-- The walks of a fork all start in the same context, and only their final states go into the merge. -/
theorem fork_apply {ws : List Walk} (h : ∀ w ∈ ws, ∀ c, (w c).1 = c.withState (w c).1.state)
    (start : FlowState) (done : List FlowState) (c : Context) :
    fork start done ws c =
      (c.withState (FlowState.merge (done.reverse ++ ws.map fun w => (w (c.withState start)).1.state)),
        ws.flatMap fun w => (w (c.withState start)).2) := by
  induction ws generalizing done c with
  | nil => simp [fork, Context.withState]
  | cons w ws ih =>
    have hw := h w mem_cons_self (c.withState start)
    have ih := ih (fun x hx => h x (mem_cons_of_mem _ hx)) ((w (c.withState start)).1.state :: done)
      (w (c.withState start)).1
    show ((fork start ((w (c.withState start)).1.state :: done) ws (w (c.withState start)).1).1,
      (w (c.withState start)).2 ++
        (fork start ((w (c.withState start)).1.state :: done) ws (w (c.withState start)).1).2) = _
    -- the walk before left everything but the state as it was
    have hback : ∀ t, (w (c.withState start)).1.withState t = c.withState t := by
      intro t
      rw [hw]
      rfl
    rw [ih, hback]
    simp only [hback, reverse_cons, append_assoc, singleton_append, map_cons,
      flatMap_cons]

/-- Walks that part and meet all start in the same context, and their final states meet. -/
theorem branches_apply {ι : Type} {os : List ι} {w : ι → Walk} {E : ι → Effect}
    (h : ∀ i ∈ os, Follows o (w i) (E i)) (c : Context) :
    Walk.branches (os.map w) c =
      (c.withState (FlowState.merge (os.map fun i => (w i c).1.state)), os.flatMap fun i => (w i c).2) := by
  have hframe : ∀ x ∈ os.map w, ∀ c, (x c).1 = c.withState (x c).1.state := by
    intro x hx
    obtain ⟨i, hi, rfl⟩ := mem_map.1 hx
    exact (h i hi).frame
  have hfork := fork_apply hframe c.state [] c
  rw [map_map, flatMap_map] at hfork
  exact hfork

theorem exists_mem_branches {ι : Type} {os : List ι} {w : ι → Walk} {E : ι → Effect}
    (h : ∀ i ∈ os, Follows o (w i) (E i)) {s : Sight} (hs : s ∈ (Walk.branches (os.map w) c).2) :
    ∃ i ∈ os, s ∈ (w i c).2 := by
  rw [branches_apply h] at hs
  exact mem_flatMap.1 hs

theorem branches {ι : Type} {os : List ι} {w : ι → Walk} {E : ι → Effect}
    (h : ∀ i ∈ os, Follows o (w i) (E i)) :
    Follows o (Walk.branches (os.map w)) (Effect.join (os.map E)) where
  frame c := by rw [branches_apply h]; rfl
  final c hc := by
    rw [branches_apply h]
    ext f
    show f ∈ (FlowState.merge _).known ↔ _
    rw [mem_known_merge]
    constructor
    · rintro hall g ⟨F, hF, hg⟩
      obtain ⟨i, hi, rfl⟩ := mem_map.1 hF
      have hfi := hall _ (mem_map_of_mem hi)
      rw [(h i hi).final c hc] at hfi
      exact hfi hg
    · intro hsub s hs
      obtain ⟨i, hi, rfl⟩ := mem_map.1 hs
      rw [(h i hi).final c hc]
      exact fun g hg => hsub ⟨E i, mem_map_of_mem hi, hg⟩
  silent c s hs := by
    obtain ⟨i, hi, hs⟩ := exists_mem_branches h hs
    exact (h i hi).silent c s hs
  entries c hc s hs := by
    obtain ⟨i, hi, hs⟩ := exists_mem_branches h hs
    exact (h i hi).entries c hc s hs
  plain c hp := by
    refine ⟨?_, fun s hs => ?_⟩
    · rw [branches_apply h]
      refine plain_merge fun s hs => ?_
      obtain ⟨i, hi, rfl⟩ := mem_map.1 hs
      exact ((h i hi).plain c hp).1
    · obtain ⟨i, hi, hs⟩ := exists_mem_branches h hs
      exact ((h i hi).plain c hp).2 s hs
  seen c hc hs := by
    rw [branches_apply h, actives, Effect.join, flatMap_map, filter_flatMap, map_flatMap,
      map_flatMap]
    exact flatMap_congr fun i hi => (h i hi).seen c hc hs

theorem inside (deeper : Bool) (hw : Follows o w E) : Follows o (Walk.inside deeper w) (E.inside deeper) where
  frame c := by
    show { (w { c with ifDepth := c.ifDepth + deeper.toNat }).1 with ifDepth := c.ifDepth } = _
    rw [hw.frame]
    rfl
  final c hc := hw.final { c with ifDepth := c.ifDepth + deeper.toNat } hc
  silent c := hw.silent { c with ifDepth := c.ifDepth + deeper.toNat }
  entries c := hw.entries { c with ifDepth := c.ifDepth + deeper.toNat }
  plain c := hw.plain { c with ifDepth := c.ifDepth + deeper.toNat }
  seen c hc hs := by
    refine (hw.seen { c with ifDepth := c.ifDepth + deeper.toNat } hc hs).trans ?_
    rw [Effect.inside, map_map]
    refine map_congr_left fun v _ => ?_
    simp [Visit.view, Nat.add_assoc]

end Follows

/-! ## Loops -/

/-- The context in which a pass through a loop starts. -/
def Context.round (c : Context) (silent : Nat) (entry : FlowState) : Context :=
  { c with silent, state := entry }.enterLoop entry

/-- The state on entry to the second pass: the state before the loop and the one after the silent pass meet. -/
def Walk.entry (body : Walk) (c : Context) : FlowState :=
  FlowState.merge [c.state, (body (c.round (c.silent + 1) c.state)).1.state]

/-- The state at the end of the second pass. -/
def Walk.roundEnd (body : Walk) (c : Context) : FlowState := (body (c.round c.silent (body.entry c))).1.state

theorem Context.leaveLoop_round (c : Context) (silent : Nat) (entry s : FlowState) :
    ((c.round silent entry).withState s).leaveLoop = { c with silent, state := s } := by
  simp [round, withState, enterLoop, leaveLoop]

theorem Walk.pass_apply {body : Walk} (h : ∀ c, (body c).1 = c.withState (body c).1.state) (c : Context)
    (silent : Nat) (entry : FlowState) :
    Walk.pass body entry { c with silent, state := entry } =
      ({ c with silent, state := (body (c.round silent entry)).1.state }, (body (c.round silent entry)).2) := by
  have hleave : (body (c.round silent entry)).1.leaveLoop =
      { c with silent, state := (body (c.round silent entry)).1.state } :=
    (congrArg Context.leaveLoop (h _)).trans (c.leaveLoop_round _ _ _)
  exact Prod.ext hleave rfl

/-- **A loop is two rounds**, a silent one from the state before and another one from where its end meets that
state. -/
theorem Walk.loop_apply {body : Walk} (h : ∀ c, (body c).1 = c.withState (body c).1.state) (skippable : Bool)
    (c : Context) :
    Walk.loop skippable body c =
      (c.withState (if skippable then FlowState.merge [body.roundEnd c, body.entry c] else body.roundEnd c),
        (body (c.round (c.silent + 1) c.state)).2 ++ (body (c.round c.silent (body.entry c))).2) := by
  have hfirst := pass_apply h c (c.silent + 1) c.state
  have hsecond := pass_apply h c c.silent (body.entry c)
  simp only [Walk.loop, hfirst, Nat.add_sub_cancel]
  exact Prod.ext (by rw [← Walk.entry, hsecond]; rfl) (by rw [← Walk.entry, hsecond])

namespace Follows

variable {o : Context} {w : Walk} {E : Effect}

theorem known_entry (hw : Follows o w E) (hc : c.symbols = o.symbols) :
    (w.entry c).known = E.entry.after c.state.known := by
  rw [Walk.entry, known_merge_pair, hw.final (c.round (c.silent + 1) c.state) hc, Effect.entry,
    after_meet, after_keep]
  rfl

theorem known_roundEnd (hw : Follows o w E) (hc : c.symbols = o.symbols) :
    (w.roundEnd c).known = E.final.after (E.entry.after c.state.known) := by
  rw [← hw.known_entry hc]
  exact hw.final (c.round c.silent (w.entry c)) hc

theorem plain_entry (hw : Follows o w E) (h : c.state.Plain) : (w.entry c).Plain := by
  refine plain_merge fun s hs => ?_
  rcases mem_pair.1 hs with rfl | rfl
  · exact h
  · exact (hw.plain (c.round (c.silent + 1) c.state) h).1

theorem loop (skippable : Bool) (hw : Follows o w E) :
    Follows o (Walk.loop skippable w) (E.loop skippable) where
  frame c := by rw [loop_apply hw.frame]; rfl
  final c hc := by
    rw [loop_apply hw.frame, Effect.loop]
    show FlowState.known (if skippable = true then _ else _) = _
    split
    · rw [known_merge_pair, hw.known_roundEnd hc, hw.known_entry hc, after_meet, after_andThen]
    · rw [hw.known_roundEnd hc, after_andThen]
  silent c s hs := by
    rw [loop_apply hw.frame] at hs
    rcases mem_append.1 hs with h | h
    · exact Nat.le_of_succ_le (hw.silent (c.round (c.silent + 1) c.state) s h)
    · exact hw.silent (c.round c.silent (w.entry c)) s h
  entries c hc s hs := by
    rw [loop_apply hw.frame] at hs
    -- entering the loop adds one to both sides
    have hround : ∀ (silent : Nat) (entry : FlowState),
        ((c.round silent entry).loopEntries.length : Int) = (c.round silent entry).loopDepth := by
      intro silent entry
      simp [Context.round, Context.enterLoop, hc]
    rcases mem_append.1 hs with h | h
    · exact hw.entries _ (hround _ _) s h
    · exact hw.entries _ (hround _ _) s h
  plain c hp := by
    have hentry := hw.plain_entry hp
    have hfirst := hw.plain (c.round (c.silent + 1) c.state) hp
    have hsecond := hw.plain (c.round c.silent (w.entry c)) hentry
    rw [loop_apply hw.frame]
    refine ⟨?_, fun s hs => ?_⟩
    · show FlowState.Plain (if skippable = true then _ else _)
      split
      · refine plain_merge fun s hs => ?_
        rcases mem_pair.1 hs with rfl | rfl
        · exact hsecond.1
        · exact hentry
      · exact hsecond.1
    · rcases mem_append.1 hs with h | h
      · exact hfirst.2 s h
      · exact hsecond.2 s h
  seen c hc hs := by
    rw [loop_apply hw.frame, actives_append]
    -- rules look at nothing in the first pass
    have hfirst : actives (w (c.round (c.silent + 1) c.state)).2 = [] := by
      refine actives_eq_nil fun s h => ?_
      have hle : c.silent + 1 ≤ s.context.silent := hw.silent _ s h
      omega
    rw [hfirst, nil_append, hw.seen (c.round c.silent (w.entry c)) hc hs, Effect.loop, map_map]
    refine map_congr_left fun v _ => ?_
    have hknown : (c.round c.silent (w.entry c)).state.known = E.entry.after c.state.known := hw.known_entry hc
    simp only [Visit.view, Visit.behind, Function.comp_apply, hknown, after_andThen]
    simp [Context.round, Context.enterLoop, Int.add_assoc]

end Follows

/-- **Every skeleton is walked as its effect says.** -/
theorem Code.follows (o : Context) (code : Code) : Follows o code.walk (code.effect o) := by
  induction code with
  | line acts => rw [walk, effect]; exact .line acts
  | stop => rw [walk, effect]; exact .terminate
  | jump j => rw [walk, effect]; exact .stay
  | seq a b iha ihb => rw [walk, effect]; exact iha.andThen ihb
  | choice os ih => rw [walk, effect]; exact .branches ih
  | inside deeper b ih => rw [walk, effect]; exact ih.inside deeper
  | loop skippable head b tail ih =>
    rw [walk, effect]
    exact ((Follows.line head).andThen (ih.andThen (.line tail))).loop skippable

end AlLint
