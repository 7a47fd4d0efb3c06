import AlLint.Catalog.Performance
import AlLint.Proofs.Flow.Steady

/-!
# Two passes through a loop

A loop is walked twice, and rules look at the second pass only. That pass starts where the state before the loop
and the state after one round meet. This file says when that is enough.

It is enough for every path, however often it goes round, if no record in a loop takes over how another one is
loaded and testing the condition of a `while` loses nothing (`Stmt.TwoPass`). Where records are assigned to each
other it need not be: a mark can take more than one round to travel from one record to the next. What decides is
whether the state at the start of the second pass already accounts for a second round (`Walk.entry`,
`Walk.rounds`).
-/

namespace AlLint

open List Needs FlowState Walk

variable {k : Call} {s : Stmt} {skippable : Bool}

/-! ## Calls that change nothing -/

/-- A call that changes what is known in no state. -/
def Context.Idle (c : Context) (k : Call) : Prop := ∀ s, (c.withState s).applyCall k = c.withState s

namespace Context

theorem methodChanges_eq_nil {method record : String}
    (h : ∀ s, Change.applyAll s (methodChanges method record) = s) : methodChanges method record = [] := by
  unfold methodChanges at h ⊢
  by_cases hf : filterMethods.contains method = true
  · -- the last change forgets a test
    have hs := h { checked := [record] }
    rw [if_pos hf, Change.applyAll, foldl_append] at hs
    have hmem : record ∉ FlowState.checked { checked := [record] } := by
      rw [← hs]
      exact fun hm => (Change.mem_checked_uncheck.1 hm).2 rfl
    exact absurd mem_cons_self hmem
  · simp only [if_neg hf, append_nil] at h ⊢
    have hload : ∀ mark, Change.applyAll {} [.load record (some mark)] ≠ {} := by
      intro mark hs
      have hget := Change.get?_load {} record (some mark) record
      rw [if_pos rfl, show (Change.load record (some mark)).apply {} = {} from hs] at hget
      simp [Keyed.get?] at hget
    split at h
    · exact absurd (h {}) (hload .full)
    · exact absurd (h {}) (hload .part)
    · exact absurd (h {}) (hload .part)
    · have hmem : record ∈ FlowState.checked {} := by
        rw [← h {}]
        exact (Change.mem_checked_check (s := {})).2 (Or.inl rfl)
      exact absurd hmem not_mem_nil
    · -- `Reset` is one of the methods that forget a test
      exact absurd (by decide) hf
    · rfl

theorem callChanges_eq_nil {c : Context} (h : c.Idle k) : c.callChanges k = [] := by
  have hall : ∀ s, Change.applyAll s (c.callChanges k) = s := by
    intro s
    have hs := congrArg Context.state (h s)
    rwa [applyCall_eq, show (c.withState s).callChanges k = c.callChanges k from
      Act.changes_congr rfl (.call k)] at hs
  revert hall
  unfold callChanges
  split
  · split
    · exact fun hall => absurd (congrArg FlowState.commit (hall {})) Bool.noConfusion
    · split
      · -- the last change forgets a test
        intro hall
        rename_i n _ _ _ _ _ _
        have hmem : Text.lower n ∉ FlowState.checked { checked := [Text.lower n] } := by
          rw [← hall { checked := [Text.lower n] }]
          exact fun hm => (Change.mem_checked_uncheck.1 hm).2 rfl
        exact absurd mem_cons_self hmem
      · exact fun _ => rfl
    · exact fun _ => rfl
  · split
    · exact fun _ => rfl
    · exact methodChanges_eq_nil

theorem mild_methodChanges {method record : String} (h : method = "get" ∨ method = "isempty") :
    (Change.needsAll (methodChanges method record)).Mild := by
  rcases h with rfl | rfl
  · show (Change.needsAll [.load record (some .full)]).Mild
    refine Needs.Mild.andThen (fun f g hg => ?_) mild_keep
    cases f with
    | whole q =>
      by_cases hq : q = record
      · simp [Change.needs, hq] at hg
      · simpa [Change.needs, hq] using hg
    | full q =>
      by_cases hq : q = record
      · simp [Change.needs, hq] at hg
      · simpa [Change.needs, hq] using hg
    | _ => exact hg
  · show (Change.needsAll [.check record]).Mild
    refine Needs.Mild.andThen (fun f g hg => ?_) mild_keep
    cases f with
    | checked q =>
      by_cases hq : q = record
      · simp [Change.needs, hq] at hg
      · simpa [Change.needs, hq] using hg
    | _ => exact hg

/-- `Get` and `IsEmpty` lose nothing, and neither do calls that change nothing. -/
theorem mild_callChanges {c : Context} (h : c.Idle k ∨ k.method = "get" ∨ k.method = "isempty") :
    (Change.needsAll (c.callChanges k)).Mild := by
  rcases h with h | h
  · rw [callChanges_eq_nil h]
    exact mild_keep
  · unfold callChanges
    split
    · -- a function of that name is no method of a record
      split
      · rename_i hm
        rw [hm] at h
        exact absurd h (by decide)
      · rename_i hm _
        rw [hm] at h
        exact absurd h (by decide)
      · exact mild_keep
    · split
      · exact mild_keep
      · exact mild_methodChanges h

end Context

/-! ## However often a path goes round -/

namespace Stmt

/-- A body of which two passes through every loop are enough for every path. -/
structure TwoPass (c : Context) (body : List Stmt) : Prop where
  /-- No pass through a loop is left early. -/
  jumps : ∀ s ∈ allNested body, s.isJump = false
  /-- In a loop no record is assigned to another one. -/
  copies : ∀ s ∈ allNested body, s.isLoop = true → ∀ t ∈ s.nested, c.copies t = false
  /-- Of the calls in the condition of a `while`, only `Get` and `IsEmpty` change what is known. -/
  conditions : ∀ condition inner span, whileDo condition inner span ∈ allNested body →
    ∀ k ∈ condition.calls, c.Idle k ∨ k.method = "get" ∨ k.method = "isempty"

variable {body : List Stmt} {c : Context}

theorem isLoop_of_loop? {x : Bool × List Act × List Stmt × List Act} (h : s.loop? = some x) :
    s.isLoop = true := by
  cases s <;> simp [loop?] at h <;> rfl

theorem mild_condition {condition : Expr}
    (h : ∀ k ∈ condition.calls, c.Idle k ∨ k.method = "get" ∨ k.method = "isempty") :
    (Effect.line c condition.acts).final.Mild := by
  refine Effect.mild_line fun a ha => ?_
  have hevaluates := condition.evaluates a ha
  cases a with
  | see n => exact mild_keep
  | call k => exact Context.mild_callChanges (h k (mem_filterMap.2 ⟨k.toExpr, hevaluates, rfl⟩))
  | assign target op value => exact hevaluates.elim

/-- Two passes through a loop are enough if no record in it is assigned to another one and testing its condition loses
nothing. -/
theorem tameLoop {head tail : List Act} {inner : List Stmt}
    (hl : s.loop? = some (skippable, head, inner, tail)) (hcopies : ∀ t ∈ s.nested, c.copies t = false)
    (hcondition : ∀ condition inner span, s = whileDo condition inner span →
      ∀ k ∈ condition.calls, c.Idle k ∨ k.method = "get" ∨ k.method = "isempty") :
    TameLoop c skippable head (codeAll inner) tail := by
  refine ⟨(steady_round hl hcopies).settled, fun hskip => ?_⟩
  cases s with
  | whileDo condition b span =>
    cases hl
    exact mild_condition (hcondition condition _ span rfl)
  | repeatUntil b condition span =>
    cases hl
    exact absurd hskip (by simp)
  | forTo counter first last down b span =>
    cases hl
    exact mild_keep
  | forEach item iterable b span =>
    cases hl
    exact mild_keep
  | _ => simp [loop?] at hl

theorem TwoPass.tame (h : TwoPass c body) : (codeAll body).Tame c := by
  refine all_codeAll fun s hs => ⟨fun _ _ => trivial, fun hj => ?_, fun skippable head inner tail hl => ?_⟩
  · rw [h.jumps s hs] at hj
    exact Bool.noConfusion hj
  · refine tameLoop hl (h.copies s hs (isLoop_of_loop? hl)) ?_
    rintro condition inner span rfl
    exact h.conditions condition inner span hs

/-- **Two passes are cautious enough for any number of rounds.** Whenever a path comes upon a node, rules look
at that node in a state that is reached and is no more optimistic than the path, and so it is behind the
body. -/
theorem cautious_on_paths (h : TwoPass c body) (hc : c.silent = 0) (hr : c.state.reachable = true) :
    (∀ k n t, Arrives body c k n t →
      ∃ s, (actives (walkAll body c).2)[k]? = some s ∧ s.node = n ∧
        s.context.state.reachable = true ∧ s.context.state.Cautious t) ∧
    ∀ t, Leaves body c t →
      (walkAll body c).1.state.reachable = true ∧ (walkAll body c).1.state.Cautious t := by
  constructor
  · intro k n t harrives
    have hlive := harrives.reachable hr
    obtain ⟨p, e, q, hp, hq, rfl⟩ := harrives
    obtain ⟨i, v, hi, hv, hn, hneeds⟩ := (hp.covers h.tame).seen k n q hq
    rw [Nat.zero_add] at hi
    subst hi
    obtain ⟨s, hs, hnode, hknown⟩ := exists_sight hc hv
    -- rules know no more than the path does
    have hless : s.context.state.known ⊆ (Trail.run c q).state.known := by
      rw [hknown, Trail.known_run rfl]
      exact after_anti hneeds _
    exact ⟨s, hs, hnode.trans hn, reachable_of_known_subset hlive hless,
      cautious_of_known_subset hlive hless⟩
  · intro t hleaves
    have hlive := hleaves.reachable hr
    obtain ⟨p, hp, rfl⟩ := hleaves
    have hless : (walkAll body c).1.state.known ⊆ (Trail.run c p).state.known := by
      rw [known_walkAll, Trail.known_run rfl]
      exact after_anti ((hp.covers h.tame).final rfl) _
    exact ⟨reachable_of_known_subset hlive hless, cautious_of_known_subset hlive hless⟩

open Sample

/-- A record that is loaded in part from the second round on. -/
def partInLaterRounds : List Stmt :=
  [.whileDo (.unary .not (method "A" "IsEmpty").toExpr here) [run "A" "Modify", run "A" "SetLoadFields"] here]

/-- A path that goes round twice writes the record while it is loaded in part, and rules see it so. -/
theorem cautious_on_second_round :
    TwoPass context partInLaterRounds ∧ context.silent = 0 ∧ context.state.reachable = true ∧
      (∃ t, Arrives partInLaterRounds context 6 (.expr (method "A" "Modify").toExpr) t ∧
        t.loads.get? "a" = some .part) ∧
      ∃ s, (actives (walkAll partInLaterRounds context).2)[6]? = some s ∧ s.context.state.reachable = true ∧
        s.context.state.loads.get? "a" = some .part := by
  have htwo : TwoPass context partInLaterRounds := by
    refine ⟨by decide, by decide, fun condition inner span hmem k hk => ?_⟩
    rcases mem_cons.1 hmem with h | h
    · cases h
      obtain rfl := mem_singleton.1 hk
      exact Or.inr (Or.inr rfl)
    · simp [allNested, nested, run] at h
  -- two rounds, and the condition once more
  have hpath : Path 0 (codeAll partInLaterRounds) _ .on :=
    .seq (.seq .line (.again (.seq .line (.seq .line .line)) rfl
      (.again (.seq .line (.seq .line .line)) rfl .skip))) .line
  obtain ⟨t, harrives, hpart⟩ : ∃ t, Arrives partInLaterRounds context 6 (.expr (method "A" "Modify").toExpr) t ∧
      t.loads.get? "a" = some .part := by
    refine ⟨_, ⟨_, _, _, hpath, Trail.reaches_take (m := 19) ?_, rfl⟩, ?_⟩
    · cbv
    · rfl
  obtain ⟨s, hs, _, hlive, hcautious⟩ := (cautious_on_paths htwo rfl rfl).1 _ _ _ harrives
  exact ⟨htwo, rfl, rfl, ⟨t, harrives, hpart⟩, s, hs, hlive, hcautious.part "a" hpart⟩

end Stmt

/-! ## Where the second pass starts -/

/-- The state after going round a number of times, without any merge. -/
def Walk.rounds (pass : Walk) (c : Context) : Nat → FlowState
  | 0 => c.state
  | n + 1 => (pass (c.round c.silent (pass.rounds c n))).1.state

namespace Follows

variable {o c : Context} {pass : Walk} {E : Effect}

theorem known_rounds_succ (h : Follows o pass E) (hc : c.symbols = o.symbols) (n : Nat) :
    (pass.rounds c (n + 1)).known = E.final.after (pass.rounds c n).known :=
  h.final (c.round c.silent (pass.rounds c n)) hc

theorem known_entry_rounds (h : Follows o pass E) (hc : c.symbols = o.symbols) :
    (pass.entry c).known = (pass.rounds c 0).known ∩ (pass.rounds c 1).known := by
  rw [h.known_entry hc, h.known_rounds_succ hc, Effect.entry, after_meet, after_keep]
  rfl

theorem known_roundEnd_rounds (h : Follows o pass E) (hc : c.symbols = o.symbols) :
    (pass.roundEnd c).known = (pass.rounds c 1).known ∩ (pass.rounds c 2).known := by
  rw [h.known_roundEnd hc, ← h.known_entry hc, h.known_entry_rounds hc, after_inter, h.known_rounds_succ hc 1,
    h.known_rounds_succ hc 0]

/-- The start of the second pass absorbs its end exactly if it absorbs two rounds. -/
theorem absorbs_roundEnd_iff (h : Follows o pass E) (hc : c.symbols = o.symbols) :
    (pass.entry c).Absorbs (pass.roundEnd c) ↔ (pass.entry c).Absorbs (pass.rounds c 2) := by
  have hfirst : (pass.entry c).known ⊆ (pass.rounds c 1).known := by
    rw [h.known_entry_rounds hc]
    exact Set.inter_subset_right
  rw [Walk.entry, absorbs_merge_iff, absorbs_merge_iff, ← Walk.entry,
    h.known_roundEnd_rounds hc, Set.subset_inter_iff]
  exact and_iff_right hfirst

/-- Once two rounds are absorbed, all are: one more round moves the inclusion on by one. -/
theorem absorbs_rounds (h : Follows o pass E) (hc : c.symbols = o.symbols)
    (htwo : (pass.entry c).Absorbs (pass.rounds c 2)) (n : Nat) : (pass.entry c).Absorbs (pass.rounds c n) := by
  rw [Walk.entry, absorbs_merge_iff, ← Walk.entry] at htwo ⊢
  have hentry := h.known_entry_rounds hc
  -- consecutive rounds together know at least what is known at the start of the second pass
  have hpair : ∀ n, (pass.entry c).known ⊆ (pass.rounds c n).known ∩ (pass.rounds c (n + 1)).known := by
    intro n
    induction n with
    | zero => exact hentry.subset
    | succ n ih =>
      have hnext := E.final.after_mono ih
      rw [after_inter, ← h.known_rounds_succ hc n, ← h.known_rounds_succ hc (n + 1), hentry,
        after_inter, ← h.known_rounds_succ hc 0, ← h.known_rounds_succ hc 1] at hnext
      have hstart : (pass.entry c).known ⊆ (pass.rounds c 1).known := by
        rw [hentry]
        exact Set.inter_subset_right
      exact (Set.subset_inter hstart htwo).trans hnext
  exact (hpair n).trans Set.inter_subset_left

theorem absorbs_of_settled (h : Follows o pass E) (hc : c.symbols = o.symbols) (hE : E.final.Settled) :
    (pass.entry c).Absorbs (pass.rounds c 2) := by
  rw [Walk.entry, absorbs_merge_iff, ← Walk.entry, h.known_entry_rounds hc, h.known_rounds_succ hc 1,
    h.known_rounds_succ hc 0, ← after_andThen]
  exact Set.inter_subset_right.trans (after_anti hE _)

end Follows

namespace Stmt

/-- One pass through a loop statement, and whether the loop may be skipped. -/
def pass? : Stmt → Option (Bool × Walk)
  | repeatUntil body condition _ => some (false, (walkAll body).andThen condition.walk)
  | whileDo condition body _ => some (true, condition.walk.andThen (walkAll body))
  | forTo _ _ _ _ body _ => some (true, walkAll body)
  | forEach _ _ body _ => some (true, walkAll body)
  | _ => none

theorem exists_round_eq {pass : Walk} (h : s.pass? = some (skippable, pass)) :
    ∃ head body tail, s.loop? = some (skippable, head, body, tail) ∧
      pass = Code.round head (codeAll body).walk tail := by
  cases s with
  | repeatUntil body condition span =>
    cases h
    refine ⟨_, _, _, rfl, ?_⟩
    rw [Code.round, Walk.line, stay_andThen, Expr.walk_eq_line, walkAll_eq_walk]
  | whileDo condition body span =>
    cases h
    refine ⟨_, _, _, rfl, ?_⟩
    rw [Code.round, Walk.line, andThen_stay, Expr.walk_eq_line, walkAll_eq_walk]
  | forTo counter first last down body span =>
    cases h
    refine ⟨_, _, _, rfl, ?_⟩
    rw [Code.round, Walk.line, stay_andThen, andThen_stay, walkAll_eq_walk]
  | forEach item iterable body span =>
    cases h
    refine ⟨_, _, _, rfl, ?_⟩
    rw [Code.round, Walk.line, stay_andThen, andThen_stay, walkAll_eq_walk]
  | _ => simp [pass?] at h

/-- A loop statement is walked up to the loop, and then the loop is. -/
theorem exists_walk_eq {pass : Walk} (h : s.pass? = some (skippable, pass)) :
    ∃ before : Walk, ∀ chained, s.walk chained = before.andThen (Walk.loop skippable pass) := by
  obtain ⟨head, body, tail, hl, rfl⟩ := exists_round_eq h
  obtain ⟨before, hcode⟩ := exists_code_eq hl
  exact ⟨before.walk, fun chained => by rw [walk_eq_walk, hcode, Code.walk, Code.walk]⟩

/-- **Where the second pass starts is a fixpoint exactly if it accounts for two rounds**, and then it accounts for any
number of them. So it always is if no record in the loop is assigned to another one. -/
theorem entry_absorbs_iff {s : Stmt} {skippable : Bool} {pass : Walk} (h : s.pass? = some (skippable, pass))
    (c : Context) :
    (∃ before : Walk, ∀ chained, s.walk chained = before.andThen (Walk.loop skippable pass)) ∧
    ((Walk.loop skippable pass c).1.state =
      if skippable then FlowState.merge [pass.roundEnd c, pass.entry c] else pass.roundEnd c) ∧
    ((pass.entry c).Absorbs (pass.roundEnd c) ↔ (pass.entry c).Absorbs (pass.rounds c 2)) ∧
    ((pass.entry c).Absorbs (pass.roundEnd c) ↔ ∀ n, (pass.entry c).Absorbs (pass.rounds c n)) ∧
    ((∀ t ∈ s.nested, c.copies t = false) → (pass.entry c).Absorbs (pass.roundEnd c)) := by
  obtain ⟨head, body, tail, hl, rfl⟩ := exists_round_eq h
  have hround : Follows c (Code.round head (codeAll body).walk tail)
      (Effect.round c head ((codeAll body).effect c) tail) :=
    (Follows.line head).andThen (((codeAll body).follows c).andThen (.line tail))
  have htwo := hround.absorbs_roundEnd_iff (c := c) rfl
  refine ⟨exists_walk_eq h, by rw [loop_apply hround.frame]; rfl, htwo,
    ⟨fun he n => ?_, fun hall => htwo.2 (hall 2)⟩, fun hcopies => ?_⟩
  · exact hround.absorbs_rounds rfl (htwo.1 he) n
  · exact htwo.2 (hround.absorbs_of_settled rfl (steady_round hl hcopies).settled)

open Sample

/-- A context in which both records are loaded fully. -/
def loaded : Context := context.withState { loads := [("a", .full), ("b", .full)] }

/-- A loop that only sets marks. -/
def markingLoop : Stmt :=
  .repeatUntil [run "A" "Modify", run "B" "Get", run "A" "SetLoadFields"] (var "Done") here

/-- The second pass starts with `A` loaded in part, and that is a fixpoint. -/
theorem entry_absorbs_marking :
    ∃ pass, markingLoop.pass? = some (false, pass) ∧ (∀ t ∈ markingLoop.nested, loaded.copies t = false) ∧
      (pass.entry loaded).loads.get? "a" = some .part ∧ (pass.entry loaded).Absorbs (pass.roundEnd loaded) ∧
      ∀ n, (pass.entry loaded).Absorbs (pass.rounds loaded n) := by
  have hcopies : ∀ t ∈ markingLoop.nested, loaded.copies t = false := by decide
  obtain ⟨_, _, _, hall, hsettled⟩ := entry_absorbs_iff (s := markingLoop) rfl loaded
  exact ⟨_, rfl, hcopies, by decide, hsettled hcopies, hall.1 (hsettled hcopies)⟩

/-- A loop in which a mark takes two rounds to get to `A`. -/
def copyingLoop : Stmt :=
  .repeatUntil [run "A" "Modify", .assignment (var "A") .set (var "B") here, run "B" "SetLoadFields"]
    (var "Done") here

/-- **A record that is assigned to another one can defeat two passes.** The third round writes `A` while it is
loaded in part, the second pass starts with `A` loaded fully, and the write is not reported. -/
theorem copying_entry_not_absorbing :
    (∃ pass, copyingLoop.pass? = some (false, pass) ∧ ¬ (pass.entry loaded).Absorbs (pass.roundEnd loaded)) ∧
    ∃ s, (actives (walkAll [copyingLoop] loaded).2)[3]? = some s ∧
      (∀ file, (Catalog.partialLoadWriteConflict.check file s).findings = []) ∧
      ∃ t, Arrives [copyingLoop] loaded 3 (.expr (method "A" "Modify").toExpr) t ∧ t.loads.get? "a" = some .part := by
  constructor
  · refine ⟨_, rfl, fun habsorbs => ?_⟩
    exact absurd (habsorbs.loads "a") (by decide)
  · have hsight : 3 < (actives (walkAll [copyingLoop] loaded).2).length := by decide
    -- three rounds
    have hpath : Path 0 (codeAll [copyingLoop]) _ .on :=
      .seq (.seq .line (.again (.seq .line (.seq .line (.seq .line .line))) rfl
        (.again (.seq .line (.seq .line (.seq .line .line))) rfl
          (.last (.seq .line (.seq .line (.seq .line .line))) rfl)))) .line
    refine ⟨_, getElem?_eq_getElem hsight, fun file => rfl, _,
      ⟨_, _, _, hpath, Trail.reaches_take (m := 29) ?_, rfl⟩, ?_⟩
    · cbv
    · rfl

end Stmt

end AlLint
