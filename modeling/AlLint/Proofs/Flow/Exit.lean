import AlLint.Proofs.Flow.Loop

/-!
# Leaving a loop

A loop can be left in several ways: its condition is tested and does not hold, there is nothing left to go
through, the condition at its end holds, or a `break` leaves it from within. After a loop the analysis knows
what the end of the second pass and, if the body may be skipped, its start have in common.

That accounts for every path that comes to the end of the loop by itself, however often it goes round and
whatever stands in the body (`Stmt.cautious_behind`), under the conditions that two passes need. Jumps are
another matter. The analysis passes over a `break` or `continue` as if it did nothing, so what is known where
one is made does not get behind the loop (`Stmt.leaving_not_accounted`). So it does not matter whether there are
jumps in the loop, but whether the path makes one.
-/

namespace AlLint

open List

/-! ## Paths that make no jump -/

/-- Whether an act comes upon a `break` or `continue`. -/
def Act.isJump : Act → Bool
  | see (.stmt s) => s.isJump
  | _ => false

def Trail.Straight (p : Trail) : Prop := ∀ a ∈ p, a.2.isJump = false

theorem Trail.straight_append {p q : Trail} : Straight (p ++ q) ↔ p.Straight ∧ q.Straight := forall_mem_append

namespace Code

/-- Code in which a jump is come upon right before it is made. -/
inductive Announced : Code → Prop where
  | line {acts : List Act} : Announced (.line acts)
  | stop : Announced .stop
  | jump {a : Act} {j : Jump} : a.isJump = true → Announced (.seq (.line [a]) (.jump j))
  | seq {a b : Code} : Announced a → Announced b → Announced (.seq a b)
  | choice {os : List Code} : (∀ x ∈ os, Announced x) → Announced (.choice os)
  | inside {deeper : Bool} {b : Code} : Announced b → Announced (.inside deeper b)
  | loop {skippable : Bool} {head tail : List Act} {b : Code} : Announced b → Announced (.loop skippable head b tail)

def unjumped : Code → Code
  | line acts => line acts
  | stop => stop
  | jump _ => line []
  | seq a b => seq a.unjumped b.unjumped
  | choice os => choice (os.map unjumped)
  | inside deeper b => inside deeper b.unjumped
  | loop skippable head b tail => loop skippable head b.unjumped tail

theorem effect_unjumped (o : Context) (code : Code) : code.unjumped.effect o = code.effect o := by
  induction code with
  | line acts => rw [unjumped]
  | stop => rw [unjumped]
  | jump j => rw [unjumped, effect, effect]; rfl
  | seq a b iha ihb => rw [unjumped, effect, effect, iha, ihb]
  | choice os ih =>
    rw [unjumped, effect, effect, map_map]
    exact congrArg Effect.join (map_congr_left ih)
  | inside deeper b ih => rw [unjumped, effect, effect, ih]
  | loop skippable head b tail ih => rw [unjumped, effect, effect, ih]

theorem nodes_unjumped (code : Code) : code.unjumped.nodes = code.nodes := by
  rw [← code.unjumped.nodes_effect Sample.context, effect_unjumped, nodes_effect]

theorem tame_unjumped {o : Context} {code : Code} (h : code.All (fun _ => True) True (TameLoop o)) :
    code.unjumped.Tame o := by
  induction h with
  | line hacts => rw [unjumped]; exact .line hacts
  | stop => rw [unjumped]; exact .stop
  | jump _ => rw [unjumped]; exact .line fun _ _ => trivial
  | seq _ _ iha ihb => rw [unjumped]; exact .seq iha ihb
  | choice hne _ ih =>
    rw [unjumped]
    refine .choice (by simpa using hne) fun x hx => ?_
    obtain ⟨y, hy, rfl⟩ := mem_map.1 hx
    exact ih y hy
  | inside _ ih => rw [unjumped]; exact .inside ih
  | loop hhead _ htail hloop ih =>
    rw [unjumped]
    refine .loop hhead ih htail ⟨?_, hloop.head⟩
    rw [effect_unjumped]
    exact hloop.settled

end Code

/-- A path that makes no jump is one through the code without its jumps. -/
theorem Path.unjumped {k : Nat} {code : Code} {p : Trail} {e : End} (h : Path k code p e) (ha : code.Announced)
    (hp : p.Straight) : Path k code.unjumped p e ∧ ∀ j, e ≠ .jumped j := by
  induction h with
  | line => exact ⟨by rw [Code.unjumped]; exact .line, fun _ => End.noConfusion⟩
  | stop => exact ⟨by rw [Code.unjumped]; exact .stop, fun _ => End.noConfusion⟩
  | jump => cases ha
  | seq hfirst _ iha ihb =>
    obtain ⟨hp, hq⟩ := Trail.straight_append.1 hp
    cases ha with
    | jump hjump =>
      -- the jump has been come upon
      cases hfirst
      exact absurd (hp _ mem_cons_self) (by simp [hjump])
    | seq ha hb =>
      have hb' := ihb hb hq
      rw [Code.unjumped]
      refine ⟨.seq (iha ha hp).1 ?_, hb'.2⟩
      rw [Code.nodes_unjumped]
      exact hb'.1
  | cut hfirst he ih =>
    cases ha with
    | jump _ =>
      cases hfirst
      exact absurd rfl he
    | seq ha _ => exact ⟨by rw [Code.unjumped]; exact .cut (ih ha hp).1 he, (ih ha hp).2⟩
  | @choice k i os x p e hi _ ih =>
    cases ha with
    | choice hos =>
      have hx := ih (hos x (mem_of_getElem? hi)) hp
      rw [Code.unjumped]
      refine ⟨.choice (i := i) (by rw [getElem?_map, hi]; rfl) ?_, hx.2⟩
      simpa only [← map_take, flatMap_map, Code.nodes_unjumped] using hx.1
  | inside _ ih =>
    cases ha with
    | inside hb => exact ⟨by rw [Code.unjumped]; exact .inside (ih hb hp).1, (ih hb hp).2⟩
  | skip => exact ⟨by rw [Code.unjumped]; exact .skip, fun _ => End.noConfusion⟩
  | @last k head tail b p e _ he ih =>
    cases ha with
    | loop hb =>
      obtain ⟨-, hp⟩ := Trail.straight_append.1 hp
      have hbody := ih hb (Trail.straight_append.1 hp).1
      have hlast := @Path.last _ head tail _ _ _ hbody.1 he
      rw [Code.roundTrail, Code.nodes_unjumped] at hlast
      exact ⟨by rw [Code.unjumped]; exact hlast, fun _ => End.noConfusion⟩
  | @again k skippable head tail b p q e e' _ he _ ihb ihl =>
    have hloop := ihl ha (Trail.straight_append.1 hp).2
    cases ha with
    | loop hb =>
      obtain ⟨-, hround⟩ := Trail.straight_append.1 (Trail.straight_append.1 hp).1
      have hbody := ihb hb (Trail.straight_append.1 hround).1
      rw [Code.unjumped] at hloop ⊢
      have hagain := @Path.again _ _ _ tail _ _ _ _ _ hbody.1 he hloop.1
      rw [Code.roundTrail, Code.nodes_unjumped] at hagain
      exact ⟨hagain, hloop.2⟩
  | leave _ ih =>
    cases ha with
    | loop hb => exact absurd rfl ((ih hb (Trail.straight_append.1 hp).2).2 .leave)
  | ended _ ih =>
    cases ha with
    | loop hb =>
      have hbody := ih hb (Trail.straight_append.1 hp).2
      exact ⟨by rw [Code.unjumped]; exact .ended hbody.1, fun _ => End.noConfusion⟩

namespace Stmt

theorem announced_code (s : Stmt) (chained : Bool) : (code chained s).Announced := by
  refine code_of ⟨.line, .stop, .seq, fun _ => .choice, .inside⟩ s (fun t _ => ?_) chained
  exact ⟨fun _ _ => .line, fun _ hj => .jump hj, fun _ _ _ _ _ _ _ hbody => .loop hbody⟩

/-! ## What is known after a loop -/

variable {s : Stmt} {c : Context}

/-- Two passes are enough for all loops in a statement if no record is assigned to another one and testing conditions
loses nothing. -/
theorem tameLoops (hcopies : ∀ t ∈ s.nested, c.copies t = false)
    (hconditions : ∀ condition inner span, whileDo condition inner span ∈ s.nested →
      ∀ k ∈ condition.calls, c.Idle k ∨ k.method = "get" ∨ k.method = "isempty") :
    (code false s).All (fun _ => True) True (TameLoop c) := by
  refine all_code s (fun t ht => ⟨fun _ _ => trivial, fun _ => trivial, fun skippable head inner tail hl => ?_⟩) false
  have hinner : ∀ u ∈ t.nested, c.copies u = false := fun u hu => hcopies u (nested_trans ht hu)
  exact tameLoop hl hinner fun condition inner span heq => hconditions condition inner span (heq ▸ ht)

/-- **What is known behind a loop accounts for every path that leaves it without a jump**, however often the
path goes round and on whichever branches. -/
theorem cautious_behind (hcopies : ∀ t ∈ s.nested, c.copies t = false)
    (hconditions : ∀ condition inner span, whileDo condition inner span ∈ s.nested →
      ∀ k ∈ condition.calls, c.Idle k ∨ k.method = "get" ∨ k.method = "isempty")
    (hr : c.state.reachable = true) {p : Trail} (hp : Path 0 (code false s) p .on) (hstraight : p.Straight) :
    (s.walk false c).1.state.reachable = true ∧ (s.walk false c).1.state.Cautious (Trail.run c p).state := by
  have hlive := Trail.reachable_run hr p
  have hcovers := (hp.unjumped (announced_code s false) hstraight).1.covers
    (Code.tame_unjumped (tameLoops hcopies hconditions))
  rw [Code.effect_unjumped] at hcovers
  have hless : (s.walk false c).1.state.known ⊆ (Trail.run c p).state.known := by
    rw [walk_eq_walk, ((code false s).follows c).final c rfl, Trail.known_run rfl]
    exact Needs.after_anti (hcovers.final rfl) _
  exact ⟨FlowState.reachable_of_known_subset hlive hless, FlowState.cautious_of_known_subset hlive hless⟩

open Sample

/-- A loop that can be left from within and otherwise ends with a record loaded in part. -/
def leavableLoop : Stmt :=
  .whileDo (.unary .not (method "A" "IsEmpty").toExpr here)
    [.ifThen (var "Done") [.jump .leave here] none here, run "A" "SetLoadFields"] here

/-- Going round once and leaving in front of the body, without the `break`. -/
theorem cautious_behind_leavable :
    (∀ t ∈ leavableLoop.nested, context.copies t = false) ∧
    (∃ p, Path 0 (code false leavableLoop) p .on ∧ p.Straight ∧
      (Trail.run context p).state.loads.get? "a" = some .part) ∧
    (leavableLoop.walk false context).1.state.reachable = true ∧
    (leavableLoop.walk false context).1.state.loads.get? "a" = some .part := by
  have hcopies : ∀ t ∈ leavableLoop.nested, context.copies t = false := by decide
  have hpath : Path 0 (code false leavableLoop) _ .on :=
    .seq .line (.again (.seq (.inside (.seq .line (.choice (i := 1) rfl .line))) (.seq .line .line)) rfl .skip)
  have hconditions : ∀ condition inner span, whileDo condition inner span ∈ leavableLoop.nested →
      ∀ k ∈ condition.calls, context.Idle k ∨ k.method = "get" ∨ k.method = "isempty" := by
    intro condition inner span hmem k hk
    rcases mem_cons.1 hmem with h | h
    · cases h
      obtain rfl := mem_singleton.1 hk
      exact Or.inr (Or.inr rfl)
    · simp [allNested, elseNested, nested, run] at h
  obtain ⟨p, hp, hstraight, hpart⟩ : ∃ p, Path 0 (code false leavableLoop) p .on ∧ p.Straight ∧
      (Trail.run context p).state.loads.get? "a" = some .part := by
    refine ⟨_, hpath, fun a ha => ?_, rfl⟩
    revert a
    rw [← forall_iff_forall_mem]
    decide
  obtain ⟨hlive, hcautious⟩ := cautious_behind hcopies hconditions rfl hp hstraight
  exact ⟨hcopies, ⟨p, hp, hstraight, hpart⟩, hlive, hcautious.part "a" hpart⟩

/-- A loop in which a record is loaded in part where the loop is left from within, and fully where it ends. -/
def breakingLoop : Stmt :=
  .repeatUntil [run "A" "SetLoadFields", .ifThen (var "Done") [.jump .leave here] none here, run "A" "Get"]
    (var "Done") here

/-- A context with one more record. -/
def threeRecords : Context := { context with symbols := ("c", { name := "Record" }) :: context.symbols }

/-- A loop in which a mark takes three rounds to get to `A`. -/
def relayLoop : Stmt :=
  .repeatUntil [.assignment (var "A") .set (var "B") here, .assignment (var "B") .set (var "C") here,
    run "C" "SetLoadFields"] (var "Done") here

/-- A loop whose condition loads a record in part and whose body loads it fully. -/
def loadingCondition : Stmt := .whileDo (method "A" "SetLoadFields").toExpr [run "A" "Get"] here

/-- **What a path knows where it leaves a loop need not get behind the loop**: not if the path leaves with a
`break`, not if a mark has to travel from record to record, and not if testing the condition loads a record. -/
theorem leaving_not_accounted :
    ((∃ p, Path 0 (code false breakingLoop) p .on ∧ (Trail.run context p).state.loads.get? "a" = some .part) ∧
      (breakingLoop.walk false context).1.state.loads.get? "a" = some .full) ∧
    ((∃ p, Path 0 (code false relayLoop) p .on ∧ (Trail.run threeRecords p).state.loads.get? "a" = some .part) ∧
      (relayLoop.walk false threeRecords).1.state.loads.get? "a" = none) ∧
    (∃ p, Path 0 (code false loadingCondition) p .on ∧ (Trail.run context p).state.loads.get? "a" = some .part) ∧
      (loadingCondition.walk false context).1.state.loads.get? "a" = none := by
  have hbreak : Path 0 (code false breakingLoop) _ .on :=
    .seq .line (.leave (.seq .line (.cut (.inside (.seq .line (.choice (i := 0) rfl
      (.cut (.seq .line .jump) End.noConfusion)))) End.noConfusion)))
  -- three rounds
  have hrelay : Path 0 (code false relayLoop) _ .on :=
    .seq .line (.again (.seq .line (.seq .line (.seq .line .line))) rfl
      (.again (.seq .line (.seq .line (.seq .line .line))) rfl
        (.last (.seq .line (.seq .line (.seq .line .line))) rfl)))
  have hskip : Path 0 (code false loadingCondition) _ .on := .seq .line .skip
  exact ⟨⟨⟨_, hbreak, rfl⟩, by decide +kernel⟩, ⟨⟨_, hrelay, rfl⟩, by decide +kernel⟩, ⟨_, hskip, rfl⟩,
    by decide +kernel⟩

end Stmt

end AlLint
