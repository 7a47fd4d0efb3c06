import Mathlib.Data.Set.Finite.Lattice
import Mathlib.Data.Set.Finite.List
import AlLint.Catalog.Performance
import AlLint.Proofs.Flow.Cover

/-!
# Code without loops is analysed exactly

Where there are no loops, an effect says no less than what holds on all paths either: whatever it needs, some
path needs (`Attained`). With `Path.covers` this makes the effect of loop-free code the union of what its paths
need, and so the state at a node the merge of the states with which paths arrive there.

There are finitely many paths (`LoopFree.finite_paths`), so that merge is one that the program itself could have made.
-/

namespace AlLint

open List Trail FlowState

variable {i : Nat} {v : Visit} {s : Sight}

abbrev Code.LoopFree : Code → Prop := Code.Jumpless fun _ _ _ _ => False

namespace Code.LoopFree

variable {code : Code}

theorem tame (o : Context) (h : code.LoopFree) : code.Tame o := by
  induction h with
  | line hacts => exact .line hacts
  | stop => exact .stop
  | jump hno => exact hno.elim
  | seq _ _ iha ihb => exact .seq iha ihb
  | choice hne _ ih => exact .choice hne ih
  | inside _ ih => exact .inside ih
  | loop _ _ _ hloop => exact hloop.elim

theorem exists_path (h : code.LoopFree) (k : Nat) : ∃ p e, Path k code p e := by
  induction h generalizing k with
  | line _ => exact ⟨_, _, .line⟩
  | stop => exact ⟨_, _, .stop⟩
  | jump hno => exact hno.elim
  | @seq a b _ _ iha ihb =>
    obtain ⟨p, e, hp⟩ := iha k
    by_cases he : e = .on
    · subst he
      obtain ⟨q, e', hq⟩ := ihb (k + a.nodes.length)
      exact ⟨_, _, .seq hp hq⟩
    · exact ⟨p, e, .cut hp he⟩
  | @choice os hne _ ih =>
    obtain ⟨x, rest, rfl⟩ := exists_cons_of_ne_nil hne
    obtain ⟨p, e, hp⟩ := ih x mem_cons_self k
    exact ⟨p, e, .choice (i := 0) rfl hp⟩
  | inside _ ih =>
    obtain ⟨p, e, hp⟩ := ih k
    exact ⟨p, e, .inside hp⟩
  | loop _ _ _ hloop => exact hloop.elim

/-- The paths through some code, with how they end. -/
abbrev pathsOf (k : Nat) (code : Code) : Set (Trail × End) := {x | Path k code x.1 x.2}

theorem finite_paths (h : code.LoopFree) (k : Nat) : (pathsOf k code).Finite := by
  induction h generalizing k with
  | @line acts _ =>
    refine (Set.finite_singleton (Act.trail k acts, End.on)).subset ?_
    rintro ⟨p, e⟩ hp
    cases hp
    rfl
  | stop =>
    refine (Set.finite_singleton (([], .ended) : Trail × End)).subset ?_
    rintro ⟨p, e⟩ hp
    cases hp
    rfl
  | jump hno => exact hno.elim
  | @seq a b _ _ iha ihb =>
    -- either both parts are gone through, or the first only
    have hboth := Set.Finite.image2 (fun x y : Trail × End => (x.1 ++ y.1, y.2)) (iha k) (ihb (k + a.nodes.length))
    refine (hboth.union (iha k)).subset ?_
    rintro ⟨p, e⟩ hp
    cases hp with
    | seq hp hq => exact Or.inl ⟨(_, .on), hp, (_, e), hq, rfl⟩
    | cut hp _ => exact Or.inr hp
  | @choice os _ _ ih =>
    have hall : ∀ i ∈ {i | i < os.length},
        {x : Trail × End | ∃ o, os[i]? = some o ∧
          x ∈ pathsOf (k + ((os.take i).flatMap Code.nodes).length) o}.Finite := by
      intro i hi
      refine (ih os[i] (getElem_mem hi) (k + ((os.take i).flatMap Code.nodes).length)).subset ?_
      rintro x ⟨o, ho, hx⟩
      rw [getElem?_eq_getElem hi] at ho
      rw [Option.some.inj ho]
      exact hx
    refine ((Set.finite_lt_nat os.length).biUnion hall).subset ?_
    rintro ⟨p, e⟩ hp
    cases hp with
    | @choice _ i _ x _ _ hi hp =>
      have hlt : i < os.length := (List.getElem?_eq_some_iff.1 hi).1
      exact Set.mem_biUnion hlt ⟨x, hi, hp⟩
  | inside _ ih =>
    refine (ih k).subset ?_
    rintro ⟨p, e⟩ hp
    cases hp with
    | inside hp => exact hp
  | loop _ _ _ hloop => exact hloop.elim

end Code.LoopFree

/-! ## What an effect needs, some path needs -/

/-- Whatever the effect of some code needs, at its end or at a node, some path through the code needs. -/
structure Attained (o : Context) (k : Nat) (code : Code) : Prop where
  final : ∀ f g, g ∈ (code.effect o).final f → ∃ p, Path k code p .on ∧ g ∈ p.needs o f
  seen : ∀ i v, (code.effect o).seen[i]? = some v → ∀ f g, g ∈ v.needs f →
    ∃ p e q, Path k code p e ∧ p.Reaches (k + i) v.node q ∧ g ∈ q.needs o f

/-- A node of straight code is come upon on its trail, and needs there what the trail needs up to it. -/
theorem Act.reaches_trail {o : Context} {acts : List Act}
    (h : (Effect.line o acts).seen[i]? = some v) (k : Nat) :
    ∃ q, (Act.trail k acts).Reaches (k + i) v.node q ∧ q.needs o = v.needs := by
  induction acts generalizing i v k with
  | nil => simp [Effect.line] at h
  | cons a rest ih =>
    have hnodes := Effect.length_act o a
    rw [Effect.line, Effect.andThen] at h
    by_cases hi : i < (Effect.act o a).seen.length
    · -- the act itself is the node
      rw [getElem?_append_left hi] at h
      cases a with
      | see n =>
        obtain rfl : i = 0 := by
          have : i < 1 := hi
          omega
        obtain rfl : (⟨n, 0, 0, .keep⟩ : Visit) = v := Option.some.inj h
        exact ⟨[], ⟨Act.trail _ rest, rfl⟩, rfl⟩
      | call c => exact absurd hi (Nat.not_lt_zero i)
      | assign target op value => exact absurd hi (Nat.not_lt_zero i)
    · rw [getElem?_append_right (by omega), getElem?_map] at h
      obtain ⟨u, hu, rfl⟩ := Option.map_eq_some_iff.1 h
      obtain ⟨q, hq, hneeds⟩ := ih hu (k + (Act.nodes [a]).length)
      refine ⟨(k, a) :: q, ?_, ?_⟩
      · have hq' := hq.append_left [(k, a)]
        rw [show k + (Act.nodes [a]).length + (i - (Effect.act o a).seen.length) = k + i by omega] at hq'
        exact hq'
      · rw [Trail.needs, hneeds]
        rfl

theorem exists_getElem?_of_flatMap {α β : Type} {φ : α → List β} {os : List α} {m : Nat} {y : β}
    (h : (os.flatMap φ)[m]? = some y) :
    ∃ i x j, os[i]? = some x ∧ (φ x)[j]? = some y ∧ m = ((os.take i).flatMap φ).length + j := by
  induction os generalizing m with
  | nil => simp at h
  | cons x rest ih =>
    rw [flatMap_cons] at h
    by_cases hm : m < (φ x).length
    · rw [getElem?_append_left hm] at h
      exact ⟨0, x, m, rfl, h, by simp⟩
    · rw [getElem?_append_right (by omega)] at h
      obtain ⟨i, z, j, hi, hj, hm'⟩ := ih h
      refine ⟨i + 1, z, j, hi, hj, ?_⟩
      rw [take_succ_cons, flatMap_cons, length_append]
      omega

namespace Attained

variable {o : Context} {k : Nat} {a b : Code}

theorem line (acts : List Act) : Attained o k (.line acts) where
  final f g hg := by
    rw [Code.effect, ← Act.needs_trail o k] at hg
    exact ⟨_, .line, hg⟩
  seen i v hv f g hg := by
    rw [Code.effect] at hv
    obtain ⟨q, hq, hneeds⟩ := Act.reaches_trail hv k
    rw [← hneeds] at hg
    exact ⟨_, _, q, .line, hq, hg⟩

theorem stop : Attained o k .stop where
  final f g hg := by
    rw [Code.effect] at hg
    exact absurd hg (Set.notMem_empty g)
  seen i v hv := by
    rw [Code.effect] at hv
    simp at hv

theorem seq (ha : Attained o k a) (hb : Attained o (k + a.nodes.length) b)
    (hpath : ∃ p e, Path (k + a.nodes.length) b p e) : Attained o k (.seq a b) where
  final f g hg := by
    rw [Code.effect] at hg
    obtain ⟨h, hh, hg⟩ := hg
    obtain ⟨p, hp, hpg⟩ := ha.final h g hg
    obtain ⟨q, hq, hqh⟩ := hb.final f h hh
    refine ⟨p ++ q, .seq hp hq, ?_⟩
    rw [needs_append]
    exact ⟨h, hqh, hpg⟩
  seen i v hv f g hg := by
    have hlength := a.length_seen o
    rw [Code.effect, Effect.andThen] at hv
    by_cases hi : i < (a.effect o).seen.length
    · -- a node of the first part, on a path that may or may not go on
      rw [getElem?_append_left hi] at hv
      obtain ⟨p, e, q, hp, hq, hqg⟩ := ha.seen i v hv f g hg
      by_cases he : e = .on
      · subst he
        obtain ⟨p', e', hp'⟩ := hpath
        exact ⟨p ++ p', e', q, .seq hp hp', hq.append_right p', hqg⟩
      · exact ⟨p, e, q, .cut hp he, hq, hqg⟩
    · rw [getElem?_append_right (by omega), getElem?_map] at hv
      obtain ⟨u, hu, rfl⟩ := Option.map_eq_some_iff.1 hv
      obtain ⟨h, hh, hg⟩ := hg
      obtain ⟨p, hp, hpg⟩ := ha.final h g hg
      obtain ⟨p', e', q, hp', hq, hqh⟩ := hb.seen _ u hu f h hh
      refine ⟨p ++ p', e', p ++ q, .seq hp hp', ?_, ?_⟩
      · have hq' := hq.append_left p
        rw [show k + a.nodes.length + (i - (a.effect o).seen.length) = k + i by omega] at hq'
        exact hq'
      · rw [needs_append]
        exact ⟨h, hqh, hpg⟩

theorem choice {os : List Code} (h : ∀ x ∈ os, ∀ k, Attained o k x) : Attained o k (.choice os) where
  final f g hg := by
    rw [Code.effect] at hg
    obtain ⟨E, hE, hg⟩ := hg
    obtain ⟨x, hx, rfl⟩ := mem_map.1 hE
    obtain ⟨i, hi, rfl⟩ := mem_iff_getElem.1 hx
    obtain ⟨p, hp, hpg⟩ := (h _ hx _).final f g hg
    exact ⟨p, .choice (getElem?_eq_getElem hi) hp, hpg⟩
  seen m v hv f g hg := by
    rw [Code.effect, Effect.join, flatMap_map] at hv
    obtain ⟨i, x, j, hi, hj, rfl⟩ := exists_getElem?_of_flatMap hv
    have hbefore : ((os.take i).flatMap fun x => (x.effect o).seen).length =
        ((os.take i).flatMap Code.nodes).length := by
      simp only [length_flatMap, Code.length_seen]
    obtain ⟨p, e, q, hp, hq, hqg⟩ :=
      (h x (mem_of_getElem? hi) (k + ((os.take i).flatMap Code.nodes).length)).seen j v hj f g hg
    refine ⟨p, e, q, .choice hi hp, ?_, hqg⟩
    rwa [hbefore, ← Nat.add_assoc]

theorem inside {deeper : Bool} (hb : Attained o k b) : Attained o k (.inside deeper b) where
  final f g hg := by
    rw [Code.effect] at hg
    obtain ⟨p, hp, hpg⟩ := hb.final f g hg
    exact ⟨p, .inside hp, hpg⟩
  seen i v hv f g hg := by
    rw [Code.effect, Effect.inside, getElem?_map] at hv
    obtain ⟨u, hu, rfl⟩ := Option.map_eq_some_iff.1 hv
    obtain ⟨p, e, q, hp, hq, hqg⟩ := hb.seen i u hu f g hg
    exact ⟨p, e, q, .inside hp, hq, hqg⟩

end Attained

/-- **The effect of loop-free code needs nothing that no path needs.** -/
theorem Code.LoopFree.attained {code : Code} (h : code.LoopFree) (o : Context) (k : Nat) : Attained o k code := by
  induction h generalizing k with
  | line _ => exact .line _
  | stop => exact .stop
  | jump hno => exact hno.elim
  | seq _ hb iha ihb => exact (iha k).seq (ihb _) (Code.LoopFree.exists_path hb _)
  | choice _ _ ih => exact .choice ih
  | inside _ ih => exact (ih k).inside
  | loop _ _ _ hloop => exact hloop.elim

/-! ## Bodies without loops -/

namespace Code.LoopFree

variable {code : Code} {o : Context}

/-- What is known at a node of loop-free code is what is known there on every path that comes upon it. -/
theorem mem_after_seen (h : code.LoopFree) (hv : (code.effect o).seen[i]? = some v)
    (K : Set Fact) (f : Fact) :
    f ∈ v.needs.after K ↔ ∀ p e q, Path 0 code p e → p.Reaches i v.node q → f ∈ (q.needs o).after K := by
  constructor
  · -- no path needs more than the effect does
    intro hf p e q hp hq
    obtain ⟨j, u, hj, hu, -, hneeds⟩ := (hp.covers (tame o h)).seen i v.node q hq
    rw [Nat.zero_add] at hj
    subst hj
    rw [hv] at hu
    rw [← Option.some.inj hu] at hneeds
    exact (hneeds f).trans hf
  · -- whatever the effect needs, some path needs
    intro hall g hg
    obtain ⟨p, e, q, hp, hq, hqg⟩ := (attained h o 0).seen i v hv f g hg
    rw [Nat.zero_add] at hq
    exact hall p e q hp hq hqg

/-- What is known behind loop-free code is what is known there on every path that gets behind it. -/
theorem mem_after_final (h : code.LoopFree) (K : Set Fact) (f : Fact) :
    f ∈ (code.effect o).final.after K ↔ ∀ p, Path 0 code p .on → f ∈ (p.needs o).after K := by
  constructor
  · intro hf p hp
    exact ((hp.covers (tame o h)).final rfl f).trans hf
  · intro hall g hg
    obtain ⟨p, hp, hpg⟩ := (attained h o 0).final f g hg
    exact hall p hp hpg

end Code.LoopFree

namespace Stmt

variable {body : List Stmt} {c : Context}

def LoopFree (body : List Stmt) : Prop := ∀ s ∈ allNested body, s.isLoop = false ∧ s.isJump = false

instance (body : List Stmt) : Decidable (LoopFree body) :=
  inferInstanceAs (Decidable (∀ s ∈ allNested body, s.isLoop = false ∧ s.isJump = false))

theorem LoopFree.codeAll (h : LoopFree body) : (codeAll body).LoopFree := by
  refine all_codeAll fun s hs => ⟨fun _ _ => trivial, fun hj => ?_, fun skippable head inner tail hl => ?_⟩
  · rw [(h s hs).2] at hj
    exact Bool.noConfusion hj
  · have hloop := (h s hs).1
    cases s <;> simp [loop?, isLoop] at hl hloop

theorem LoopFree.finite_arrives (h : LoopFree body) (k : Nat) (n : Node) :
    {t | Arrives body c k n t}.Finite := by
  -- a state on the way is that at the end of some first part of a path
  have hparts : ∀ x ∈ Code.LoopFree.pathsOf 0 (Stmt.codeAll body),
      ((fun q => (Trail.run c q).state) '' {q | q ∈ x.1.inits}).Finite :=
    fun x _ => (finite_toSet x.1.inits).image _
  refine ((Code.LoopFree.finite_paths h.codeAll 0).biUnion hparts).subset ?_
  rintro t ⟨p, e, q, hp, ⟨r, hr⟩, rfl⟩
  refine Set.mem_biUnion (show (p, e) ∈ _ from hp) ⟨q, ?_, rfl⟩
  exact (mem_inits q p).2 ⟨_, hr.symm⟩

theorem LoopFree.finite_leaves (h : LoopFree body) : {t | Leaves body c t}.Finite := by
  refine ((Code.LoopFree.finite_paths h.codeAll 0).image fun x => (Trail.run c x.1).state).subset ?_
  rintro t ⟨p, hp, rfl⟩
  exact ⟨(p, .on), hp, rfl⟩

theorem plain_of_mem_walkAll (hp : c.state.Plain) {k : Nat}
    (hs : (actives (walkAll body c).2)[k]? = some s) : s.context.state.Plain := by
  have hmem : s ∈ (walkAll body c).2 := (mem_filter.1 (mem_of_getElem? hs)).1
  rw [walkAll_eq_walk] at hmem
  exact (((codeAll body).follows c).plain c hp).2 s hmem

/-- The state at a node of a body without loops is the merge over the paths that come upon it. -/
theorem LoopFree.mergeOf_arrives (h : LoopFree body) (hc : c.silent = 0) (hr : c.state.reachable = true)
    (hp : c.state.Plain) {k : Nat} (hs : (actives (walkAll body c).2)[k]? = some s) :
    s.context.state.MergeOf (Arrives body c k s.node) := by
  obtain ⟨v, hv, hnode, hknown⟩ := exists_visit hc hs
  refine mergeOf_of_known (h.finite_arrives k s.node) (plain_of_mem_walkAll hp hs) (fun _ ht => ht.plain hp)
    (fun _ ht => ht.reachable hr) fun f => ?_
  rw [hknown, Code.LoopFree.mem_after_seen h.codeAll hv, hnode]
  constructor
  · rintro hall t ⟨p, e, q, hpath, hq, rfl⟩
    rw [known_run rfl]
    exact hall p e q hpath hq
  · intro hall p e q hpath hq
    rw [← known_run rfl]
    exact hall _ ⟨p, e, q, hpath, hq, rfl⟩

/-- The state behind a body without loops is the merge over the paths that get there. -/
theorem LoopFree.mergeOf_leaves (h : LoopFree body) (hr : c.state.reachable = true) (hp : c.state.Plain) :
    (walkAll body c).1.state.MergeOf (Leaves body c) := by
  have hplain : (walkAll body c).1.state.Plain := by
    rw [walkAll_eq_walk]
    exact (((Stmt.codeAll body).follows c).plain c hp).1
  refine mergeOf_of_known h.finite_leaves hplain (fun _ ht => ht.plain hp) (fun _ ht => ht.reachable hr)
    fun f => ?_
  rw [known_walkAll, Code.LoopFree.mem_after_final h.codeAll]
  constructor
  · rintro hall t ⟨p, hpath, rfl⟩
    rw [known_run rfl]
    exact hall p hpath
  · intro hall p hpath
    rw [← known_run rfl]
    exact hall _ ⟨p, hpath, rfl⟩

end Stmt

/-! ## Writes of records that are loaded in part -/

def Call.writes (call : Call) : Bool :=
  ["insert", "modify", "delete", "rename", "transferfields"].contains call.method

/-- A record is called partial exactly if it cannot be ruled out that it is loaded in part. -/
theorem Context.loadLabel_eq_part_iff {t : FlowState} (hr : t.reachable = true) (hp : t.Plain) (name : String) :
    loadLabel t name = Load.part.label ↔ Fact.whole (Text.lower name) ∉ t.known := by
  rw [mem_known_of_reachable hr, loadLabel]
  simp only [Fact.In]
  cases hl : t.loads.get? (Text.lower name) with
  | none => simp [Load.label, Load.unknownLabel]
  | some l => rcases hp _ l hl with rfl | rfl <;> simp [Load.label]

/-- The rule reports a write exactly if the record is called partial where it looks. -/
theorem Catalog.partialWrite_reported {file : SourceFile} {call : Call} {record : String}
    (hn : s.node = .expr call.toExpr) (hw : call.writes = true)
    (hrec : s.context.recordReceiver? call = some record) :
    (partialLoadWriteConflict.check file s).findings ≠ [] ↔ s.context.load record = Load.part.label := by
  have hfind : (partialLoadWriteConflict.check file s).findings = partialWrite s.context call := by
    simp only [partialLoadWriteConflict, onCall, hn]
    rfl
  rw [Call.writes] at hw
  rw [hfind, partialWrite, if_pos hw, hrec]
  by_cases h : s.context.load record = Load.part.label <;> simp [h]

namespace Stmt

/-- **A body without loops is analysed exactly.** Where rules look, and behind the body, the state is reached
exactly if some path gets there, and is then the merge of the states of all paths that do. So a write of a
record that is loaded in part is reported where some path comes with it, and besides, where no path comes, if
the record was so marked before. -/
theorem merge_over_paths {body : List Stmt} (hbody : LoopFree body) {c : Context} (hc : c.silent = 0)
    (hr : c.state.reachable = true) (hp : c.state.Plain) :
    (∀ k s, (actives (walkAll body c).2)[k]? = some s →
      s.context.state.MergeOf (Arrives body c k s.node) ∧
      ∀ file call record, s.node = .expr call.toExpr → call.writes = true →
        s.context.recordReceiver? call = some record →
        ((Catalog.partialLoadWriteConflict.check file s).findings ≠ [] ↔
          (∃ t, Arrives body c k s.node t ∧ Context.loadLabel t record = Load.part.label) ∨
          (¬ ∃ t, Arrives body c k s.node t) ∧ s.context.load record = Load.part.label)) ∧
    (walkAll body c).1.state.MergeOf (Leaves body c) := by
  refine ⟨fun k s hs => ?_, hbody.mergeOf_leaves hr hp⟩
  have hmerge := hbody.mergeOf_arrives hc hr hp hs
  refine ⟨hmerge, fun file call record hn hw hrec => ?_⟩
  rw [Catalog.partialWrite_reported hn hw hrec]
  by_cases hlive : s.context.state.reachable = true
  · have hsome := hmerge.reachable.1 hlive
    have hlabel : s.context.load record = Load.part.label ↔
        ∃ t, Arrives body c k s.node t ∧ Context.loadLabel t record = Load.part.label := by
      rw [Context.load, Context.loadLabel_eq_part_iff hlive (plain_of_mem_walkAll hp hs),
        hmerge.notMem_known hlive]
      refine exists_congr fun t => and_congr_right fun ht => ?_
      exact (Context.loadLabel_eq_part_iff (ht.reachable hr) (ht.plain hp) record).symm
    rw [hlabel]
    exact ⟨Or.inl, fun h => h.elim id fun h => absurd hsome h.1⟩
  · -- no path comes here, and the rule looks all the same
    have hnone : ¬ ∃ t, Arrives body c k s.node t := fun h => hlive (hmerge.reachable.2 h)
    refine ⟨fun h => Or.inr ⟨hnone, h⟩, fun h => h.elim (fun h => ?_) And.right⟩
    obtain ⟨t, ht, _⟩ := h
    exact absurd ⟨t, ht⟩ hnone

open Sample

/-- A record that is loaded in part on one of two paths. -/
def partOnOnePath : List Stmt :=
  [.ifThen (method "A" "IsEmpty").toExpr [run "A" "SetLoadFields"] (some [run "A" "Get"]) here, run "A" "Modify"]

/-- Where the paths meet again, the write is reported, and a path comes there with the record loaded in part. -/
theorem merge_over_two_paths :
    LoopFree partOnOnePath ∧ context.silent = 0 ∧ context.state.reachable = true ∧ context.state.Plain ∧
      (walkAll partOnOnePath context).1.state.MergeOf (Leaves partOnOnePath context) ∧
      ∃ t, Arrives partOnOnePath context 11 (.expr (method "A" "Modify").toExpr) t ∧
        Context.loadLabel t "a" = Load.part.label := by
  have hfree : LoopFree partOnOnePath := by decide
  have hexact := merge_over_paths hfree (c := context) rfl rfl plain_fresh
  refine ⟨hfree, rfl, rfl, plain_fresh, hexact.2, ?_⟩
  have hlast : 11 < (actives (walkAll partOnOnePath context).2).length := by decide
  obtain ⟨hmerge, hrule⟩ := hexact.1 11 _ (getElem?_eq_getElem hlast)
  have hreported := (hrule ⟨"", "", [], []⟩ (method "A" "Modify") "a" rfl rfl rfl).1 (cons_ne_nil _ _)
  rcases hreported with harrives | ⟨hnone, _⟩
  · exact harrives
  · exact absurd (hmerge.reachable.1 rfl) hnone

/-- Rules look where no path comes, too. Here the write is behind an `exit`. -/
def writeBehindExit : List Stmt := [run "A" "SetLoadFields", .exit none here, run "A" "Modify"]

/-- **A write that no path reaches is reported as well**, and a mark of some other name is lost in a merge of
one state. -/
theorem unreached_write_reported :
    (∃ k s, (actives (walkAll writeBehindExit context).2)[k]? = some s ∧
      (∀ file, (Catalog.partialLoadWriteConflict.check file s).findings ≠ []) ∧
      ¬ ∃ t, Arrives writeBehindExit context k s.node t) ∧
    ∃ c : Context, c.silent = 0 ∧ c.state.reachable = true ∧ ¬ (walkAll [] c).1.state.MergeOf (Leaves [] c) := by
  constructor
  · have hfree : LoopFree writeBehindExit := by decide
    have hlast : 6 < (actives (walkAll writeBehindExit context).2).length := by decide
    have hsight := getElem?_eq_getElem hlast
    refine ⟨6, _, hsight, fun file => ?_, fun hsome => ?_⟩
    · exact cons_ne_nil _ _
    · have hlive := (hfree.mergeOf_arrives (c := context) rfl rfl plain_fresh hsight).reachable.2 hsome
      exact Bool.noConfusion hlive
  · -- the state behind an empty body is the state before it, and no merge has such a mark
    let odd : FlowState := { loads := [("a", .other "read")] }
    refine ⟨context.withState odd, rfl, rfl, fun hmerge => ?_⟩
    obtain ⟨ts, _, hsame⟩ := hmerge.merge rfl
    have hplain : (FlowState.merge ts).Plain := plain_merge_of_reachable hsame.reachable.symm
    rcases hplain "a" (.other "read") ((hsame.loads "a").symm) with h | h
    · exact Load.noConfusion h
    · exact Load.noConfusion h

end Stmt

end AlLint
