import AlLint.Proofs.Flow.Fact

/-!
# Merging as a meet

States are ordered by how much they promise: a record promises least if it is loaded in part and most if it is
loaded fully, a test for emptiness is a promise, and so is it that nothing was committed. In this order the
merge of states is the greatest lower bound of those that are reached (`merge_is_meet`). An order between states
is an inclusion between the facts that can be read off them (`below_iff`), and the merge has the facts that all
states have, so nothing is left to compute.
-/

namespace AlLint

variable {xs ys : List FlowState}

/-- How much a mark promises. No mark, or one of another name, promises nothing either way. -/
def Load.rank : Option Load → Nat
  | some part => 0
  | some full => 2
  | _ => 1

theorem Load.rank_le_iff {a b : Option Load} :
    rank a ≤ rank b ↔ (b = some part → a = some part) ∧ (a = some full → b = some full) := by
  rcases a with _ | _ | _ | _ <;> rcases b with _ | _ | _ | _ <;> simp [rank]

namespace FlowState

/-- A state promises no more than another one. Whether the places are reached does not matter. -/
structure Below (s t : FlowState) : Prop where
  loads : ∀ r, Load.rank (s.loads.get? r) ≤ Load.rank (t.loads.get? r)
  checked : ∀ r ∈ s.checked, r ∈ t.checked
  commit : t.commit = true → s.commit = true

/-- A state promises no more than another one exactly if all that can be read off it can be read off the other. -/
theorem below_iff {s t : FlowState} : s.Below t ↔ ∀ f : Fact, f.In s → f.In t := by
  constructor
  · intro h f hf
    cases f with
    | unreached => exact hf
    | whole r =>
      intro hpart
      exact hf ((Load.rank_le_iff.1 (h.loads r)).1 hpart)
    | full r => exact (Load.rank_le_iff.1 (h.loads r)).2 hf
    | checked r => exact h.checked r hf
    | uncommitted =>
      refine Bool.eq_false_iff.2 fun hcommit => ?_
      rw [Fact.In, h.commit hcommit] at hf
      cases hf
  · intro h
    refine ⟨fun r => Load.rank_le_iff.2 ⟨fun hpart => ?_, h (.full r)⟩, fun r => h (.checked r), fun hcommit => ?_⟩
    · by_contra hwhole
      exact h (.whole r) hwhole hpart
    · by_contra hfree
      have hfree := h .uncommitted (Bool.eq_false_iff.2 hfree)
      rw [Fact.In, hcommit] at hfree
      cases hfree

theorem reachable_merge_iff :
    (merge xs).reachable = true ↔ ∃ s ∈ xs, s.reachable = true := by
  have hunreached : (merge xs).reachable = false ↔ ∀ s ∈ xs, s.reachable = false := by
    rw [← unreached_mem_known, mem_known_merge]
    exact forall₂_congr fun s _ => unreached_mem_known
  rw [← Bool.not_eq_false, hunreached]
  simp only [not_forall, Bool.not_eq_false, exists_prop]

/-- What can be read off a merge that is reached can be read off all states that are reached. -/
theorem in_merge_iff (h : (merge xs).reachable = true) {f : Fact} :
    f.In (merge xs) ↔ ∀ s ∈ xs, s.reachable = true → f.In s := by
  rw [← mem_known_of_reachable h, mem_known_merge]
  refine forall₂_congr fun s _ => ?_
  rw [mem_known, ← Bool.not_eq_true, or_iff_not_imp_left, not_not]

/-- Merges with the same facts say the same, if they are reached. -/
theorem same_merge (hx : (merge xs).reachable = true)
    (h : (merge xs).known = (merge ys).known) : (merge xs).Same (merge ys) := by
  have hy := reachable_of_known_subset hx h.symm.subset
  exact same_of_known hx (plain_merge_of_reachable hx) (plain_merge_of_reachable hy) h

theorem known_merge_subset
    (h : ∀ t ∈ ys, t.reachable = true → ∃ s ∈ xs, t.Same s) : (merge xs).known ⊆ (merge ys).known := by
  intro f hf
  rw [mem_known_merge] at hf ⊢
  intro t ht
  by_cases hr : t.reachable = true
  · obtain ⟨s, hs, hsame⟩ := h t ht hr
    rw [known_of_same hsame]
    exact hf s hs
  · exact Or.inl (Bool.eq_false_iff.2 hr)

theorem merge_of_unreached (h : (merge xs).reachable = false) :
    merge xs = { xs.headD {} with reachable := false } := by
  unfold merge at h ⊢
  split at h
  · rfl
  · cases h

theorem same_merge_append (hx : xs ≠ []) :
    (merge [merge xs, merge ys]).Same (merge (xs ++ ys)) := by
  have hknown : (merge [merge xs, merge ys]).known = (merge (xs ++ ys)).known := by
    ext f
    rw [known_merge_pair, Set.mem_inter_iff, mem_known_merge, mem_known_merge, mem_known_merge,
      List.forall_mem_append]
  by_cases hr : (merge [merge xs, merge ys]).reachable = true
  · exact same_merge hr hknown
  · -- no path arrives, so on both sides the first state of all is kept
    have hpair : (merge [merge xs, merge ys]).reachable = false := Bool.eq_false_iff.2 hr
    have hunreached := unreached_mem_known.2 hpair
    have hall : (merge (xs ++ ys)).reachable = false := unreached_mem_known.1 (hknown ▸ hunreached)
    have hleft : (merge xs).reachable = false := by
      rw [known_merge_pair] at hunreached
      exact unreached_mem_known.1 hunreached.1
    obtain ⟨s, rest, rfl⟩ := List.exists_cons_of_ne_nil hx
    rw [merge_of_unreached hpair, List.headD_cons, merge_of_unreached hleft, merge_of_unreached hall]
    exact ⟨fun _ => rfl, fun _ => Iff.rfl, rfl, rfl⟩

/-- **Merging is taking the meet.** If a state is reached, so is the merge; it promises no more than any state
that is reached, and at least what any state promises that does so too. The states that are reached decide it,
in any order and however often they come. Merging in two parts is merging at once, whatever is reached, and
where nothing is reached the merge is not. -/
theorem merge_is_meet :
    (∀ xs : List FlowState, (∃ s ∈ xs, s.reachable = true) →
      (merge xs).reachable = true ∧
      (∀ s ∈ xs, s.reachable = true → (merge xs).Below s) ∧
      (∀ t : FlowState, (∀ s ∈ xs, s.reachable = true → t.Below s) → t.Below (merge xs)) ∧
      ∀ ys : List FlowState, (∀ s ∈ xs, s.reachable = true → ∃ t ∈ ys, s.Same t) →
        (∀ t ∈ ys, t.reachable = true → ∃ s ∈ xs, t.Same s) → (merge xs).Same (merge ys)) ∧
    (∀ xs ys : List FlowState, xs ≠ [] → (merge [merge xs, merge ys]).Same (merge (xs ++ ys))) ∧
    ∀ xs : List FlowState, (∀ s ∈ xs, s.reachable = false) → (merge xs).reachable = false := by
  refine ⟨fun xs hx => ?_, fun xs ys => same_merge_append, fun xs hnone => ?_⟩
  · have hr := reachable_merge_iff.2 hx
    refine ⟨hr, fun s hs hlive => below_iff.2 fun f hf => (in_merge_iff hr).1 hf s hs hlive, fun t ht => ?_, ?_⟩
    · refine below_iff.2 fun f hf => (in_merge_iff hr).2 fun s hs hlive => ?_
      exact below_iff.1 (ht s hs hlive) f hf
    · intro ys hxy hyx
      exact same_merge hr (Set.Subset.antisymm (known_merge_subset hyx) (known_merge_subset hxy))
  · refine Bool.eq_false_iff.2 fun hr => ?_
    obtain ⟨s, hs, hlive⟩ := reachable_merge_iff.1 hr
    rw [hnone s hs] at hlive
    cases hlive

end FlowState

end AlLint
