import Mathlib.Data.Set.Finite.Basic
import Mathlib.Data.Set.Lattice
import AlLint.Proofs.Flow.Code

/-!
# What a state knows

A flow state is worth the facts that can be read off it: this record is not loaded in part, that one is loaded
fully, another was tested for emptiness, nothing was committed yet. Where paths meet, what is known is what is
known on every path (`mem_known_merge`), and a place that no path reaches knows everything, the fact `unreached`
among it. So the pessimistic merge is plain intersection, and unreachable paths need no special case.

States that know the same say the same, as long as their marks are the two that the analysis makes (`same_of_known`).
-/

namespace AlLint

open List

/-- What may be known at a place. `unreached` is known only where no path arrives. -/
inductive Fact where
  | unreached
  | whole (record : String)
  | full (record : String)
  | checked (record : String)
  | uncommitted
deriving DecidableEq

/-- Whether a fact can be read off a state that is reached. -/
def Fact.In (s : FlowState) : Fact → Prop
  | unreached => False
  | whole r => s.loads.get? r ≠ some .part
  | full r => s.loads.get? r = some .full
  | checked r => r ∈ s.checked
  | uncommitted => s.commit = false

namespace FlowState

variable {s t : FlowState} {f : Fact} {live states : List FlowState} {r : String} {S : FlowState → Prop}

def known (s : FlowState) : Set Fact := {f | s.reachable = false ∨ f.In s}

theorem mem_known : f ∈ s.known ↔ s.reachable = false ∨ f.In s := Iff.rfl

theorem mem_known_of_reachable (h : s.reachable = true) : f ∈ s.known ↔ f.In s := by
  rw [mem_known, h]
  exact or_iff_right (by simp)

theorem unreached_mem_known : Fact.unreached ∈ s.known ↔ s.reachable = false := by
  rw [mem_known]
  exact or_iff_left id

theorem known_of_unreachable (h : s.reachable = false) : s.known = Set.univ :=
  Set.eq_univ_of_forall fun _ => Or.inl h

/-! ## Where paths meet -/

theorem mergedLoad_eq_part :
    mergedLoad live r = some .part ↔ ∃ s ∈ live, s.loads.get? r = some .part := by
  unfold mergedLoad
  dsimp only
  split
  · rename_i h
    simpa [eq_comm] using h
  · rename_i h
    constructor
    · intro hm
      split at hm <;> simp at hm
    · intro hs
      exact absurd (by simpa [eq_comm] using hs) h

theorem mergedLoad_eq_full :
    mergedLoad live r = some .full ↔ ∀ s ∈ live, s.loads.get? r = some .full := by
  unfold mergedLoad
  dsimp only
  split
  · rename_i h
    obtain ⟨s, hs, hp⟩ : ∃ s ∈ live, s.loads.get? r = some .part := by simpa [eq_comm] using h
    constructor
    · intro hm
      simp at hm
    · intro hall
      rw [hall s hs] at hp
      simp at hp
  · split
    · rename_i h
      simpa using h
    · rename_i h
      constructor
      · intro hm
        simp at hm
      · intro hall
        exact absurd (by simpa using hall) h

theorem mergedLoad_of_unmarked (hne : live ≠ [])
    (h : ∀ s ∈ live, s.loads.get? r = none) : mergedLoad live r = none := by
  obtain ⟨first, rest, rfl⟩ := exists_cons_of_ne_nil hne
  unfold mergedLoad
  have hpart : ((first :: rest).map (·.loads.get? r)).contains (some .part) = false := by
    rw [contains_eq_mem, decide_eq_false_iff_not]
    intro hm
    obtain ⟨s, hs, he⟩ := mem_map.1 hm
    rw [h s hs] at he
    simp at he
  have hfull : ((first :: rest).map (·.loads.get? r)).all (· == some .full) = false := by
    simp [h first (by simp)]
  simp only [hpart, hfull, Bool.false_eq_true, if_false]

theorem get?_merged (hne : live ≠ []) :
    Keyed.get? ((markedNames live).filterMap fun name => (mergedLoad live name).map (name, ·)) r =
      mergedLoad live r := by
  rw [Keyed.get?_filterMap]
  split
  · rfl
  · rename_i hr
    refine (mergedLoad_of_unmarked hne fun s hs => Keyed.get?_eq_none_of_not_mem_keys fun hk => hr ?_).symm
    rw [markedNames, mem_eraseDups, mem_flatMap]
    exact ⟨s, hs, hk⟩

theorem in_merged {first : FlowState} {rest : List FlowState} :
    f.In { loads := (markedNames (first :: rest)).filterMap fun name =>
             (mergedLoad (first :: rest) name).map (name, ·)
           checked := first.checked.filter fun name => rest.all (·.checked.contains name)
           commit := (first :: rest).any (·.commit)
           reachable := true } ↔ ∀ s ∈ first :: rest, f.In s := by
  have hne : first :: rest ≠ [] := cons_ne_nil _ _
  cases f with
  | unreached => exact ⟨False.elim, fun h => h first mem_cons_self⟩
  | whole r =>
    simp only [Fact.In]
    rw [get?_merged hne, Ne, mergedLoad_eq_part]
    simp only [not_exists, not_and, ne_eq]
  | full r =>
    simp only [Fact.In]
    rw [get?_merged hne, mergedLoad_eq_full]
  | checked r => simp [Fact.In]
  | uncommitted => simp [Fact.In]

/-- **What is known where paths meet is what is known on all of them.** -/
theorem mem_known_merge :
    f ∈ (merge states).known ↔ ∀ s ∈ states, f ∈ s.known := by
  unfold merge
  split
  · rename_i hnone
    -- no path arrives: every state knows everything
    refine iff_of_true (Or.inl rfl) fun s hs => Or.inl ?_
    by_contra hr
    have hmem : s ∈ states.filter (·.reachable) := mem_filter.2 ⟨hs, by simpa using hr⟩
    rw [hnone] at hmem
    exact absurd hmem not_mem_nil
  · rename_i first rest hlive
    rw [mem_known_of_reachable rfl, in_merged, ← hlive]
    constructor
    · intro h s hs
      by_cases hr : s.reachable = true
      · exact Or.inr (h s (mem_filter.2 ⟨hs, hr⟩))
      · exact Or.inl (by simpa using hr)
    · intro h s hs
      obtain ⟨hs, hr⟩ := mem_filter.1 hs
      exact (mem_known_of_reachable hr).1 (h s hs)

theorem known_merge_pair (s t : FlowState) : (merge [s, t]).known = s.known ∩ t.known := by
  ext f
  rw [mem_known_merge]
  simp

/-! ## States that know the same -/

/-- Two states that say the same: how each record is loaded, which ones were tested, whether a commit was seen,
and whether the place is reached. -/
structure Same (s t : FlowState) : Prop where
  loads : ∀ r, s.loads.get? r = t.loads.get? r
  checked : ∀ r, r ∈ s.checked ↔ r ∈ t.checked
  commit : s.commit = t.commit
  reachable : s.reachable = t.reachable

/-- A state in which every mark is one of the two that the analysis makes. -/
def Plain (s : FlowState) : Prop := ∀ r l, s.loads.get? r = some l → l = .full ∨ l = .part

theorem plain_fresh : ({} : FlowState).Plain := by
  intro r l hl
  simp [Keyed.get?] at hl

theorem load_eq_of_known (hs : s.reachable = true) (ht : t.reachable = true)
    (ps : s.Plain) (pt : t.Plain) (h : s.known = t.known) (r : String) :
    s.loads.get? r = t.loads.get? r := by
  -- a plain mark is pinned down by the two facts about its record
  have hfull : s.loads.get? r = some .full ↔ t.loads.get? r = some .full := by
    have := Set.ext_iff.1 h (.full r)
    rwa [mem_known_of_reachable hs, mem_known_of_reachable ht] at this
  have hwhole : s.loads.get? r ≠ some .part ↔ t.loads.get? r ≠ some .part := by
    have := Set.ext_iff.1 h (.whole r)
    rwa [mem_known_of_reachable hs, mem_known_of_reachable ht] at this
  cases hl : s.loads.get? r with
  | none =>
    cases hm : t.loads.get? r with
    | none => rfl
    | some m => rcases pt r m hm with rfl | rfl <;> simp_all
  | some l => rcases ps r l hl with rfl | rfl <;> simp_all

/-- **Plain states that know the same say the same.** -/
theorem same_of_known (hs : s.reachable = true) (ps : s.Plain) (pt : t.Plain)
    (h : s.known = t.known) : s.Same t := by
  have ht : t.reachable = true := by
    by_contra hr
    have hu : Fact.unreached ∈ s.known := h ▸ unreached_mem_known.2 (by simpa using hr)
    rw [unreached_mem_known, hs] at hu
    simp at hu
  refine ⟨load_eq_of_known hs ht ps pt h, fun r => ?_, ?_, hs.trans ht.symm⟩
  · have := Set.ext_iff.1 h (.checked r)
    rwa [mem_known_of_reachable hs, mem_known_of_reachable ht] at this
  · have := Set.ext_iff.1 h .uncommitted
    rw [mem_known_of_reachable hs, mem_known_of_reachable ht] at this
    simp only [Fact.In] at this
    cases hc : s.commit <;> cases hd : t.commit <;> simp_all

theorem known_of_same (h : s.Same t) : s.known = t.known := by
  ext f
  rw [mem_known, mem_known, h.reachable]
  refine or_congr Iff.rfl ?_
  cases f with
  | unreached => exact Iff.rfl
  | whole r => simp only [Fact.In, h.loads]
  | full r => simp only [Fact.In, h.loads]
  | checked r => exact h.checked r
  | uncommitted => simp only [Fact.In, h.commit]

theorem plain_merge_of_reachable (h : (merge states).reachable = true) :
    (merge states).Plain := by
  revert h
  unfold merge
  split
  · intro h
    exact absurd h (by simp)
  · rename_i first rest hlive
    intro _ r l hl
    rw [get?_merged (cons_ne_nil _ _)] at hl
    unfold mergedLoad at hl
    dsimp only at hl
    split at hl
    · exact Or.inr (Option.some.inj hl).symm
    · split at hl
      · exact Or.inl (Option.some.inj hl).symm
      · simp at hl

theorem plain_merge (h : ∀ s ∈ states, s.Plain) : (merge states).Plain := by
  by_cases hr : (merge states).reachable = true
  · exact plain_merge_of_reachable hr
  · revert hr
    unfold merge
    split
    · -- the marks are those of the first state, if there is one
      intro _
      cases states with
      | nil => intro r l hl; simp [Keyed.get?] at hl
      | cons s rest => exact h s mem_cons_self
    · intro hr
      exact absurd rfl hr

/-! ## States that know less -/

/-- A state that is no more optimistic than another one: what is partial there is partial here, and what is
full, tested or free of commits here is so there. -/
structure Cautious (s t : FlowState) : Prop where
  part : ∀ r, t.loads.get? r = some .part → s.loads.get? r = some .part
  full : ∀ r, s.loads.get? r = some .full → t.loads.get? r = some .full
  checked : ∀ r ∈ s.checked, r ∈ t.checked
  commit : t.commit = true → s.commit = true

theorem reachable_of_known_subset (ht : t.reachable = true) (h : s.known ⊆ t.known) :
    s.reachable = true := by
  by_contra hr
  have hu := h (unreached_mem_known.2 (by simpa using hr))
  rw [unreached_mem_known, ht] at hu
  simp at hu

/-- **A state that knows less is no more optimistic.** -/
theorem cautious_of_known_subset (ht : t.reachable = true) (h : s.known ⊆ t.known) :
    s.Cautious t := by
  have hs := reachable_of_known_subset ht h
  have hin : ∀ f : Fact, f.In s → f.In t := fun f hf =>
    (mem_known_of_reachable ht).1 (h ((mem_known_of_reachable hs).2 hf))
  refine ⟨fun r hr => ?_, fun r => hin (.full r), fun r => hin (.checked r), fun hc => ?_⟩
  · by_contra hnot
    exact hin (.whole r) hnot hr
  · by_contra hnot
    have hfree : t.commit = false := hin .uncommitted (Bool.eq_false_of_not_eq_true hnot)
    rw [hc] at hfree
    simp at hfree

/-- Merging a state into another one changes nothing. -/
def Absorbs (e s : FlowState) : Prop := (merge [e, s]).Same e

/-- Merging a state into a merge changes nothing exactly if it knows all that the merge knows. -/
theorem absorbs_merge_iff :
    (merge states).Absorbs s ↔ (merge states).known ⊆ s.known := by
  constructor
  · intro h
    rw [← known_of_same h, known_merge_pair]
    exact Set.inter_subset_right
  · intro h
    have hknown : (merge [merge states, s]).known = (merge states).known := by
      rw [known_merge_pair]
      exact Set.inter_eq_left.2 h
    by_cases hr : (merge states).reachable = true
    · have hlive := reachable_of_known_subset hr hknown.subset
      exact same_of_known hlive (plain_merge_of_reachable hlive) (plain_merge_of_reachable hr) hknown
    · -- no path arrives at either, and the first of them is kept as it is
      have hr : (merge states).reachable = false := by simpa using hr
      have hs : s.reachable = false :=
        unreached_mem_known.1 (h (unreached_mem_known.2 hr))
      have hmerge : merge [merge states, s] = { merge states with reachable := false } := by
        rw [merge]
        simp [hr, hs]
      rw [Absorbs, hmerge]
      exact ⟨fun _ => rfl, fun _ => Iff.rfl, rfl, hr.symm⟩

/-! ## States that stand for many -/

/-- A state stands for the states `S` of the paths that arrive: it is reached exactly if there is one, and then
it is their merge. -/
structure MergeOf (s : FlowState) (S : FlowState → Prop) : Prop where
  reachable : s.reachable = true ↔ ∃ t, S t
  merge : s.reachable = true → ∃ ts : List FlowState, (∀ t, t ∈ ts ↔ S t) ∧ s.Same (FlowState.merge ts)

theorem MergeOf.notMem_known (h : s.MergeOf S) (hr : s.reachable = true)
    (f : Fact) : f ∉ s.known ↔ ∃ t, S t ∧ f ∉ t.known := by
  obtain ⟨ts, hts, hsame⟩ := h.merge hr
  rw [known_of_same hsame, mem_known_merge]
  constructor
  · intro hnot
    obtain ⟨t, ht⟩ := not_forall.1 hnot
    obtain ⟨hmem, hf⟩ := Classical.not_imp.1 ht
    exact ⟨t, (hts t).1 hmem, hf⟩
  · rintro ⟨t, ht, hf⟩ hall
    exact hf (hall t ((hts t).2 ht))

/-- **A state that knows what all the states of finitely many paths know stands for them.** -/
theorem mergeOf_of_known (hfinite : {t | S t}.Finite) (hs : s.Plain)
    (hplain : ∀ t, S t → t.Plain) (hlive : ∀ t, S t → t.reachable = true)
    (hknown : ∀ f, f ∈ s.known ↔ ∀ t, S t → f ∈ t.known) : s.MergeOf S where
  reachable := by
    constructor
    · intro hr
      by_contra hnone
      have hu : Fact.unreached ∈ s.known := (hknown _).2 fun t ht => absurd ⟨t, ht⟩ hnone
      rw [unreached_mem_known, hr] at hu
      simp at hu
    · rintro ⟨t, ht⟩
      by_contra hr
      have hu := (hknown .unreached).1 (unreached_mem_known.2 (by simpa using hr)) t ht
      rw [unreached_mem_known, hlive t ht] at hu
      simp at hu
  merge hr := by
    -- any order of the states will do, since a merge knows what all of them know
    have hmem : ∀ t, t ∈ hfinite.toFinset.toList ↔ S t := fun t => by simp
    refine ⟨hfinite.toFinset.toList, hmem, ?_⟩
    refine same_of_known hr hs (plain_merge fun t ht => hplain t ((hmem t).1 ht)) ?_
    ext f
    rw [mem_known_merge, hknown]
    exact forall_congr' fun t => imp_congr_left (hmem t).symm

end FlowState

end AlLint
