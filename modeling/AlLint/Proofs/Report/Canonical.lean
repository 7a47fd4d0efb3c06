import AlLint.Report.Diagnostic
import Mathlib.Data.List.Nodup

/-!
# What a report comes to

A report is sorted by place, rule and message, and of each place and rule the first diagnostic stays. So its
places and rules stand in strictly increasing order (`pairwise_finalize`) and are those of the diagnostics that
went in (`mem_keys_finalize`); they are the same for any two lists with the same places and rules
(`keys_finalize_eq`).

The order leaves severity and category out, and among equals it is the one that came first that stays. Lists
that are permutations of each other give the same report if whatever the order takes for equal is equal
(`finalize_eq_of_perm`).
-/

namespace AlLint.Diagnostic

open List Std.OrientedCmp

variable {d : Diagnostic} {ds ds' : List Diagnostic} {k : Key}

/-- The rule and the place of a diagnostic, in the order in which a report is sorted. -/
structure Key where
  path : String
  line : Int
  column : Int
  ruleId : String
deriving DecidableEq

/-- The rule and the place of a diagnostic. -/
def key (d : Diagnostic) : Key := ⟨d.path, d.line, d.column, d.ruleId⟩

namespace Key

/-- The order of rules and places: by path, line, column and rule. -/
def order : Key → Key → Ordering :=
  compareLex (compareOn path) (compareLex (compareOn line) (compareLex (compareOn column) (compareOn ruleId)))

instance : Std.TransCmp order := inferInstanceAs (Std.TransCmp (compareLex _ _))

theorem eq_of_order_eq {a b : Key} (h : order a b = .eq) : a = b := by
  simp only [order, compareLex, compareOn, Ordering.then_eq_eq, Std.LawfulEqOrd.compare_eq_iff_eq] at h
  obtain ⟨hpath, hline, hcolumn, hrule⟩ := h
  cases a
  cases b
  simp_all

end Key

instance : Std.TransCmp order :=
  inferInstanceAs (Std.TransCmp (compareLex (compareOn path) (compareLex (compareOn line)
    (compareLex (compareOn column) (compareLex (compareOn ruleId) (compareOn message))))))

/-- Diagnostics are sorted by their keys, and those of one key by their messages. -/
theorem order_eq (a b : Diagnostic) : order a b = (a.key.order b.key).then (compare a.message b.message) := by
  simp only [order, Key.order, compareLex, compareOn, key, Ordering.then_assoc]

theorem sameKey_iff {a b : Diagnostic} : sameKey a b = true ↔ a.key = b.key := by
  simp only [sameKey, key, Bool.and_eq_true, beq_iff_eq, Key.mk.injEq]
  constructor
  · rintro ⟨⟨⟨hrule, hpath⟩, hline⟩, hcolumn⟩
    exact ⟨hpath, hline, hcolumn, hrule⟩
  · rintro ⟨hpath, hline, hcolumn, hrule⟩
    exact ⟨⟨⟨hrule, hpath⟩, hline⟩, hcolumn⟩

theorem any_sameKey_iff {seen : List Diagnostic} :
    seen.any (sameKey d) = true ↔ d.key ∈ seen.map key := by
  simp only [any_eq_true, sameKey_iff, mem_map]
  constructor
  · rintro ⟨e, he, hkey⟩
    exact ⟨e, he, hkey.symm⟩
  · rintro ⟨e, he, hkey⟩
    exact ⟨e, he, hkey.symm⟩

/-! ## Sorting -/

/-- Diagnostics in order, with repetitions. -/
def sorted (ds : List Diagnostic) : List Diagnostic := ds.mergeSort fun a b => (order a b).isLE

theorem finalize_eq (ds : List Diagnostic) : finalize ds = firstOfEach [] (sorted ds) := rfl

theorem sorted_perm (ds : List Diagnostic) : (sorted ds).Perm ds := mergeSort_perm ..

theorem order_trans (a b c : Diagnostic) :
    (order a b).isLE = true → (order b c).isLE = true → (order a c).isLE = true :=
  Std.TransCmp.isLE_trans

theorem order_total (a b : Diagnostic) : ((order a b).isLE || (order b a).isLE) = true := by
  have hswap : order b a = (order a b).swap := eq_swap
  rw [hswap]
  cases order a b <;> rfl

theorem pairwise_sorted (ds : List Diagnostic) : (sorted ds).Pairwise fun a b => (order a b).isLE = true :=
  pairwise_mergeSort order_trans order_total ds

/-- The sorted list depends on the elements only, if no two of them are equal in the order. -/
theorem sorted_eq_of_perm (hperm : ds.Perm ds')
    (heq : ∀ a ∈ ds, ∀ b ∈ ds, order a b = .eq → a = b) : sorted ds = sorted ds' := by
  refine List.Perm.eq_of_pairwise ?_ (pairwise_sorted ds) (pairwise_sorted ds')
    ((sorted_perm ds).trans (hperm.trans (sorted_perm ds').symm))
  intro a b ha hb hab hba
  refine heq a ((sorted_perm ds).mem_iff.1 ha) b ?_ (isLE_antisymm hab hba)
  exact hperm.mem_iff.2 ((sorted_perm ds').mem_iff.1 hb)

/-- **The order in which diagnostics come does not matter, if no two of them are equal in the order.** -/
theorem finalize_eq_of_perm (hperm : ds.Perm ds')
    (heq : ∀ a ∈ ds, ∀ b ∈ ds, order a b = .eq → a = b) : finalize ds = finalize ds' := by
  rw [finalize_eq, finalize_eq, sorted_eq_of_perm hperm heq]

/-! ## The first of each key -/

theorem firstOfEach_sublist (seen ds : List Diagnostic) : (firstOfEach seen ds).Sublist ds := by
  induction ds generalizing seen with
  | nil => exact List.Sublist.slnil
  | cons d ds ih =>
    rw [firstOfEach]
    split
    · exact (ih seen).cons d
    · exact (ih (d :: seen)).cons_cons d

theorem key_not_mem_of_mem_firstOfEach {seen : List Diagnostic} (h : d ∈ firstOfEach seen ds) :
    d.key ∉ seen.map key := by
  induction ds generalizing seen with
  | nil => cases h
  | cons e ds ih =>
    rw [firstOfEach] at h
    by_cases hseen : seen.any (sameKey e) = true
    · rw [if_pos hseen] at h
      exact ih h
    · rw [if_neg hseen] at h
      rcases mem_cons.1 h with rfl | h
      · rwa [any_sameKey_iff] at hseen
      · exact fun hmem => ih h (mem_cons_of_mem _ hmem)

theorem nodup_keys_firstOfEach (seen ds : List Diagnostic) : ((firstOfEach seen ds).map key).Nodup := by
  induction ds generalizing seen with
  | nil => exact nodup_nil
  | cons d ds ih =>
    rw [firstOfEach]
    split
    · exact ih seen
    · rw [map_cons, nodup_cons]
      refine ⟨fun hmem => ?_, ih (d :: seen)⟩
      obtain ⟨e, he, hkey⟩ := mem_map.1 hmem
      exact key_not_mem_of_mem_firstOfEach he (hkey ▸ mem_cons_self)

theorem mem_keys_firstOfEach {seen : List Diagnostic} (hk : k ∈ ds.map key) (hnew : k ∉ seen.map key) :
    k ∈ (firstOfEach seen ds).map key := by
  induction ds generalizing seen with
  | nil => cases hk
  | cons d ds ih =>
    rw [firstOfEach]
    rw [map_cons, mem_cons] at hk
    by_cases hseen : seen.any (sameKey d) = true
    · have hne : k ≠ d.key := fun h => hnew (h ▸ any_sameKey_iff.1 hseen)
      rw [if_pos hseen]
      exact ih (hk.resolve_left hne) hnew
    · rw [if_neg hseen, map_cons, mem_cons]
      by_cases hd : k = d.key
      · exact .inl hd
      · refine .inr (ih (hk.resolve_left hd) ?_)
        rw [map_cons, mem_cons]
        exact not_or_intro hd hnew

/-! ## The whole report -/

theorem mem_of_mem_finalize (h : d ∈ finalize ds) : d ∈ ds :=
  (sorted_perm ds).mem_iff.1 ((firstOfEach_sublist [] _).subset h)

theorem mem_keys_finalize : k ∈ (finalize ds).map key ↔ k ∈ ds.map key := by
  constructor
  · intro h
    obtain ⟨d, hd, rfl⟩ := mem_map.1 h
    exact mem_map_of_mem (mem_of_mem_finalize hd)
  · intro h
    exact mem_keys_firstOfEach (((sorted_perm ds).map key).mem_iff.2 h) not_mem_nil

theorem pairwise_finalize (ds : List Diagnostic) : ((finalize ds).map key).Pairwise fun a b => a.order b = .lt := by
  have hsorted : ((finalize ds).map key).Pairwise fun a b => (a.order b).isLE = true := by
    refine pairwise_map.2 (((pairwise_sorted ds).sublist (firstOfEach_sublist [] _)).imp ?_)
    intro a b hab
    rw [order_eq] at hab
    cases h : a.key.order b.key
    · rfl
    · rfl
    · rw [h] at hab
      cases hab
  have hdistinct : ((finalize ds).map key).Pairwise (· ≠ ·) := nodup_keys_firstOfEach ..
  refine (hsorted.and hdistinct).imp ?_
  rintro a b ⟨hle, hne⟩
  cases h : a.order b
  · rfl
  · exact absurd (Key.eq_of_order_eq h) hne
  · rw [h] at hle
    cases hle

/-- **The keys of a report depend on the set of the keys of its diagnostics only.** -/
theorem keys_finalize_eq (h : ∀ k, k ∈ ds.map key ↔ k ∈ ds'.map key) :
    (finalize ds).map key = (finalize ds').map key := by
  refine List.Perm.eq_of_pairwise ?_ (pairwise_finalize ds) (pairwise_finalize ds') ?_
  · intro a b _ _ hab hba
    have hswap : b.order a = (a.order b).swap := eq_swap
    rw [hab, hba] at hswap
    cases hswap
  · refine (perm_ext_iff_of_nodup (nodup_keys_firstOfEach ..) (nodup_keys_firstOfEach ..)).2 fun k => ?_
    exact mem_keys_finalize.trans ((h k).trans mem_keys_finalize.symm)

end AlLint.Diagnostic
