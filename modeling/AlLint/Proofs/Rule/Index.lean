import AlLint.Proofs.Rule.Registry
import Mathlib.Data.List.Nodup

/-!
# The rules of a kind

A registry keeps the rules of each kind in a table of its own, which grows with every rule that is accepted.
Whatever is offered to a registry, it is the registry of the rules that it took (`exists_ofRules`). So the table
of a kind is a scan of all rules, but for one thing: a rule that names a kind twice stands there twice
(`forKind_eq_filter_iff`).
-/

namespace AlLint.Registry

open List

/-- The registry after a rule was offered to it. A rule that is refused changes nothing. -/
def offer (reg : Registry) (r : Rule) : Registry := (reg.register r).toOption.getD reg

/-- The registry that rules were offered to one after the other, starting from none. -/
def ofOffers (rules : List Rule) : Registry := rules.foldl offer {}

variable {reg : Registry} {rules : List Rule} {r : Rule}

theorem ofRules_append_singleton (h : ofRules rules = .ok reg) : ofRules (rules ++ [r]) = reg.register r := by
  have hfold : rules.foldlM register {} = .ok reg := h
  rw [ofRules, foldlM_append, hfold]
  exact bind_pure (reg.register r)

/-- One more rule that is offered is one more rule of the registry, or none. -/
theorem exists_ofRules_offer (h : ofRules rules = .ok reg) (r : Rule) :
    ∃ more, ofRules (rules ++ more) = .ok (reg.offer r) := by
  cases hr : reg.register r with
  | error e =>
    refine ⟨[], ?_⟩
    rw [append_nil, offer, hr]
    exact h
  | ok reg' =>
    refine ⟨[r], ?_⟩
    rw [ofRules_append_singleton h, offer, hr]
    rfl

/-- What rules were offered to is the registry of those that it took. -/
theorem exists_ofRules (rules : List Rule) : ∃ taken, ofRules taken = .ok (ofOffers rules) := by
  have hfold : ∀ (rules taken : List Rule) (reg : Registry), ofRules taken = .ok reg →
      ∃ taken', ofRules taken' = .ok (rules.foldl offer reg) := by
    intro rules
    induction rules with
    | nil => exact fun taken reg h => ⟨taken, h⟩
    | cons r rest ih =>
      intro taken reg h
      obtain ⟨more, hmore⟩ := exists_ofRules_offer h r
      exact ih _ _ hmore
  exact hfold rules [] {} rfl

/-! ## Each rule once -/

theorem insertById_perm (r : Rule) (rules : List Rule) : (insertById r rules).Perm (r :: rules) := by
  induction rules with
  | nil => exact .refl _
  | cons s rest ih =>
    by_cases hlt : r.id < s.id
    · rw [insertById, if_pos hlt]
    · rw [insertById, if_neg hlt]
      exact (ih.cons s).trans (.swap r s rest)

theorem sortById_perm (rules : List Rule) : (sortById rules).Perm rules := by
  have hfold : ∀ acc : List Rule, (rules.foldl (fun acc r => insertById r acc) acc).Perm (rules ++ acc) := by
    induction rules with
    | nil => exact fun acc => .refl acc
    | cons r rest ih =>
      intro acc
      exact ((ih _).trans ((insertById_perm r acc).append_left rest)).trans perm_middle
  simpa [sortById] using hfold []

theorem ordered_sortById (rules : List Rule) : Ordered (sortById rules) := by
  have hfold : ∀ acc : List Rule, Ordered acc → Ordered (rules.foldl (fun acc r => insertById r acc) acc) := by
    induction rules with
    | nil => exact fun acc h => h
    | cons r rest ih => exact fun acc h => ih _ (h.insertById r)
  exact hfold [] List.Pairwise.nil

/-- Rules with different ids stand in strict order once they are sorted. -/
theorem pairwise_sortById (h : (rules.map Rule.id).Nodup) : (sortById rules).Pairwise fun a b => a.id < b.id := by
  have hne : (sortById rules).Pairwise fun a b => a.id ≠ b.id :=
    pairwise_map.1 (((sortById_perm rules).map Rule.id).nodup_iff.2 h)
  refine (ordered_sortById rules).imp₂ (fun a b hle hne => ?_) hne
  exact String.not_le.1 fun hge => hne (String.le_antisymm hle hge)

/-! ## The table of a kind -/

/-- Rules that name a kind at most once stand once among those that name it. -/
theorem naming_eq_filter {kind : String} (h : ∀ r ∈ rules, r.kinds.count kind ≤ 1) :
    naming kind rules = rules.filter fun r => kind ∈ r.kinds := by
  induction rules with
  | nil => rfl
  | cons r rest ih =>
    have hrest := ih fun s hs => h s (mem_cons_of_mem _ hs)
    have hcount : r.kinds.filter (· = kind) = List.replicate (r.kinds.count kind) kind := by
      rw [← filter_eq]
    rw [naming, flatMap_cons, ← naming, hrest, filter_cons, hcount]
    by_cases hmem : kind ∈ r.kinds
    · have hone : r.kinds.count kind = 1 :=
        Nat.le_antisymm (h r mem_cons_self) (count_pos_iff.2 hmem)
      simp [hmem, hone]
    · simp [hmem, count_eq_zero.2 hmem]

/-- A rule that stands once among those that name a kind names it at most once. -/
theorem count_le_one_of_nodup {kind : String} (h : (naming kind rules).Nodup) (hr : r ∈ rules) :
    r.kinds.count kind ≤ 1 := by
  have hnodup := (nodup_flatMap.1 h).1 r hr
  rw [map_const', nodup_replicate, ← countP_eq_length_filter] at hnodup
  exact hnodup

/-- **The table of a kind is a scan of all rules exactly if no rule names the kind twice.** This holds whatever
rules were offered to a registry, and for a copy of it, which is the same registry. All rules that were taken
come once each in the order of their ids, and a rule that is refused changes nothing. -/
theorem forKind_eq_filter_iff (rules : List Rule) :
    let reg := ofOffers rules
    reg.sorted.Perm reg.rules.values ∧ reg.sorted.Pairwise (fun a b => a.id < b.id) ∧
      (∀ kind, reg.forKind kind = reg.sorted.filter (fun r => kind ∈ r.kinds) ↔
        ∀ r ∈ reg.sorted, r.kinds.count kind ≤ 1) ∧
      reg.copy = .ok reg ∧
      ∀ r e, reg.register r = .error e →
        (reg.offer r).sorted = reg.sorted ∧ (reg.offer r).ids = reg.ids ∧ (reg.offer r).forKind = reg.forKind := by
  intro reg
  obtain ⟨taken, htaken⟩ := exists_ofRules rules
  have hholds : Holds reg taken := holds_ofRules htaken
  have hsorted : reg.sorted = sortById taken := hholds.sorted_eq
  have hvalues : reg.rules.values = taken := by
    rw [hholds.inOrder, Keyed.values, map_map]
    exact map_id' taken
  have hstrict : reg.sorted.Pairwise fun a b => a.id < b.id := hsorted ▸ pairwise_sortById hholds.distinct
  refine ⟨sortById_perm _, hstrict, fun kind => ⟨fun heq r hr => ?_, fun hcount => ?_⟩, ?_, fun r e hr => ?_⟩
  · -- a scan shows no rule twice, so the table does not either
    have hnodup : reg.sorted.Nodup := hsorted ▸ (sortById_perm taken).nodup_iff.2
      (List.Nodup.of_map _ hholds.distinct)
    have hnaming : (naming kind taken).Nodup := by
      rw [← (sortById_perm _).nodup_iff, ← hholds.ofKind, heq]
      exact hnodup.filter _
    rw [hsorted, mem_sortById] at hr
    exact count_le_one_of_nodup hnaming hr
  · rw [hholds.ofKind, hsorted, filter_sortById, naming_eq_filter]
    intro r hr
    exact hcount r (hsorted ▸ mem_sortById.2 hr)
  · rw [copy, hvalues, htaken]
  · have hsame : reg.offer r = reg := by rw [offer, hr]; rfl
    rw [hsame]
    exact ⟨rfl, rfl, rfl⟩

/-- A rule that names a kind twice is looked up twice, though it is registered once. -/
theorem twice_named_twice_found :
    let r : Rule :=
      { id := "a", category := "CodeQuality", severity := "info", kinds := ["call", "call"], message := ""
        check := fun _ _ => {} }
    (ofOffers [r]).ids = ["a"] ∧ ((ofOffers [r]).forKind "call").map Rule.id = ["a", "a"] := ⟨rfl, rfl⟩

end AlLint.Registry
