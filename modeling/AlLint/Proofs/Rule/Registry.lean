import AlLint.Settings.Basic

/-!
# What a registry holds

A registry is built rule by rule, and its two tables grow by insertion. Here is what they hold in the end. The
rules stand in the order in which they were registered, and the rules of a kind are those that name the kind,
sorted by id (`forKind_ofRules`). Leaving rules out and sorting can be done in either order, so the rules of a
kind other than one are the same whatever that one is like.
-/

namespace AlLint

open List

variable {s : Rule} {f : Rule → Rule}

theorem Keyed.insert_of_not_has {α : Type} {entries : Keyed α} {key : String} (value : α)
    (h : entries.has key = false) : entries.insert key value = entries ++ [(key, value)] := by
  induction entries with
  | nil => rfl
  | cons e rest ih =>
    have hne : key ≠ e.1 := by
      intro hk
      simp [has, get?, hk] at h
    have hrest : has rest key = false := by simpa [has, get?, hne] using h
    simp [insert, hne, ih hrest]

theorem Keyed.has_eq_false_iff {α : Type} {entries : Keyed α} {key : String} :
    entries.has key = false ↔ key ∉ entries.keys := by
  induction entries with
  | nil => simp [has, get?, keys]
  | cons e rest ih =>
    by_cases hk : key = e.1
    · simp [has, get?, keys, hk]
    · simpa [has, get?, keys, hk] using ih

namespace Registry

/-! ## Sorting by id -/

/-- The rules of a list in the order of their ids. -/
def sortById (rules : List Rule) : List Rule := rules.foldl (fun acc r => insertById r acc) []

/-- The rules of a list stand in the order of their ids. -/
def Ordered (rules : List Rule) : Prop := rules.Pairwise fun a b => a.id ≤ b.id

theorem mem_insertById {r : Rule} {rules : List Rule} : s ∈ insertById r rules ↔ s = r ∨ s ∈ rules := by
  induction rules with
  | nil => simp [insertById]
  | cons t rest ih =>
    by_cases h : r.id < t.id
    · simp [insertById, h]
    · simp only [insertById, h, if_false, mem_cons, ih]
      exact or_left_comm

theorem mem_sortById {rules : List Rule} : s ∈ sortById rules ↔ s ∈ rules := by
  have hfold : ∀ acc : List Rule,
      s ∈ rules.foldl (fun acc r => insertById r acc) acc ↔ s ∈ acc ∨ s ∈ rules := by
    induction rules with
    | nil => simp
    | cons r rest ih =>
      intro acc
      rw [foldl_cons, ih, mem_insertById, mem_cons, or_left_comm, or_assoc]
  simpa [sortById] using hfold []

theorem insertById_of_lt {r : Rule} {rules : List Rule} (h : ∀ s ∈ rules, r.id < s.id) :
    insertById r rules = r :: rules := by
  cases rules with
  | nil => rfl
  | cons s rest => rw [insertById, if_pos (h s mem_cons_self)]

theorem Ordered.insertById {rules : List Rule} (h : Ordered rules) (r : Rule) : Ordered (insertById r rules) := by
  induction rules with
  | nil => exact pairwise_singleton ..
  | cons s rest ih =>
    obtain ⟨hs, hrest⟩ := pairwise_cons.1 h
    by_cases hlt : r.id < s.id
    · have hle : r.id ≤ s.id := (String.le_total r.id s.id).resolve_right fun hge => String.not_lt.2 hge hlt
      rw [Registry.insertById, if_pos hlt]
      refine pairwise_cons.2 ⟨fun t ht => ?_, h⟩
      rcases mem_cons.1 ht with rfl | ht
      · exact hle
      · exact String.le_trans hle (hs t ht)
    · rw [Registry.insertById, if_neg hlt]
      refine pairwise_cons.2 ⟨fun t ht => ?_, ih hrest⟩
      rcases mem_insertById.1 ht with rfl | ht
      · exact String.not_lt.1 hlt
      · exact hs t ht

/-- Where a rule goes does not depend on rules that are left out afterwards. -/
theorem filter_insertById (p : Rule → Bool) {rules : List Rule} (h : Ordered rules) (r : Rule) :
    (insertById r rules).filter p = if p r then insertById r (rules.filter p) else rules.filter p := by
  induction rules with
  | nil => cases hp : p r <;> simp [insertById, hp]
  | cons s rest ih =>
    obtain ⟨hs, hrest⟩ := pairwise_cons.1 h
    by_cases hlt : r.id < s.id
    · -- the rule comes before everything that is kept, since it comes before the first of all
      have hall : ∀ t ∈ (s :: rest).filter p, r.id < t.id := by
        intro t ht
        rcases mem_cons.1 (mem_filter.1 ht).1 with rfl | ht
        · exact hlt
        · exact String.not_le.1 fun hge => String.not_lt.2 (String.le_trans (hs t ht) hge) hlt
      rw [insertById, if_pos hlt, insertById_of_lt hall, filter_cons]
    · rw [insertById, if_neg hlt, filter_cons, filter_cons, ih hrest]
      by_cases hps : p s = true
      · by_cases hpr : p r = true <;> simp [hps, hpr, insertById, hlt]
      · simp [hps]

theorem filter_foldl_insertById (p : Rule → Bool) (rules : List Rule) {acc : List Rule} (h : Ordered acc) :
    (rules.foldl (fun acc r => insertById r acc) acc).filter p =
      (rules.filter p).foldl (fun acc r => insertById r acc) (acc.filter p) := by
  induction rules generalizing acc with
  | nil => rfl
  | cons r rest ih =>
    rw [foldl_cons, ih (h.insertById r), filter_insertById p h, filter_cons]
    by_cases hp : p r = true <;> simp [hp]

theorem filter_sortById (p : Rule → Bool) (rules : List Rule) :
    (sortById rules).filter p = sortById (rules.filter p) :=
  filter_foldl_insertById p rules List.Pairwise.nil

theorem map_insertById (hf : ∀ r, (f r).id = r.id) (r : Rule) (rules : List Rule) :
    insertById (f r) (rules.map f) = (insertById r rules).map f := by
  induction rules with
  | nil => rfl
  | cons s rest ih =>
    rw [map_cons, insertById, insertById, hf, hf, ih]
    by_cases hlt : r.id < s.id <;> simp [hlt]

theorem map_sortById (hf : ∀ r, (f r).id = r.id) (rules : List Rule) :
    sortById (rules.map f) = (sortById rules).map f := by
  have hfold : ∀ acc : List Rule, (rules.map f).foldl (fun acc r => insertById r acc) (acc.map f) =
      (rules.foldl (fun acc r => insertById r acc) acc).map f := by
    induction rules with
    | nil => exact fun _ => rfl
    | cons r rest ih =>
      intro acc
      rw [map_cons, foldl_cons, foldl_cons, map_insertById hf, ih]
  exact hfold []

/-! ## Registering -/

theorem register_eq_ok_iff {reg reg' : Registry} {r : Rule} :
    reg.register r = .ok reg' ↔
      reg.rules.has r.id = false ∧ EngineRule.has r.id = false ∧ r.severity ∈ Severity.labels ∧
        reg' = ⟨reg.rules ++ [(r.id, r)], r.kinds.foldl (index r) reg.byKind⟩ := by
  unfold register
  cases hhas : reg.rules.has r.id with
  | true => simp
  | false =>
    cases hengine : EngineRule.has r.id with
    | true => simp
    | false =>
      by_cases hseverity : r.severity ∈ Severity.labels
      · simp [hseverity, Keyed.insert_of_not_has _ hhas, eq_comm]
      · simp [hseverity]

/-- The rules that look at a kind, as often as they name it. -/
def naming (kind : String) (rules : List Rule) : List Rule :=
  rules.flatMap fun r => (r.kinds.filter (· = kind)).map fun _ => r

theorem get?_foldl_index (r : Rule) (kind : String) (kinds : List String) (byKind : Keyed (List Rule)) :
    ((kinds.foldl (index r) byKind).get? kind).getD [] =
      ((kinds.filter (· = kind)).map fun _ => r).foldl (fun acc r => insertById r acc)
        ((byKind.get? kind).getD []) := by
  induction kinds generalizing byKind with
  | nil => rfl
  | cons k rest ih =>
    rw [foldl_cons, ih, index]
    by_cases hk : k = kind
    · subst hk
      simp [Keyed.get?_insert_self]
    · simp [hk, Keyed.get?_insert_of_ne _ _ (Ne.symm hk)]

theorem foldl_insertById_naming (kind : String) (rules : List Rule) (r : Rule) :
    ((r.kinds.filter (· = kind)).map fun _ => r).foldl (fun acc r => insertById r acc)
      (sortById (naming kind rules)) =
      sortById (naming kind (rules ++ [r])) := by
  simp only [sortById, naming, flatMap_append, flatMap_singleton, foldl_append]

theorem mem_of_mem_naming {kind : String} {rules : List Rule} (h : s ∈ naming kind rules) : s ∈ rules := by
  obtain ⟨r, hr, hs⟩ := mem_flatMap.1 h
  obtain ⟨-, -, rfl⟩ := mem_map.1 hs
  exact hr

theorem filter_naming (p : Rule → Bool) (kind : String) (rules : List Rule) :
    (naming kind rules).filter p = naming kind (rules.filter p) := by
  induction rules with
  | nil => rfl
  | cons r rest ih =>
    rw [naming, flatMap_cons, filter_append, ← naming, ih, filter_cons]
    by_cases hp : p r = true <;> simp [naming, hp]

/-- What a registry of some rules holds. -/
structure Holds (reg : Registry) (rules : List Rule) : Prop where
  /-- The rules stand in the order in which they were registered. -/
  inOrder : reg.rules = rules.map fun r => (r.id, r)
  /-- The rules of a kind are those that name it, sorted by id. -/
  ofKind : ∀ kind, reg.forKind kind = sortById (naming kind rules)
  /-- No rule takes an id of the program's own. -/
  notEngine : ∀ r ∈ rules, EngineRule.has r.id = false
  /-- No two rules have the same id. -/
  distinct : (rules.map Rule.id).Nodup

variable {reg reg' : Registry} {rules : List Rule} {r : Rule}

theorem holds_empty : Holds {} [] := ⟨rfl, fun _ => rfl, by simp, nodup_nil⟩

theorem Holds.register (h : Holds reg rules) (hreg : reg.register r = .ok reg') : Holds reg' (rules ++ [r]) := by
  obtain ⟨hnew, hengine, -, rfl⟩ := register_eq_ok_iff.1 hreg
  rw [h.inOrder] at hnew
  have hid : r.id ∉ rules.map Rule.id := by
    have hkeys := Keyed.has_eq_false_iff.1 hnew
    rwa [Keyed.keys, map_map] at hkeys
  refine ⟨?_, fun kind => ?_, fun s hs => ?_, ?_⟩
  · rw [h.inOrder, map_append, map_singleton]
  · have hkind : (reg.byKind.get? kind).getD [] = sortById (naming kind rules) := h.ofKind kind
    rw [forKind, get?_foldl_index, hkind, foldl_insertById_naming]
  · rcases mem_append.1 hs with hs | hs
    · exact h.notEngine s hs
    · rwa [mem_singleton.1 hs]
  · rw [map_append, map_singleton]
    exact nodup_append.2 ⟨h.distinct, by simp, by simpa using hid⟩

theorem Holds.foldlM {more : List Rule} (h : Holds reg rules) (hreg : more.foldlM Registry.register reg = .ok reg') :
    Holds reg' (rules ++ more) := by
  induction more generalizing reg rules with
  | nil =>
    obtain rfl : reg = reg' := Except.ok.inj hreg
    rwa [append_nil]
  | cons r rest ih =>
    rw [foldlM_cons] at hreg
    cases hr : reg.register r with
    | error e =>
      rw [hr] at hreg
      cases hreg
    | ok mid =>
      rw [hr] at hreg
      have hrest := ih (h.register hr) hreg
      rwa [append_assoc] at hrest

/-- **What a registry holds that is built from rules.** -/
theorem holds_ofRules (h : ofRules rules = .ok reg) : Holds reg rules := holds_empty.foldlM h

theorem Holds.sorted_eq (h : Holds reg rules) : reg.sorted = sortById rules := by
  have hvalues : reg.rules.values = rules := by
    rw [h.inOrder, Keyed.values, map_map]
    exact map_id' rules
  rw [sorted, hvalues, sortById]

theorem Holds.mem_of_mem_forKind (h : Holds reg rules) {kind : String} (hs : s ∈ reg.forKind kind) :
    s ∈ rules := by
  rw [h.ofKind, mem_sortById] at hs
  exact mem_of_mem_naming hs

theorem Holds.filter_forKind (h : Holds reg rules) (p : Rule → Bool) (kind : String) :
    (reg.forKind kind).filter p = sortById (naming kind (rules.filter p)) := by
  rw [h.ofKind, filter_sortById, filter_naming]

end Registry

end AlLint
