import AlLint.Proofs.Report.Canonical

/-!
# Which diagnostic of a place and rule stays

Of the diagnostics with one key, the report keeps the one with the least message, and among several of those the
one that came first (`least`, `mem_finalize_iff`). Since a report is sorted by its keys, this is all there is to
know about it (`finalize_ext`), and what two lists keep together is the lesser of what each of them keeps
(`least_append`). So a report is a canonical form of its diagnostics, and reports can be merged
(`finalize_canonical`).

It is not quite a form of the set of its diagnostics. Two of them with one key and one message are told apart by
their place in the list alone, and this is the one way in which the order can show (`finalize_eq_of_sets_iff`).
-/

namespace AlLint.Diagnostic

open List

/-- Of two diagnostics, the one with the lesser message, or the first one. -/
def lesser (d : Diagnostic) : Option Diagnostic → Diagnostic
  | none => d
  | some e => if e.message < d.message then e else d

/-- The diagnostic with some key that has the least message, and the first one of those. -/
def least (k : Key) : List Diagnostic → Option Diagnostic
  | [] => none
  | d :: ds => if d.key = k then some (lesser d (least k ds)) else least k ds

variable {k : Key} {d e : Diagnostic} {ds xs ys : List Diagnostic}

/-! ## The least message -/

theorem least_eq_none_iff : least k ds = none ↔ k ∉ ds.map key := by
  induction ds with
  | nil => simp [least]
  | cons d ds ih =>
    rw [least, map_cons, mem_cons]
    by_cases hd : d.key = k
    · simp [hd]
    · rw [if_neg hd, ih]
      simp [Ne.symm hd]

theorem exists_least (hk : k ∈ ds.map key) : ∃ d, least k ds = some d :=
  Option.ne_none_iff_exists'.1 fun h => least_eq_none_iff.1 h hk

theorem lesser_message_le (d : Diagnostic) (x : Option Diagnostic) :
    (lesser d x).message ≤ d.message ∧ ∀ e ∈ x, (lesser d x).message ≤ e.message := by
  cases x with
  | none => exact ⟨String.le_refl _, fun e he => by cases he⟩
  | some e =>
    by_cases hlt : e.message < d.message
    · rw [lesser, if_pos hlt]
      refine ⟨(String.le_total _ _).resolve_right fun hge => String.not_lt.2 hge hlt, ?_⟩
      rintro _ ⟨⟩
      exact String.le_refl _
    · rw [lesser, if_neg hlt]
      refine ⟨String.le_refl _, ?_⟩
      rintro _ ⟨⟩
      exact String.not_lt.1 hlt

/-- What stays is one of the diagnostics with the key, and none of them has a lesser message. -/
theorem least_spec (h : least k ds = some d) :
    d ∈ ds ∧ d.key = k ∧ ∀ e ∈ ds, e.key = k → d.message ≤ e.message := by
  induction ds generalizing d with
  | nil => cases h
  | cons a ds ih =>
    rw [least] at h
    by_cases ha : a.key = k
    · rw [if_pos ha] at h
      cases h
      obtain ⟨hle, hrest⟩ := lesser_message_le a (least k ds)
      have hothers : ∀ e ∈ ds, e.key = k → (lesser a (least k ds)).message ≤ e.message := by
        intro e he hkey
        obtain ⟨b, hb⟩ := exists_least (hkey ▸ mem_map_of_mem (f := key) he)
        exact String.le_trans (hrest b hb) ((ih hb).2.2 e he hkey)
      have hmem : lesser a (least k ds) ∈ a :: ds ∧ (lesser a (least k ds)).key = k := by
        cases hb : least k ds with
        | none => exact ⟨mem_cons_self, ha⟩
        | some b =>
          rw [lesser]
          split
          · exact ⟨mem_cons_of_mem _ (ih hb).1, (ih hb).2.1⟩
          · exact ⟨mem_cons_self, ha⟩
      refine ⟨hmem.1, hmem.2, fun e he hkey => ?_⟩
      rcases mem_cons.1 he with rfl | he
      · exact hle
      · exact hothers e he hkey
    · rw [if_neg ha] at h
      obtain ⟨hmem, hkey, hle⟩ := ih h
      refine ⟨mem_cons_of_mem _ hmem, hkey, fun e he hek => ?_⟩
      rcases mem_cons.1 he with rfl | he
      · exact absurd hek ha
      · exact hle e he hek

/-- The first of all stays, if no message is lesser than its own. -/
theorem least_cons_self (h : ∀ e ∈ ds, e.key = d.key → d.message ≤ e.message) : least d.key (d :: ds) = some d := by
  rw [least, if_pos rfl]
  cases he : least d.key ds with
  | none => rfl
  | some e =>
    obtain ⟨hmem, hkey, -⟩ := least_spec he
    rw [lesser, if_neg (String.not_lt.2 (h e hmem hkey))]

theorem least_append (k : Key) (xs ys : List Diagnostic) :
    least k (xs ++ ys) = ((least k xs).map fun d => lesser d (least k ys)).or (least k ys) := by
  induction xs with
  | nil => simp [least]
  | cons d xs ih =>
    rw [cons_append, least, least, ih]
    by_cases hd : d.key = k
    · rw [if_pos hd, if_pos hd]
      -- of three messages the least stays, whichever two are compared first
      cases least k xs <;> cases least k ys <;> grind [lesser, String.lt_trans, String.not_lt, String.le_trans]
    · rw [if_neg hd, if_neg hd]

/-! ## What sorting and keeping the first come to -/

theorem order_isLE_iff (hkey : d.key = e.key) : (order d e).isLE = true ↔ d.message ≤ e.message := by
  have hself : e.key.order e.key = .eq := Std.ReflCmp.compare_self
  rw [order_eq, hkey, hself]
  change (compareOfLessAndEq d.message e.message).isLE = true ↔ _
  rw [compareOfLessAndEq]
  by_cases hlt : d.message < e.message
  · simp [hlt, String.not_lt.1 (String.lt_asymm hlt)]
  · by_cases heq : d.message = e.message
    · simp [heq]
    · simp only [hlt, heq, if_false]
      exact iff_of_false nofun fun hle => heq (String.le_antisymm hle (String.not_lt.1 hlt))

theorem order_eq_eq_iff : order d e = .eq ↔ d.key = e.key ∧ d.message = e.message := by
  rw [order_eq, Ordering.then_eq_eq, Std.LawfulEqOrd.compare_eq_iff_eq]
  refine and_congr_left' ⟨Key.eq_of_order_eq, fun hkey => ?_⟩
  rw [hkey]
  exact Std.ReflCmp.compare_self

/-- The first diagnostic with a key in the sorted list is the one that stays. -/
theorem find?_sorted (k : Key) (ds : List Diagnostic) : (sorted ds).find? (·.key = k) = least k ds := by
  induction ds with
  | nil => simp [sorted, least]
  | cons d ds ih =>
    obtain ⟨before, after, hcons, hrest, hbefore⟩ := mergeSort_cons order_trans order_total d ds
    have hcons : sorted (d :: ds) = before ++ d :: after := hcons
    have hrest : sorted ds = before ++ after := hrest
    have hsorted : (before ++ d :: after).Pairwise fun a b => (order a b).isLE = true :=
      hcons ▸ pairwise_sorted (d :: ds)
    rw [least, ← ih, hcons, hrest, find?_append, find?_append, find?_cons]
    by_cases hd : d.key = k
    · rw [if_pos hd]
      cases hfound : before.find? (·.key = k) with
      | some e =>
        -- a diagnostic goes before `d` only if its message is lesser
        have hkey : e.key = k := by simpa using find?_some hfound
        have hnot := hbefore e (mem_of_find?_eq_some hfound)
        rw [Bool.not_eq_true', ← Bool.not_eq_true, order_isLE_iff (hd.trans hkey.symm), String.not_le] at hnot
        simp [lesser, hnot]
      | none =>
        cases hnext : after.find? (·.key = k) with
        | none => simp [hd, lesser]
        | some e =>
          have hkey : e.key = k := by simpa using find?_some hnext
          have hle := rel_of_pairwise_cons (pairwise_append.1 hsorted).2.1 (mem_of_find?_eq_some hnext)
          rw [order_isLE_iff (hd.trans hkey.symm)] at hle
          simp [hd, lesser, String.not_lt.2 hle]
    · simp [hd]

theorem find?_firstOfEach {seen : List Diagnostic} (hk : k ∉ seen.map key) :
    (firstOfEach seen ds).find? (·.key = k) = ds.find? (·.key = k) := by
  induction ds generalizing seen with
  | nil => rfl
  | cons d ds ih =>
    rw [firstOfEach]
    by_cases hd : d.key = k
    · have hnew : ¬ seen.any (sameKey d) = true := by rwa [any_sameKey_iff, hd]
      rw [if_neg hnew]
      simp [hd]
    · have hne : ¬ k = d.key := fun h => hd h.symm
      split
      · simp [hd, ih hk]
      · simp [hd, @ih (d :: seen) (by rw [map_cons, mem_cons]; exact not_or_intro hne hk)]

/-- **What a report has of each key**: the diagnostic with the least message, and the first one of those. -/
theorem find?_finalize (k : Key) (ds : List Diagnostic) : (finalize ds).find? (·.key = k) = least k ds := by
  rw [finalize_eq, find?_firstOfEach not_mem_nil, find?_sorted]

theorem nodup_keys_finalize (ds : List Diagnostic) : ((finalize ds).map key).Nodup := nodup_keys_firstOfEach ..

theorem mem_finalize_iff : d ∈ finalize ds ↔ least d.key ds = some d := by
  constructor
  · intro h
    obtain ⟨e, he⟩ := exists_least (mem_map_of_mem (f := key) (mem_of_mem_finalize h))
    have hmem : e ∈ finalize ds := mem_of_find?_eq_some ((find?_finalize d.key ds).trans he)
    rw [he, inj_on_of_nodup_map (nodup_keys_finalize ds) hmem h (least_spec he).2.1]
  · intro h
    exact mem_of_find?_eq_some ((find?_finalize d.key ds).trans h)

theorem finalize_ext (h : ∀ k, least k xs = least k ys) : finalize xs = finalize ys := by
  refine List.Perm.eq_of_pairwise ?_ (pairwise_map.1 (pairwise_finalize xs))
    (pairwise_map.1 (pairwise_finalize ys)) ?_
  · intro a b _ _ hab hba
    have hswap : b.key.order a.key = (a.key.order b.key).swap := Std.OrientedCmp.eq_swap
    rw [hab, hba] at hswap
    cases hswap
  · refine (perm_ext_iff_of_nodup (nodup_keys_finalize xs).of_map (nodup_keys_finalize ys).of_map).2 fun d => ?_
    rw [mem_finalize_iff, mem_finalize_iff, h]

theorem least_finalize (k : Key) (ds : List Diagnostic) : least k (finalize ds) = least k ds := by
  cases hleast : least k ds with
  | none =>
    rw [least_eq_none_iff] at hleast ⊢
    rwa [mem_keys_finalize]
  | some d =>
    obtain ⟨-, hkey, -⟩ := least_spec hleast
    have hmem : d ∈ finalize ds := mem_finalize_iff.2 (hkey ▸ hleast)
    obtain ⟨e, he⟩ := exists_least (hkey ▸ mem_map_of_mem (f := key) hmem)
    obtain ⟨he', hkey', -⟩ := least_spec he
    rw [he, inj_on_of_nodup_map (nodup_keys_finalize ds) he' hmem (hkey'.trans hkey.symm)]

/-! ## A canonical form -/

/-- **A report is a canonical form of its diagnostics.** Its keys are strictly increasing, it has one diagnostic
for each key of those that went in, one of them with the least message of its key, a second time changes
nothing, and the reports of two lists can be merged. -/
theorem finalize_canonical (xs ys : List Diagnostic) :
    ((finalize xs).map key).Pairwise (fun a b => a.order b = .lt) ∧
    (∀ k, (finalize xs).countP (·.key = k) = if k ∈ xs.map key then 1 else 0) ∧
    (∀ d ∈ finalize xs, d ∈ xs ∧ ∀ e ∈ xs, e.key = d.key → d.message ≤ e.message) ∧
    finalize (finalize xs) = finalize xs ∧
    finalize (finalize xs ++ finalize ys) = finalize (xs ++ ys) := by
  refine ⟨pairwise_finalize xs, fun k => ?_, fun d hd => ?_, ?_, ?_⟩
  · have hcount : (finalize xs).countP (·.key = k) = ((finalize xs).map key).count k := by
      rw [List.count, countP_map]
      exact countP_congr fun d _ => by simp
    rw [hcount, (nodup_keys_finalize xs).count]
    simp only [mem_keys_finalize]
  · obtain ⟨hmem, -, hle⟩ := least_spec (mem_finalize_iff.1 hd)
    exact ⟨hmem, hle⟩
  · exact finalize_ext fun k => least_finalize k xs
  · refine finalize_ext fun k => ?_
    rw [least_append, least_append, least_finalize, least_finalize]

/-- **When a report depends on nothing but the set of its diagnostics**: exactly if no two of them have one key
and one message, the least one of the key, and differ in severity or category. -/
theorem finalize_eq_of_sets_iff (xs : List Diagnostic) :
    (∀ ys, (∀ d, d ∈ ys ↔ d ∈ xs) → finalize ys = finalize xs) ↔
      ∀ a ∈ xs, ∀ b ∈ xs, order a b = .eq → (∀ e ∈ xs, e.key = a.key → a.message ≤ e.message) → a = b := by
  constructor
  · intro h a ha b hb heq hleast
    obtain ⟨hkey, hmessage⟩ := order_eq_eq_iff.1 heq
    -- put in front, each of the two is the one that stays
    have hcons : ∀ d ∈ xs, finalize (d :: xs) = finalize xs := by
      intro d hd
      refine h (d :: xs) fun e => ⟨fun he => ?_, mem_cons_of_mem _⟩
      rcases mem_cons.1 he with rfl | he
      · exact hd
      · exact he
    have hfirst : a ∈ finalize xs := hcons a ha ▸ mem_finalize_iff.2 (least_cons_self hleast)
    have hsecond : b ∈ finalize xs := by
      refine hcons b hb ▸ mem_finalize_iff.2 (least_cons_self fun e he hek => ?_)
      exact hmessage ▸ hleast e he (hek.trans hkey.symm)
    exact inj_on_of_nodup_map (nodup_keys_finalize xs) hfirst hsecond hkey
  · intro h ys hset
    refine finalize_ext fun k => ?_
    have hkeys : k ∈ ys.map key ↔ k ∈ xs.map key := by simp only [mem_map, hset]
    cases hxs : least k xs with
    | none => rwa [least_eq_none_iff, hkeys, ← least_eq_none_iff]
    | some d =>
      obtain ⟨hd, hdk, hle⟩ := least_spec hxs
      obtain ⟨e, he⟩ := exists_least (hkeys.2 (hdk ▸ mem_map_of_mem (f := key) hd))
      obtain ⟨hmem, hek, hle'⟩ := least_spec he
      have hmessage : d.message = e.message :=
        String.le_antisymm (hle e ((hset e).1 hmem) hek) (hle' d ((hset d).2 hd) hdk)
      have heq : order d e = .eq := order_eq_eq_iff.2 ⟨hdk.trans hek.symm, hmessage⟩
      rw [he, h d hd e ((hset e).1 hmem) heq fun f hf hfk => hle f hf (hfk.trans hdk)]

/-- **A report can depend on the order of its diagnostics**: here two that differ in severity, one way round and
the other. -/
theorem report_of_reversed_diagnostics :
    let grave : Diagnostic := ⟨"rule", "error", "Design", "a.al", 1, 1, "text"⟩
    let slight : Diagnostic := { grave with severity := "info" }
    (∀ d, d ∈ [grave, slight] ↔ d ∈ [slight, grave]) ∧ finalize [grave, slight] ≠ finalize [slight, grave] := by
  intro grave slight
  refine ⟨fun d => by simp [or_comm], fun h => ?_⟩
  have hgrave : grave ∈ finalize [grave, slight] := mem_finalize_iff.2 (by decide)
  rw [h, mem_finalize_iff] at hgrave
  exact absurd hgrave (by decide)

end AlLint.Diagnostic
