import AlLint.Proofs.Checked
import AlLint.Proofs.Rule.Registry
import AlLint.Settings.Read

/-!
# What settings can hold that were accepted

A document of settings is read against a registry. What comes out sets no option that a rule does not have, and
no option to a value that its default does not allow (`allows_of_readRule`). So the options of a rule under
accepted settings are those that it declares, each with its default or with a value that the default allows
(`fitsOptions_of_accepted`).
-/

namespace AlLint

open List

/-! ## Tables -/

namespace Keyed

variable {α : Type} {entries : Keyed α} {key : String}

theorem mem_of_get? {value : α} (h : entries.get? key = some value) : (key, value) ∈ entries := by
  induction entries with
  | nil => cases h
  | cons e rest ih =>
    by_cases hk : key = e.1
    · rw [get?, if_pos hk] at h
      obtain rfl := Option.some.inj h
      rw [hk]
      exact mem_cons_self
    · rw [get?, if_neg hk] at h
      exact mem_cons_of_mem _ (ih h)

theorem mem_insert {value : α} {e : String × α} (h : e ∈ entries.insert key value) :
    e = (key, value) ∨ e ∈ entries := by
  induction entries with
  | nil => exact .inl (mem_singleton.1 h)
  | cons e' rest ih =>
    by_cases hk : key = e'.1
    · rw [insert, if_pos hk] at h
      rcases mem_cons.1 h with rfl | h
      · exact .inl (by rw [hk])
      · exact .inr (mem_cons_of_mem _ h)
    · rw [insert, if_neg hk] at h
      rcases mem_cons.1 h with rfl | h
      · exact .inr mem_cons_self
      · exact (ih h).imp_right (mem_cons_of_mem _)

theorem mem_insertAll {more : List (String × α)} {e : String × α} (h : e ∈ entries.insertAll more) :
    e ∈ entries ∨ e ∈ more := by
  induction more generalizing entries with
  | nil => exact .inl h
  | cons m more ih =>
    rcases ih h with h | h
    · rcases mem_insert h with rfl | h
      · exact .inr mem_cons_self
      · exact .inl h
    · exact .inr (mem_cons_of_mem _ h)

theorem mem_of_mem_ofList {more : List (String × α)} {e : String × α} (h : e ∈ ofList more) : e ∈ more :=
  (mem_insertAll h).resolve_left not_mem_nil

theorem keys_insert {value : α} (h : key ∈ entries.keys) : (entries.insert key value).keys = entries.keys := by
  induction entries with
  | nil => cases h
  | cons e rest ih =>
    by_cases hk : key = e.1
    · rw [insert, if_pos hk]
      rfl
    · have hrest : key ∈ keys rest := (mem_cons.1 h).resolve_left hk
      rw [insert, if_neg hk]
      exact congrArg (e.1 :: ·) (ih hrest)

theorem keys_insertAll {more : List (String × α)} (h : ∀ e ∈ more, e.1 ∈ entries.keys) :
    (entries.insertAll more).keys = entries.keys := by
  induction more generalizing entries with
  | nil => rfl
  | cons m more ih =>
    have hkeys : (entries.insert m.1 m.2).keys = entries.keys := keys_insert (h m mem_cons_self)
    have hmore : ∀ e ∈ more, e.1 ∈ (entries.insert m.1 m.2).keys := by
      intro e he
      rw [hkeys]
      exact h e (mem_cons_of_mem _ he)
    exact (ih hmore).trans hkeys

theorem get?_insertAll (entries : Keyed α) (more : List (String × α)) (key : String) :
    (entries.insertAll more).get? key = entries.get? key ∨
      ∃ value, (entries.insertAll more).get? key = some value ∧ (key, value) ∈ more := by
  induction more generalizing entries with
  | nil => exact .inl rfl
  | cons m more ih =>
    rcases ih (entries.insert m.1 m.2) with h | ⟨value, h, hmem⟩
    · by_cases hk : key = m.1
      · subst hk
        rw [get?_insert_self] at h
        exact .inr ⟨m.2, h, mem_cons_self⟩
      · rw [get?_insert_of_ne _ _ hk] at h
        exact .inl h
    · exact .inr ⟨value, h, mem_cons_of_mem _ hmem⟩

theorem mem_keys_of_get? {value : α} (h : entries.get? key = some value) : key ∈ entries.keys :=
  mem_map_of_mem (f := Prod.fst) (mem_of_get? h)

end Keyed

/-- A value is of the type of an option's default: its type has the same name, and a list holds texts only. -/
def Document.HasTypeOf (value default : Document) : Prop :=
  value.typeName = default.typeName ∧ ∀ items, value = .list items → ∀ item ∈ items, ∃ s, item = .text s

namespace Settings

/-- A value may be given to an option of a rule: the rule has the option, and its default allows the value. -/
def Allows (r : Rule) (name : String) (value : Document) : Prop :=
  ∃ default, r.options.get? name = some default ∧ optionAccepts default value = true

/-- The options of a rule under some settings are those that it declares, each with its default or with a value
that the default allows. -/
structure FitsOptions (s : Settings) (r : Rule) : Prop where
  keys : (s.optionsFor r).keys = r.options.keys
  values : ∀ name default, r.options.get? name = some default →
    ∃ value, (s.optionsFor r).get? name = some value ∧ (value = default ∨ optionAccepts default value = true)

variable {reg : Registry} {rules : List Rule} {r : Rule}

theorem allows_of_readOption {name : String} {value value' : Document} (h : readOption r name value = .ok value') :
    Allows r name value' := by
  rw [readOption] at h
  split at h
  · cases h
  · next default hdefault =>
    split at h
    · next haccepts =>
      obtain rfl := Except.ok.inj h
      exact ⟨default, hdefault, haccepts⟩
    · cases h

/-- What was read from the entries of a mapping was read from one of them. -/
theorem exists_of_mem_readAll {α : Type} {read : String → Document → Except SettingsError α}
    {entries : List (Document × Document)} {found : Keyed α} (h : readAll read entries = .ok found) {e : String × α}
    (he : e ∈ found) : ∃ value, read e.1 value = .ok e.2 := by
  obtain ⟨pairs, hpairs, rfl⟩ := exists_of_map_eq_ok h
  obtain ⟨entry, -, hentry⟩ := exists_of_mem_mapM hpairs (Keyed.mem_of_mem_ofList he)
  obtain ⟨name, -, hentry⟩ := exists_of_bind_eq_ok hentry
  obtain ⟨a, ha, rfl⟩ := exists_of_map_eq_ok hentry
  exact ⟨entry.2, ha⟩

theorem allows_of_readOptions {id : String} {entries : List (Document × Document)} {options : Keyed Document}
    (h : readOptions id (some r) entries = .ok options) {e : String × Document} (he : e ∈ options) :
    Allows r e.1 e.2 := by
  unfold readOptions at h
  split at h
  · obtain rfl : [] = options := Except.ok.inj h
    cases he
  · next given _ _ hrule =>
    obtain rfl := Option.some.inj hrule
    obtain ⟨value, hvalue⟩ := exists_of_mem_readAll h he
    exact allows_of_readOption hvalue
  · cases h
  · cases h

theorem readEntries_eq_ok_iff {id : String} {rule : Option Rule} {entries : List (Document × Document)}
    {rs : RuleSettings} : readEntries id rule entries = .ok rs ↔
      checkKeys id entries = .ok () ∧ readEnabled id entries = .ok rs.enabled ∧
        readSeverity id entries = .ok rs.severity ∧ readOptions id rule entries = .ok rs.options := by
  constructor
  · intro h
    obtain ⟨⟨⟩, hkeys, h⟩ := exists_of_bind_eq_ok h
    obtain ⟨enabled, henabled, h⟩ := exists_of_bind_eq_ok h
    obtain ⟨severity, hseverity, h⟩ := exists_of_bind_eq_ok h
    obtain ⟨options, hoptions, h⟩ := exists_of_bind_eq_ok h
    obtain rfl := Except.ok.inj h
    exact ⟨hkeys, henabled, hseverity, hoptions⟩
  · rintro ⟨hkeys, henabled, hseverity, hoptions⟩
    rw [readEntries, hkeys, henabled, hseverity, hoptions]
    rfl

theorem allows_of_readRule {id : String} {value : Document} {rs : RuleSettings} (h : readRule reg id value = .ok rs)
    (hr : reg.get? id = some r) {e : String × Document} (he : e ∈ rs.options) : Allows r e.1 e.2 := by
  simp only [readRule] at h
  split at h
  · cases h
  split at h
  · obtain rfl := Except.ok.inj h
    cases he
  · rw [hr] at h
    exact allows_of_readOptions (readEntries_eq_ok_iff.1 h).2.2.2 he
  · cases h

theorem exists_readRule {doc : Document} {s : Settings} (h : ofDocument reg doc = .ok s) {id : String}
    {rs : RuleSettings} (hrs : s.rules.get? id = some rs) : ∃ value, readRule reg id value = .ok rs := by
  unfold ofDocument at h
  split at h
  · obtain rfl := Except.ok.inj h
    cases hrs
  · obtain ⟨rules, hrules, rfl⟩ := exists_of_map_eq_ok h
    exact exists_of_mem_readAll hrules (Keyed.mem_of_get? hrs)
  · cases h

/-- **Accepted settings give a rule the options that it declares, with values that it allows.** -/
theorem fitsOptions_of_accepted {doc : Document} {s : Settings} (h : ofDocument reg doc = .ok s)
    (hr : reg.get? r.id = some r) : s.FitsOptions r := by
  cases hrs : s.rules.get? r.id with
  | none =>
    have hown : s.optionsFor r = r.options := by rw [optionsFor, hrs]
    refine ⟨by rw [hown], fun name default hdefault => ⟨default, ?_, .inl rfl⟩⟩
    rw [hown, hdefault]
  | some rs =>
    have hset : s.optionsFor r = r.options.insertAll rs.options := by rw [optionsFor, hrs]
    obtain ⟨value, hvalue⟩ := exists_readRule h hrs
    have hallows : ∀ e ∈ rs.options, Allows r e.1 e.2 := fun e he => allows_of_readRule hvalue hr he
    refine ⟨?_, fun name default hdefault => ?_⟩
    · rw [hset]
      refine Keyed.keys_insertAll fun e he => ?_
      obtain ⟨default, hdefault, -⟩ := hallows e he
      exact Keyed.mem_keys_of_get? hdefault
    · rcases Keyed.get?_insertAll r.options rs.options name with hold | ⟨value, hvalue, hmem⟩
      · exact ⟨default, by rw [hset, hold, hdefault], .inl rfl⟩
      · obtain ⟨default', hdefault', haccepts⟩ := hallows _ hmem
        obtain rfl : default = default' := Option.some.inj (hdefault.symm.trans hdefault')
        exact ⟨value, by rw [hset, hvalue], .inr haccepts⟩

end Settings

end AlLint
