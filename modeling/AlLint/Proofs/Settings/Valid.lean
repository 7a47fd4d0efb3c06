import AlLint.Proofs.Settings.Accepted
import Mathlib.Data.Option.Basic

/-!
# Which settings are accepted

What a document of settings has to look like is said here without reading it (`Valid`): which rules it may name,
which keys there are for a rule, and which values they may have. Reading accepts exactly such documents, and
what is then in force is what they say (`accepts_exactly_valid`).

Two things keep this from being true of every document. Of the two spellings of a severity only the first is
looked at if both are there (`stray_severity_accepted`), and a number with too many digits cannot be written
into a complaint.
-/

namespace AlLint

open List

namespace Keyed

variable {α : Type} {entries : Keyed α}

theorem nodup_keys_insert (key : String) (value : α) (h : entries.keys.Nodup) :
    (entries.insert key value).keys.Nodup := by
  cases hhas : entries.has key with
  | true =>
    have hkey : key ∈ entries.keys := by
      by_contra hkey
      rw [has_eq_false_iff.2 hkey] at hhas
      cases hhas
    rwa [keys_insert hkey]
  | false =>
    have hkey := has_eq_false_iff.1 hhas
    rw [insert_of_not_has value hhas, keys, map_append]
    refine nodup_append.2 ⟨h, by simp, ?_⟩
    intro a ha b hb hab
    obtain rfl : b = key := mem_singleton.1 hb
    exact hkey (hab ▸ ha)

theorem nodup_keys_ofList (more : List (String × α)) : (ofList more).keys.Nodup := by
  have hall : ∀ entries : Keyed α, entries.keys.Nodup → (entries.insertAll more).keys.Nodup := by
    induction more with
    | nil => exact fun _ h => h
    | cons m more ih => exact fun entries h => ih _ (nodup_keys_insert m.1 m.2 h)
  exact hall [] nodup_nil

theorem get?_insertAll_of_nodup {more : Keyed α} (h : more.keys.Nodup) (key : String) :
    (entries.insertAll more).get? key = (more.get? key).or (entries.get? key) := by
  induction more generalizing entries with
  | nil => rfl
  | cons m more ih =>
    obtain ⟨hm, hmore⟩ := nodup_cons.1 h
    rw [insertAll, foldl_cons, ← insertAll, ih hmore, get?]
    by_cases hkey : key = m.1
    · have hnone : get? more key = none := by
        rw [hkey, ← Option.not_isSome_iff_eq_none, ← has, has_eq_false_iff.2 hm]
        decide
      rw [if_pos hkey, hnone, hkey, get?_insert_self]
      rfl
    · rw [if_neg hkey, get?_insert_of_ne _ _ hkey]

end Keyed

namespace Settings

/-! ## What may be set -/

/-- The spellings of the key for a severity. -/
def spellings : List String := ["severity", "severity-override"]

/-- A value may be given to an option with some default: it is of the default's type, if that is one that
options are held to. -/
def SuitsDefault (default value : Document) : Prop :=
  default.typeName ∈ ["bool", "int", "list", "str"] → value.HasTypeOf default

/-- Nothing, or the name of a severity in any letter case. -/
def ValidSeverity (d : Document) : Prop := d = .null ∨ ∃ s, d = .text s ∧ Text.lower s ∈ Severity.labels

/-- What may be set for a rule. It is none of the registered ones if its id is one of the program's own. -/
@[mk_iff]
structure ValidEntries (rule : Option Rule) (entries : List (Document × Document)) : Prop where
  keys : ∀ e ∈ entries, ∃ key ∈ ruleKeys, e.1 = .text key
  enabled : ∀ d, Document.get? entries "enabled" = some d → ∃ b, d = .bool b
  severity : ∀ key ∈ spellings, ∀ d, Document.get? entries key = some d → ValidSeverity d
  options : ∀ d, Document.get? entries "options" = some d → d = .null ∨
    ∃ r given, rule = some r ∧ d = .map given ∧
      ∀ o ∈ given, ∃ default, r.options.get? o.1.shown = some default ∧ SuitsDefault default o.2

/-- A document of settings in which all is as it should be. -/
def Valid (reg : Registry) (doc : Document) : Prop :=
  doc = .null ∨ ∃ entries, doc = .map entries ∧ ∀ e ∈ entries,
    ((reg.get? e.1.shown).isSome ∨ EngineRule.has e.1.shown = true) ∧
      (e.2 = .null ∨ ∃ given, e.2 = .map given ∧ ValidEntries (reg.get? e.1.shown) given)

/-- Settings of a rule that use one spelling, and in which what a complaint may show can be written. -/
structure ClearEntries (entries : List (Document × Document)) : Prop where
  spelling : Document.get? entries "severity" = none ∨ Document.get? entries "severity-override" = none
  keys : ∀ e ∈ entries, e.1.isWritable = true
  severity : ∀ key ∈ spellings, ∀ d, Document.get? entries key = some d → d.isWritable = true
  options : ∀ given, Document.get? entries "options" = some (.map given) → ∀ o ∈ given, o.1.isWritable = true

/-- A document in which no rule is given a severity in both spellings, and in which ids, keys, names of options
and severities can be written. -/
def Clear (doc : Document) : Prop :=
  ∀ entries, doc = .map entries → ∀ e ∈ entries, e.1.isWritable = true ∧ ∀ given, e.2 = .map given →
    ClearEntries given

/-! ## Reading the entries of a mapping -/

section

variable {α : Type} {read : String → Document → Except SettingsError α} {entries : List (Document × Document)}

theorem readKeyed_of_writable {e : Document × Document} (h : e.1.isWritable = true) :
    readKeyed read e = (read e.1.shown e.2).map (e.1.shown, ·) := by
  rw [readKeyed, Document.shownOr, if_pos h]
  rfl

/-- The value of the last key that is shown as some name. -/
def lastShown : List (Document × Document) → String → Option Document
  | [], _ => none
  | e :: rest, name => (lastShown rest name).or (if e.1.shown = name then some e.2 else none)

/-- What a table holds under a name was read from the last entry of that name, or was there before. -/
theorem rel_insertAll {name : String} {pairs : List (String × α)} {acc : Keyed α} {prior : Option Document}
    (hpairs : List.Forall₂ (fun e p => readKeyed read e = .ok p) entries pairs)
    (hprior : Option.Rel (fun value a => read name value = .ok a) prior (acc.get? name)) :
    Option.Rel (fun value a => read name value = .ok a) ((lastShown entries name).or prior)
      ((acc.insertAll pairs).get? name) := by
  induction hpairs generalizing acc prior with
  | nil => exact hprior
  | @cons e p _ _ he _ ih =>
    obtain ⟨key, hkey, he⟩ := exists_of_bind_eq_ok he
    obtain ⟨a, ha, rfl⟩ := exists_of_map_eq_ok he
    obtain rfl : e.1.shown = key := by
      rw [Document.shownOr] at hkey
      split at hkey
      · exact Except.ok.inj hkey
      · cases hkey
    rw [lastShown, Option.or_assoc]
    refine ih ?_
    by_cases hname : e.1.shown = name
    · subst hname
      rw [if_pos rfl, Option.some_or, Keyed.get?_insert_self]
      exact .some ha
    · rw [if_neg hname, Option.none_or, Keyed.get?_insert_of_ne _ _ (Ne.symm hname)]
      exact hprior

theorem rel_readAll {found : Keyed α} (h : readAll read entries = .ok found) (name : String) :
    Option.Rel (fun value a => read name value = .ok a) (lastShown entries name) (found.get? name) := by
  obtain ⟨pairs, hpairs, rfl⟩ := exists_of_map_eq_ok h
  have hrel : Option.Rel (fun value a => read name value = .ok a) ((lastShown entries name).or none)
      ((Keyed.insertAll [] pairs).get? name) := rel_insertAll (forall₂_of_mapM hpairs) .none
  rwa [Option.or_none] at hrel

end

/-! ## Reading what is set for a rule -/

variable {reg : Registry} {r : Rule} {id : String} {rule : Option Rule} {entries : List (Document × Document)}

theorem optionAccepts_iff {default value : Document} :
    optionAccepts default value = true ↔ SuitsDefault default value := by
  have hlist : ∀ items : List Document, items.all isText = true ↔ ∀ item ∈ items, ∃ s, item = .text s := by
    intro items
    rw [all_eq_true]
    refine forall₂_congr fun item _ => ?_
    cases item <;> simp [isText]
  have hmoment : ∀ m : Moment, m.typeName ≠ "bool" ∧ m.typeName ≠ "int" ∧ m.typeName ≠ "list" ∧
    m.typeName ≠ "str" := by
    intro m
    rw [Moment.typeName]
    split <;> decide
  cases default <;> cases value <;>
    simp [optionAccepts, SuitsDefault, Document.HasTypeOf, Document.typeName, hlist, hmoment]

theorem readOption_eq_ok_iff {name : String} {value value' : Document} :
    readOption r name value = .ok value' ↔
      value' = value ∧ ∃ default, r.options.get? name = some default ∧ SuitsDefault default value := by
  rw [readOption]
  cases r.options.get? name with
  | none => simp
  | some default =>
    by_cases h : optionAccepts default value = true
    · simp [h, optionAccepts_iff.1 h, eq_comm]
    · simp [h, mt optionAccepts_iff.2 h]

theorem readEnabled_eq_ok_iff {b : Bool} : readEnabled id entries = .ok b ↔
    Document.get? entries "enabled" = none ∧ b = true ∨ Document.get? entries "enabled" = some (.bool b) := by
  rw [readEnabled]
  cases Document.get? entries "enabled" with
  | none => simp [eq_comm]
  | some d => cases d <;> simp [eq_comm]

def severityGiven (entries : List (Document × Document)) : Option Document :=
  (Document.get? entries "severity").or (Document.get? entries "severity-override")

theorem readSeverity_eq_ok_iff {severity : Option String} : readSeverity id entries = .ok severity ↔
    (severityGiven entries).getD .null = .null ∧ severity = none ∨
      ∃ s, severityGiven entries = some (.text s) ∧ Text.lower s ∈ Severity.labels ∧
        severity = some (Text.lower s) := by
  rw [readSeverity, ← severityGiven]
  cases severityGiven entries with
  | none => simp [eq_comm]
  | some d =>
    cases d with
    | null => simp [eq_comm]
    | text s => by_cases hs : Text.lower s ∈ Severity.labels <;> simp [hs, eq_comm]
    | _ => simp

theorem readOptions_eq_ok_iff {options : Keyed Document} : readOptions id rule entries = .ok options ↔
    (Document.get? entries "options").getD .null = .null ∧ options = [] ∨
      ∃ r given, rule = some r ∧ Document.get? entries "options" = some (.map given) ∧
        readAll (readOption r) given = .ok options := by
  unfold readOptions
  cases Document.get? entries "options" with
  | none => simp [eq_comm]
  | some d =>
    cases d with
    | null => simp [eq_comm]
    | map given => cases rule <;> simp
    | _ => simp

/-! ## What is accepted -/

/-- A step succeeds if something holds, and else fails for a problem. -/
def Settles {α : Type} (P : Prop) (x : Except SettingsError α) : Prop :=
  P ∧ (∃ a, x = .ok a) ∨ ¬P ∧ ∃ p, x = .error (.problem p)

namespace Settles

variable {α β : Type} {P Q : Prop} {x : Except SettingsError α}

theorem ok {a : α} (h : P) : Settles P (.ok a) := .inl ⟨h, a, rfl⟩

theorem problem {p : SettingsProblem} (h : ¬P) : Settles P (.error (.problem p) : Except SettingsError α) :=
  .inr ⟨h, p, rfl⟩

theorem bind {f : α → Except SettingsError β} (hx : Settles P x) (hf : ∀ a, Settles Q (f a)) :
    Settles (P ∧ Q) (x >>= f) := by
  rcases hx with ⟨hP, a, rfl⟩ | ⟨hP, p, rfl⟩
  · rcases hf a with ⟨hQ, hb⟩ | ⟨hQ, hp⟩
    · exact .inl ⟨⟨hP, hQ⟩, hb⟩
    · exact .inr ⟨mt And.right hQ, hp⟩
  · exact .inr ⟨mt And.left hP, p, rfl⟩

theorem map {f : α → β} (hx : Settles P x) : Settles P (x.map f) := by
  rcases hx with ⟨hP, a, rfl⟩ | ⟨hP, p, rfl⟩
  · exact ok hP
  · exact problem hP

theorem mapM {γ : Type} {P : γ → Prop} {f : γ → Except SettingsError α} {xs : List γ}
    (h : ∀ c ∈ xs, Settles (P c) (f c)) :
    Settles (∀ c ∈ xs, P c) (xs.mapM f) := by
  induction xs with
  | nil => exact ok (by simp)
  | cons c xs ih =>
    rw [mapM_cons, forall_mem_cons]
    refine bind (h c mem_cons_self) fun a => ?_
    exact (ih fun c' hc' => h c' (mem_cons_of_mem _ hc')).map (f := (a :: ·))

end Settles

theorem settles_readAll {α : Type} (read : String → Document → Except SettingsError α)
    {P : Document × Document → Prop}
    (hkeys : ∀ e ∈ entries, e.1.isWritable = true) (h : ∀ e ∈ entries, Settles (P e) (read e.1.shown e.2)) :
    Settles (∀ e ∈ entries, P e) (readAll read entries) := by
  refine (Settles.mapM fun e he => ?_).map
  rw [readKeyed_of_writable (hkeys e he)]
  exact (h e he).map

theorem settles_readOption (name : String) (value : Document) :
    Settles (∃ default, r.options.get? name = some default ∧ SuitsDefault default value)
      (readOption r name value) := by
  rw [readOption]
  cases r.options.get? name with
  | none => exact .problem (by simp)
  | some default =>
    by_cases h : optionAccepts default value = true
    · simpa [h] using .ok (optionAccepts_iff.1 h)
    · simpa [h] using .problem (mt optionAccepts_iff.2 h)

theorem settles_checkKeys (h : ∀ e ∈ entries, e.1.isWritable = true) :
    Settles (∀ e ∈ entries, ∃ key ∈ ruleKeys, e.1 = .text key) (checkKeys id entries) := by
  have hkey : ∀ d : Document, isRuleKey d = true ↔ ∃ key ∈ ruleKeys, d = .text key := by
    intro d
    cases d <;> simp [isRuleKey]
  have hshown : ∀ e ∈ entries.filter fun e => !isRuleKey e.1, ∃ name, e.1.shownOr SettingsError.longNumber =
    .ok name := by
    intro e he
    exact ⟨e.1.shown, by rw [Document.shownOr, if_pos (h e (mem_filter.1 he).1)]⟩
  obtain ⟨names, hnames⟩ := exists_mapM_eq_ok hshown
  rw [checkKeys, hnames]
  cases names with
  | nil =>
    refine .ok fun e he => (hkey e.1).1 ?_
    by_contra hne
    obtain ⟨_, hmem, -⟩ := exists_mem_of_mapM hnames (mem_filter.2 ⟨he, by simpa using hne⟩)
    cases hmem
  | cons name names =>
    obtain ⟨e, he, -⟩ := exists_of_mem_mapM hnames mem_cons_self
    obtain ⟨he, hne⟩ := mem_filter.1 he
    refine .problem fun hall => ?_
    rw [(hkey e.1).2 (hall e he)] at hne
    cases hne

theorem settles_readEnabled :
    Settles (∀ d, Document.get? entries "enabled" = some d → ∃ b, d = .bool b) (readEnabled id entries) := by
  rw [readEnabled]
  cases Document.get? entries "enabled" with
  | none => exact .ok (by simp)
  | some d =>
    cases d with
    | bool b => exact .ok (by simp)
    | _ => exact .problem (by simp)

theorem settles_readSeverity (h : ClearEntries entries) :
    Settles (∀ key ∈ spellings, ∀ d, Document.get? entries key = some d → ValidSeverity d)
      (readSeverity id entries) := by
  -- with one spelling the severity that counts is the only one
  have hone : (∀ key ∈ spellings, ∀ d, Document.get? entries key = some d → ValidSeverity d) ↔
      ValidSeverity ((severityGiven entries).getD .null) := by
    have hnull : ValidSeverity .null := .inl rfl
    rcases h.spelling with hnone | hnone
    · cases hd : Document.get? entries "severity-override" <;> simp [spellings, severityGiven, hnone, hd, hnull]
    · cases hd : Document.get? entries "severity" <;> simp [spellings, severityGiven, hnone, hd, hnull]
  have hwritable : ((severityGiven entries).getD .null).isWritable = true := by
    cases hd : severityGiven entries with
    | none => rfl
    | some d =>
      rcases Option.or_eq_some_iff.1 hd with hd | ⟨-, hd⟩
      · exact h.severity _ (by decide) d hd
      · exact h.severity _ (by decide) d hd
  rw [hone, readSeverity, ← severityGiven]
  cases hd : (severityGiven entries).getD .null with
  | null => exact .ok (.inl rfl)
  | text s =>
    by_cases hs : Text.lower s ∈ Severity.labels
    · simpa [hs] using .ok (.inr ⟨s, rfl, hs⟩)
    · simpa [hs] using .problem (by simp [ValidSeverity, hs])
  | _ =>
    rw [hd] at hwritable
    simpa [hwritable] using .problem (by simp [ValidSeverity])

theorem settles_readOptions (h : ClearEntries entries) :
    Settles (∀ d, Document.get? entries "options" = some d → d = .null ∨ ∃ r given, rule = some r ∧ d = .map given ∧
      ∀ o ∈ given, ∃ default, r.options.get? o.1.shown = some default ∧ SuitsDefault default o.2)
      (readOptions id rule entries) := by
  unfold readOptions
  cases hget : Document.get? entries "options" with
  | none => exact .ok (by simp)
  | some d =>
    cases d with
    | null => exact .ok (by simp)
    | map given =>
      cases rule with
      | none => exact .problem (by simp)
      | some r => simpa using settles_readAll (readOption r) (h.options given hget) fun o _ =>
          settles_readOption o.1.shown o.2
    | _ => exact .problem (by simp)

theorem settles_readEntries (h : ClearEntries entries) :
    Settles (ValidEntries rule entries) (readEntries id rule entries) := by
  rw [validEntries_iff]
  refine (settles_checkKeys h.keys).bind fun _ => settles_readEnabled.bind fun enabled =>
    (settles_readSeverity h).bind
    fun severity => ?_
  exact (settles_readOptions h).map

theorem settles_readRule {value : Document} (h : ∀ given, value = .map given → ClearEntries given) :
    Settles (((reg.get? id).isSome ∨ EngineRule.has id = true) ∧
      (value = .null ∨ ∃ given, value = .map given ∧ ValidEntries (reg.get? id) given)) (readRule reg id value) := by
  simp only [readRule]
  by_cases hid : (reg.get? id).isSome ∨ EngineRule.has id = true
  · rw [if_neg (by cases hreg : reg.get? id <;> simp_all), and_iff_right hid]
    cases value with
    | null => exact .ok (.inl rfl)
    | map given => simpa using settles_readEntries (h given rfl)
    | _ => exact .problem (by simp)
  · rw [if_pos (by cases hreg : reg.get? id <;> simp_all)]
    exact .problem (mt And.left hid)

theorem settles_ofDocument {doc : Document} (h : Clear doc) : Settles (Valid reg doc) (ofDocument reg doc) := by
  cases doc with
  | null => exact .ok (.inl rfl)
  | map entries =>
    have hall := settles_readAll (readRule reg) (fun e he => (h entries rfl e he).1) fun e he =>
      settles_readRule (h entries rfl e he).2
    simp only [Valid, reduceCtorEq, Document.map.injEq, false_or, exists_eq_left']
    exact hall.map
  | _ => exact .problem (by simp [Valid])

/-! ## What is then in force -/

/-- The entries of a document that is there and is a mapping. -/
def entriesOf : Option Document → List (Document × Document)
  | some (.map entries) => entries
  | _ => []

def ruleEntries (doc : Document) (id : String) : List (Document × Document) :=
  entriesOf (lastShown (entriesOf (some doc)) id)

/-- What a document sets an option of a rule to. -/
def optionGiven (doc : Document) (id name : String) : Option Document :=
  lastShown (entriesOf (Document.get? (ruleEntries doc id) "options")) name

/-- What is in force is what a document says, and what the rules say where it says nothing. -/
structure Follows (s : Settings) (reg : Registry) (doc : Document) : Prop where
  enabled : ∀ id, Document.bool (s.isEnabled id) = (Document.get? (ruleEntries doc id) "enabled").getD (.bool true)
  severity : ∀ id key label, key ∈ spellings → Document.get? (ruleEntries doc id) key = some (.text label) →
    ∀ default, s.severityFor id default = Text.lower label
  severityDefault : ∀ id, (∀ key ∈ spellings, (Document.get? (ruleEntries doc id) key).getD .null = .null) →
    ∀ default, s.severityFor id default = default
  options : ∀ r, reg.get? r.id = some r → ∀ name,
    (s.optionsFor r).get? name = (optionGiven doc r.id name).or (r.options.get? name)

theorem exists_of_lastShown {name : String} {value : Document} (h : lastShown entries name = some value) :
    ∃ e ∈ entries, e.2 = value := by
  induction entries with
  | nil => cases h
  | cons e rest ih =>
    rw [lastShown] at h
    rcases Option.or_eq_some_iff.1 h with h | ⟨-, h⟩
    · obtain ⟨e', he', hvalue⟩ := ih h
      exact ⟨e', mem_cons_of_mem _ he', hvalue⟩
    · exact ⟨e, mem_cons_self, Option.some.inj (Option.ite_none_right_eq_some.1 h).2⟩

theorem clearEntries_nil : ClearEntries [] where
  spelling := .inl rfl
  keys := by simp
  severity := fun _ _ _ hd => by cases hd
  options := fun _ hgiven => by cases hgiven

variable {s : Settings} {doc : Document}

theorem clearEntries_ruleEntries (h : Clear doc) (id : String) : ClearEntries (ruleEntries doc id) := by
  rw [ruleEntries]
  cases hlast : lastShown (entriesOf (some doc)) id with
  | none => exact clearEntries_nil
  | some value =>
    cases value with
    | map given =>
      obtain ⟨e, he, hvalue⟩ := exists_of_lastShown hlast
      cases doc with
      | map entries => exact (h entries rfl e he).2 given hvalue
      | _ => cases he
    | _ => exact clearEntries_nil

/-- What is read for a rule is read from what the document sets for it, even if that is nothing. -/
theorem reads_of_accepted (h : ofDocument reg doc = .ok s) (id : String) :
    readEnabled id (ruleEntries doc id) = .ok ((s.rules.get? id).getD {}).enabled ∧
      readSeverity id (ruleEntries doc id) = .ok ((s.rules.get? id).getD {}).severity ∧
      readOptions id (reg.get? id) (ruleEntries doc id) = .ok ((s.rules.get? id).getD {}).options := by
  have hrel : Option.Rel (fun value rs => readRule reg id value = .ok rs) (lastShown (entriesOf (some doc)) id)
      (s.rules.get? id) := by
    cases doc with
    | null =>
      obtain rfl := Except.ok.inj h
      exact .none
    | map entries =>
      obtain ⟨rules, hrules, rfl⟩ := exists_of_map_eq_ok h
      exact rel_readAll hrules id
    | _ => cases h
  rw [ruleEntries]
  generalize lastShown (entriesOf (some doc)) id = given at hrel ⊢
  generalize s.rules.get? id = found at hrel ⊢
  cases hrel with
  | none => exact ⟨rfl, rfl, rfl⟩
  | some hread =>
    simp only [readRule] at hread
    split at hread
    · cases hread
    split at hread
    · obtain rfl := Except.ok.inj hread
      exact ⟨rfl, rfl, rfl⟩
    · exact (readEntries_eq_ok_iff.1 hread).2
    · cases hread

theorem severityGiven_of_get? {key : String} {d : Document} (h : ClearEntries entries) (hkey : key ∈ spellings)
    (hd : Document.get? entries key = some d) : severityGiven entries = some d := by
  rw [severityGiven]
  rcases mem_pair.1 hkey with rfl | rfl
  · rw [hd]
    rfl
  · rcases h.spelling with hnone | hnone
    · rw [hnone, hd]
      rfl
    · rw [hnone] at hd
      cases hd

theorem severityFor_eq (default : String) :
    s.severityFor id default = (((s.rules.get? id).getD {}).severity.filter (· ≠ "")).getD default := by
  rw [severityFor]
  cases s.rules.get? id <;> rfl

/-- An option has the value that the document gives it, or else its default. -/
theorem get?_optionsFor (h : ofDocument reg doc = .ok s) (hr : reg.get? r.id = some r) (name : String) :
    (s.optionsFor r).get? name = (optionGiven doc r.id name).or (r.options.get? name) := by
  have hset : s.optionsFor r = r.options.insertAll ((s.rules.get? r.id).getD {}).options := by
    rw [optionsFor]
    cases s.rules.get? r.id <;> rfl
  rw [hset, optionGiven]
  rcases readOptions_eq_ok_iff.1 (reads_of_accepted h r.id).2.2 with ⟨hnull, hnil⟩ | ⟨r', given, hrule, hgiven, hread⟩
  · have hnone : entriesOf (Document.get? (ruleEntries doc r.id) "options") = [] := by
      cases hget : Document.get? (ruleEntries doc r.id) "options" with
      | none => rfl
      | some d =>
        rw [hget] at hnull
        obtain rfl : d = .null := hnull
        rfl
    rw [hnil, hnone]
    rfl
  · obtain rfl : r = r' := Option.some.inj (hr.symm.trans hrule)
    obtain ⟨pairs, -, hpairs⟩ := exists_of_map_eq_ok hread
    have hlast : ((s.rules.get? r.id).getD {}).options.get? name = lastShown given name := by
      have hrel := rel_readAll hread name
      generalize lastShown given name = last at hrel ⊢
      generalize Keyed.get? _ name = found at hrel ⊢
      cases hrel with
      | none => rfl
      | some hvalue => exact congrArg some (readOption_eq_ok_iff.1 hvalue).1
    rw [Keyed.get?_insertAll_of_nodup (hpairs ▸ Keyed.nodup_keys_ofList pairs), hlast, hgiven]
    rfl

theorem follows_of_accepted (hclear : Clear doc) (h : ofDocument reg doc = .ok s) : s.Follows reg doc where
  enabled := by
    intro id
    have henabled : s.isEnabled id = ((s.rules.get? id).getD {}).enabled := by
      rw [isEnabled]
      cases s.rules.get? id <;> rfl
    rw [henabled]
    rcases readEnabled_eq_ok_iff.1 (reads_of_accepted h id).1 with ⟨hnone, htrue⟩ | hsome
    · rw [hnone, htrue]
      rfl
    · rw [hsome]
      rfl
  severity := by
    intro id key label hkey hget default
    have hgiven := severityGiven_of_get? (clearEntries_ruleEntries hclear id) hkey hget
    rcases readSeverity_eq_ok_iff.1 (reads_of_accepted h id).2.1 with ⟨hnull, -⟩ | ⟨label', hlabel, hmem, hseverity⟩
    · rw [hgiven] at hnull
      cases hnull
    · obtain rfl : label = label' := by simpa using hgiven.symm.trans hlabel
      have hne : Text.lower label ≠ "" := by
        intro hempty
        rw [hempty] at hmem
        exact absurd hmem (by decide)
      rw [severityFor_eq, hseverity, Option.filter_some, if_pos (decide_eq_true hne)]
      rfl
  severityDefault := by
    intro id hnull default
    have hgiven : (severityGiven (ruleEntries doc id)).getD .null = .null := by
      rw [severityGiven]
      cases hget : Document.get? (ruleEntries doc id) "severity" with
      | none => exact hnull "severity-override" (by decide)
      | some d =>
        have hd := hnull "severity" (by decide)
        rwa [hget] at hd
    rcases readSeverity_eq_ok_iff.1 (reads_of_accepted h id).2.1 with ⟨-, hseverity⟩ | ⟨label, hlabel, -, -⟩
    · rw [severityFor_eq, hseverity]
      rfl
    · rw [hlabel] at hgiven
      cases hgiven
  options := fun _ hr name => get?_optionsFor h hr name

end Settings

end AlLint
