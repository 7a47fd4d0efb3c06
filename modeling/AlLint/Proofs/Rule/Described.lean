import AlLint.Proofs.Checked
import AlLint.Rule.Custom

/-!
# The rule that a mapping describes

A rule can be written as a mapping. `Describes` says which rule that is, field by field, and
`ofEntries_eq_ok_iff` that reading takes a mapping exactly if it describes a rule, and for that rule. A mapping
that is not taken is refused for a problem that is foreseen, if it is a plain one (`ofEntries_failsOnly`).
-/

namespace AlLint.CustomRule

open List

variable {host : Host} {m : List (Document × Document)} {r : Rule} {id : String}
variable {d : Document} {p : RuleProblem} {kinds : List String}

def field (m : List (Document × Document)) (name : String) : Document := (Document.get? m name).getD .null

def fieldOrEmpty (m : List (Document × Document)) (name : String) : Document := (Document.get? m name).getD (.text "")

/-- A document can be written, and this is how. -/
def ShownAs (d : Document) (text : String) : Prop := d.isWritable = true ∧ d.shown = text

/-- What a field lists are these kinds of node. -/
structure ListsKinds (d : Document) (kinds : List String) : Prop where
  written : d = .list (kinds.map .text) ∨ ∃ kind, d = .text kind ∧ kinds = [kind]
  known : ∀ kind ∈ kinds, kind ∈ nodeKinds

/-- A mapping describes a rule. Its formula and those in its message can be read. -/
structure Describes (host : Host) (m : List (Document × Document)) (r : Rule) : Prop where
  required : ∀ name ∈ requiredFields, isMissing (Document.get? m name) = false
  id : ShownAs (field m "id") r.id
  category : ShownAs (field m "category") r.category
  knownCategory : r.category ∈ ruleCategories
  severity : ∃ label, ShownAs (field m "severity") label ∧ r.severity = Text.lower label
  knownSeverity : r.severity ∈ Severity.labels
  kinds : ListsKinds (field m "kinds") r.kinds
  message : ShownAs (field m "message") r.message
  check : ∃ formula condition pieces, ShownAs (field m "when") formula ∧
    Formula.Written.ofText host formula = .ok condition ∧ Template.read host r.message = .ok pieces ∧
    r.check = check host condition pieces
  description : ShownAs (fieldOrEmpty m "description") r.description
  options : r.options = []
  custom : r.custom = true

/-! ## Fields -/

theorem shownOr_eq_ok_iff {text : String} {e : RuleError} :
    d.shownOr e = .ok text ↔ ShownAs d text := by
  rw [Document.shownOr, ShownAs]
  by_cases h : d.isWritable = true <;> simp [h]

theorem ensure_eq_ok_iff {holds : Bool} : ensure holds p = .ok () ↔ holds = true := by
  cases holds <;> simp [ensure]

theorem mapError_eq_ok_iff {ε ε' α : Type} {x : Except ε α} {f : ε → ε'} {a : α} :
    x.mapError f = .ok a ↔ x = .ok a := by
  cases x <;> simp [Except.mapError]

theorem unknownKinds_eq_nil_iff {items : List Document} :
    unknownKinds items = .ok [] ↔ ∀ d ∈ items, ∃ kind ∈ nodeKinds, d = .text kind := by
  induction items with
  | nil => simp [unknownKinds]
  | cons d rest ih =>
    rw [forall_mem_cons, ← ih]
    by_cases hkind : isKind d = .ok true
    · have hd : ∃ kind ∈ nodeKinds, d = .text kind := by
        cases d with
        | text kind => exact ⟨kind, by simpa [isKind] using hkind, rfl⟩
        | set items => cases hkind
        | _ =>
          unfold isKind at hkind
          dsimp only at hkind
          split at hkind <;> cases hkind
      rw [unknownKinds, hkind]
      exact (and_iff_right hd).symm
    · refine iff_of_false (fun h => ?_) fun h => hkind ?_
      · obtain ⟨known, hknown, h⟩ := exists_of_bind_eq_ok h
        cases known with
        | true => exact hkind hknown
        | false =>
          obtain ⟨name, -, h⟩ := exists_of_bind_eq_ok h
          obtain ⟨names, -, h⟩ := exists_of_bind_eq_ok h
          cases h
      · obtain ⟨kind, hmem, rfl⟩ := h.1
        simp [isKind, hmem]

theorem known_and_shown_iff {items : List Document} :
    unknownKinds items = .ok [] ∧ items.map Document.shown = kinds ↔
      items = kinds.map .text ∧ ∀ kind ∈ kinds, kind ∈ nodeKinds := by
  rw [unknownKinds_eq_nil_iff]
  constructor
  · rintro ⟨hknown, rfl⟩
    have hself : ∀ d ∈ items, (Document.text ∘ Document.shown) d = id d := by
      intro d hd
      obtain ⟨kind, -, rfl⟩ := hknown d hd
      rfl
    refine ⟨?_, fun kind hkind => ?_⟩
    · rw [map_map, map_congr_left hself, map_id]
    · obtain ⟨d, hd, rfl⟩ := mem_map.1 hkind
      obtain ⟨kind, hmem, rfl⟩ := hknown d hd
      exact hmem
  · rintro ⟨rfl, hknown⟩
    refine ⟨fun d hd => ?_, ?_⟩
    · obtain ⟨kind, hkind, rfl⟩ := mem_map.1 hd
      exact ⟨kind, hknown kind hkind, rfl⟩
    · rw [map_map]
      exact map_id' kinds

theorem readKinds_eq_ok_iff : readKinds id d = .ok kinds ↔ ListsKinds d kinds := by
  have hitems : ∀ items, kindsOf? d = some items →
      (readKinds id d = .ok kinds ↔ unknownKinds items = .ok [] ∧ items.map Document.shown = kinds) := by
    intro items hitems
    rw [readKinds, hitems]
    constructor
    · intro h
      obtain ⟨unknown, hunknown, h⟩ := exists_of_bind_eq_ok h
      obtain ⟨⟨⟩, hempty, h⟩ := exists_of_bind_eq_ok h
      obtain rfl := List.isEmpty_iff.1 (ensure_eq_ok_iff.1 hempty)
      exact ⟨hunknown, Except.ok.inj h⟩
    · rintro ⟨hunknown, rfl⟩
      exact (bind_of_ok hunknown).trans rfl
  cases d with
  | text kind =>
    rw [hitems _ rfl, known_and_shown_iff]
    constructor
    · rintro ⟨h, hknown⟩
      have hone : [kind] = kinds := (List.map_inj_right fun _ _ => Document.text.inj).1 h
      exact ⟨.inr ⟨kind, rfl, hone.symm⟩, hknown⟩
    · rintro ⟨h | ⟨kind', h, rfl⟩, hknown⟩
      · cases h
      · obtain rfl := Document.text.inj h
        exact ⟨rfl, hknown⟩
  | list items =>
    rw [hitems _ rfl, known_and_shown_iff]
    constructor
    · rintro ⟨rfl, hknown⟩
      exact ⟨.inl rfl, hknown⟩
    · rintro ⟨h | ⟨_, h, -⟩, hknown⟩
      · exact ⟨Document.list.inj h, hknown⟩
      · cases h
  | _ =>
    refine iff_of_false (fun h => ?_) fun h => ?_
    · cases h
    · rcases h.written with h | ⟨_, h, -⟩ <;> cases h

/-! ## What is taken -/

theorem ofEntries_eq_ok_iff : ofEntries host m = .ok r ↔ Describes host m r := by
  constructor
  · intro h
    obtain ⟨⟨⟩, hmissing, h⟩ := exists_of_bind_eq_ok h
    obtain ⟨id, hid, h⟩ := exists_of_bind_eq_ok h
    obtain ⟨category, hcategory, h⟩ := exists_of_bind_eq_ok h
    obtain ⟨⟨⟩, hknownCategory, h⟩ := exists_of_bind_eq_ok h
    obtain ⟨severity, hseverity, h⟩ := exists_of_bind_eq_ok h
    obtain ⟨⟨⟩, hknownSeverity, h⟩ := exists_of_bind_eq_ok h
    obtain ⟨kinds, hkinds, h⟩ := exists_of_bind_eq_ok h
    obtain ⟨formula, hformula, h⟩ := exists_of_bind_eq_ok h
    obtain ⟨message, hmessage, h⟩ := exists_of_bind_eq_ok h
    obtain ⟨condition, hcondition, h⟩ := exists_of_bind_eq_ok h
    obtain ⟨pieces, hpieces, h⟩ := exists_of_bind_eq_ok h
    obtain ⟨description, hdescription, h⟩ := exists_of_bind_eq_ok h
    obtain rfl := Except.ok.inj h
    exact
      { required := by simpa using ensure_eq_ok_iff.1 hmissing
        id := shownOr_eq_ok_iff.1 hid
        category := shownOr_eq_ok_iff.1 hcategory
        knownCategory := by simpa using ensure_eq_ok_iff.1 hknownCategory
        severity := ⟨severity, shownOr_eq_ok_iff.1 hseverity, rfl⟩
        knownSeverity := by simpa using ensure_eq_ok_iff.1 hknownSeverity
        kinds := readKinds_eq_ok_iff.1 hkinds
        message := shownOr_eq_ok_iff.1 hmessage
        check := ⟨formula, condition, pieces, shownOr_eq_ok_iff.1 hformula, mapError_eq_ok_iff.1 hcondition,
          mapError_eq_ok_iff.1 hpieces, rfl⟩
        description := shownOr_eq_ok_iff.1 hdescription
        options := rfl
        custom := rfl }
  · intro h
    obtain ⟨label, hlabel, hseverity⟩ := h.severity
    obtain ⟨formula, condition, pieces, hformula, hcondition, hpieces, hcheck⟩ := h.check
    have hlower := h.knownSeverity
    rw [hseverity] at hlower
    refine (bind_of_ok (ensure_eq_ok_iff.2 (by simpa using h.required))).trans ?_
    refine (bind_of_ok (shownOr_eq_ok_iff.2 h.id)).trans ?_
    refine (bind_of_ok (shownOr_eq_ok_iff.2 h.category)).trans ?_
    refine (bind_of_ok (ensure_eq_ok_iff.2 (by simpa using h.knownCategory))).trans ?_
    refine (bind_of_ok (shownOr_eq_ok_iff.2 hlabel)).trans ?_
    refine (bind_of_ok (ensure_eq_ok_iff.2 (by simpa using hlower))).trans ?_
    refine (bind_of_ok (readKinds_eq_ok_iff.2 h.kinds)).trans ?_
    refine (bind_of_ok (shownOr_eq_ok_iff.2 hformula)).trans ?_
    refine (bind_of_ok (shownOr_eq_ok_iff.2 h.message)).trans ?_
    refine (bind_of_ok (mapError_eq_ok_iff.2 hcondition)).trans ?_
    refine (bind_of_ok (mapError_eq_ok_iff.2 hpieces)).trans ?_
    refine (bind_of_ok (shownOr_eq_ok_iff.2 h.description)).trans ?_
    rw [← hseverity, ← hcheck, ← h.options, ← h.custom]
    rfl

/-! ## What is refused -/

/-- A document can be looked up among the kinds: it is a set, or nothing in it can be changed. -/
def CanLookUp (d : Document) : Prop := (∃ items, d = .set items) ∨ d.changeable? = none

/-- Reading a formula does not fail for anything but the formula: there is no null character in it, and it does
not break down. -/
structure Readable (host : Host) (formula : String) : Prop where
  noNull : '\x00' ∉ (Text.strip formula).toList
  unbroken : host.breakdown? (Text.strip formula) = none

/-- A mapping in which what is written can be written: no number in its fields has too many digits, no kind has
parts that can be changed, and its formulas can be read, if they are ones. -/
structure Plain (host : Host) (m : List (Document × Document)) : Prop where
  writable : ∀ name ∈ "description" :: requiredFields, ∀ d, Document.get? m name = some d → d.isWritable = true
  kinds : ∀ items, field m "kinds" = .list items → ∀ d ∈ items, CanLookUp d
  formula : Readable host (field m "when").shown
  message : ∀ text, .slot text ∈ Template.cut (field m "message").shown.toList → Readable host text

def Foreseen (e : RuleError) : Prop := ∃ p, e = .problem p

theorem ensure_failsOnly {holds : Bool} : FailsOnly Foreseen (ensure holds p) := by
  cases holds with
  | true => exact .ok ()
  | false => exact .error ⟨p, rfl⟩

theorem shownOr_failsOnly (h : d.isWritable = true) : FailsOnly Foreseen (d.shownOr .longNumber) := by
  rw [shownOr_eq_ok_iff.2 ⟨h, rfl⟩]
  exact .ok _

theorem ofText_failsOnly {text : String} (h : Readable host text) :
    FailsOnly (fun f => Foreseen (formulaError id f)) (Formula.Written.ofText host text) := by
  simp only [Formula.Written.ofText, contains_eq_mem, h.noNull, decide_false, h.unbroken]
  cases Formula.Term.ofText? (Text.strip text) with
  | some term => exact .ok _
  | none => exact .error ⟨_, rfl⟩

theorem isWritable_of_mem {items : List Document} (h : (Document.list items).isWritable = true) :
    ∀ d ∈ items, d.isWritable = true := by
  rw [Document.isWritable] at h
  induction items with
  | nil => simp
  | cons d rest ih =>
    obtain ⟨hd, hrest⟩ := Bool.and_eq_true_iff.1 h
    exact forall_mem_cons.2 ⟨hd, ih hrest⟩

theorem unknownKinds_failsOnly {items : List Document} (hwritable : ∀ d ∈ items, d.isWritable = true)
    (h : ∀ d ∈ items, CanLookUp d) : FailsOnly Foreseen (unknownKinds items) := by
  induction items with
  | nil => exact .ok []
  | cons d rest ih =>
    have hrest : FailsOnly Foreseen (unknownKinds rest) :=
      ih (fun d hd => hwritable d (mem_cons_of_mem _ hd)) fun d hd => h d (mem_cons_of_mem _ hd)
    refine FailsOnly.bind ?_ fun known _ => ?_
    · rcases h d mem_cons_self with ⟨parts, rfl⟩ | hd
      · exact .ok _
      · unfold isKind
        split
        · exact .ok _
        · exact .ok _
        · rw [hd]
          exact .ok _
    · cases known with
      | true => exact hrest
      | false => exact (shownOr_failsOnly (hwritable d mem_cons_self)).bind fun _ _ => hrest.bind fun _ _ => .ok _

theorem readKinds_failsOnly (hwritable : d.isWritable = true)
    (h : ∀ items, d = .list items → ∀ d ∈ items, CanLookUp d) :
    FailsOnly Foreseen (readKinds id d) := by
  have hread : ∀ items, FailsOnly Foreseen (unknownKinds items) → kindsOf? d = some items →
      FailsOnly Foreseen (readKinds id d) := by
    intro items hitems hd
    rw [readKinds, hd]
    exact hitems.bind fun _ _ => ensure_failsOnly.bind fun _ _ => .ok _
  cases d with
  | text kind =>
    exact hread _ (unknownKinds_failsOnly (by simp [Document.isWritable])
      (by simp [CanLookUp, Document.changeable?])) rfl
  | list items => exact hread _ (unknownKinds_failsOnly (isWritable_of_mem hwritable) (h items rfl)) rfl
  | _ => exact .error ⟨_, rfl⟩

theorem ofEntries_failsOnly (h : Plain host m) : FailsOnly Foreseen (ofEntries host m) := by
  have hfield : ∀ name ∈ requiredFields, (field m name).isWritable = true := by
    intro name hname
    rw [field]
    cases hd : Document.get? m name with
    | none => rfl
    | some d => exact h.writable name (mem_cons_of_mem _ hname) d hd
  have hdescription : (fieldOrEmpty m "description").isWritable = true := by
    rw [fieldOrEmpty]
    cases hd : Document.get? m "description" with
    | none => rfl
    | some d => exact h.writable _ mem_cons_self d hd
  have hshown : ∀ name ∈ requiredFields, FailsOnly Foreseen ((field m name).shownOr .longNumber) :=
    fun name hname => shownOr_failsOnly (hfield name hname)
  refine ensure_failsOnly.bind fun _ _ => (hshown "id" (by decide)).bind fun id _ =>
    (hshown "category" (by decide)).bind fun _ _ => ensure_failsOnly.bind fun _ _ =>
    (hshown "severity" (by decide)).bind fun _ _ => ensure_failsOnly.bind fun _ _ =>
    (readKinds_failsOnly (hfield "kinds" (by decide)) h.kinds).bind fun _ _ =>
    (hshown "when" (by decide)).bind fun formula hformula => (hshown "message" (by decide)).bind
      fun message hmessage =>
    FailsOnly.bind ?_ fun _ _ => FailsOnly.bind ?_ fun _ _ => (shownOr_failsOnly hdescription).bind fun _ _ => .ok _
  · obtain rfl := (shownOr_eq_ok_iff.1 hformula).2
    exact (ofText_failsOnly h.formula).mapError
  · obtain rfl := (shownOr_eq_ok_iff.1 hmessage).2
    refine (FailsOnly.mapM fun part hpart => ?_).mapError
    cases part with
    | plain c => exact .ok _
    | slot text => exact (ofText_failsOnly (h.message text hpart)).map

end AlLint.CustomRule
