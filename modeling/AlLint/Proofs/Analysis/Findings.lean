import AlLint.Proofs.Analysis.Faultless
import AlLint.Proofs.Flow.Nesting

/-!
# What comes of one rule

The diagnostics with the id of a rule that comes with the program are those for the findings of the rule, at
every node of its kinds that is looked at (`mem_diagnostics_iff`). Of the nodes that are expressions, those that
are looked at are the ones that the walks through the routines come upon (`mem_sights_iff`).
-/

namespace AlLint

open List

variable {settings : Settings} {path : String} {d : Diagnostic} {sight : Sight} {owner : Option String}

/-- The diagnostic for a finding of a rule. -/
def Finding.diagnostic (settings : Settings) (path : String) (r : Rule) (f : Finding) (message : String) :
    Diagnostic :=
  { ruleId := r.id, severity := settings.severityFor r.id r.severity, category := r.category
    path, line := f.span.line, column := f.span.column, message }

namespace Analysis

/-! ## Diagnostics of a rule -/

theorem mem_report_iff {r : Rule} {findings : List Finding}
    (h : ∀ f ∈ findings, ∃ message, r.render f = .ok message) :
    d ∈ (report settings path r findings).1 ↔
      ∃ f ∈ findings, ∃ message, r.render f = .ok message ∧ d = f.diagnostic settings path r message := by
  induction findings with
  | nil => simp [report]
  | cons f rest ih =>
    obtain ⟨message, hmessage⟩ := h f mem_cons_self
    rw [report, hmessage]
    simp only [mem_cons, ih fun g hg => h g (mem_cons_of_mem _ hg), exists_eq_or_imp]
    constructor
    · rintro (rfl | hrest)
      · exact .inl ⟨message, hmessage, rfl⟩
      · exact .inr hrest
    · rintro (⟨message', hmessage', rfl⟩ | hrest)
      · obtain rfl := Except.ok.inj (hmessage.symm.trans hmessage')
        exact .inl rfl
      · exact .inr hrest

section Catalog

variable {r : Rule} (hr : r ∈ Catalog.rules)

include hr

theorem id_ne_engine {e : EngineRule} (he : e ∈ EngineRule.all) : e.id ≠ r.id := by
  have hfree := (Registry.holds_ofRules Catalog.ofRules_rules).notEngine r hr
  intro heq
  rw [EngineRule.has, any_eq_false] at hfree
  exact hfree e he (by simp [heq])

/-- A rule says what it found. If it fails, the notice of that has another id. -/
theorem mem_runRule_iff {file : SourceFile} (hid : d.ruleId = r.id) :
    d ∈ (runRule settings file sight r).diagnostics ↔
      ∃ f ∈ (r.check file sight).findings, ∃ message,
        r.render f = .ok message ∧ d = f.diagnostic settings file.path r message := by
  rw [← mem_report_iff fun f hf => Catalog.exists_message hr _ _ hf]
  simp only [runRule]
  split
  · rfl
  · -- the findings up to the fault are reported all the same
    next fault _ =>
    have hnotice : d ∉ (ruleFault settings file.path r sight.node fault).diagnostics := by
      intro hd
      simp only [ruleFault, engineDiagnostic?, Option.mem_toList] at hd
      split at hd
      · obtain rfl := Option.some.inj hd
        exact id_ne_engine hr EngineRule.internalError_mem hid
      · cases hd
    simp only [Result.append, mem_append, hnotice, or_false]

theorem mem_forKind_iff {kind : String} : r ∈ Catalog.registry.forKind kind ↔ kind ∈ r.kinds := by
  have hholds := Registry.holds_ofRules Catalog.ofRules_rules
  rw [hholds.ofKind, Registry.mem_sortById, Registry.naming, mem_flatMap]
  constructor
  · rintro ⟨s, -, hs⟩
    obtain ⟨k, hk, rfl⟩ := mem_map.1 hs
    obtain ⟨hkinds, hkind⟩ := mem_filter.1 hk
    exact of_decide_eq_true hkind ▸ hkinds
  · intro hkind
    exact ⟨r, hr, mem_map.2 ⟨kind, mem_filter.2 ⟨hkind, decide_eq_true rfl⟩, rfl⟩⟩

/-- What rules say at a node with the id of one of them is what that one says. -/
theorem mem_dispatch_iff {file : SourceFile} (hid : d.ruleId = r.id) :
    d ∈ (dispatch Catalog.registry settings file sight).diagnostics ↔
      sight.active = true ∧ sight.node.kind ∈ r.kinds ∧ settings.isEnabled r.id = true ∧
        ∃ f ∈ (r.check file sight).findings, ∃ message,
          r.render f = .ok message ∧ d = f.diagnostic settings file.path r message := by
  have hholds := Registry.holds_ofRules Catalog.ofRules_rules
  rw [dispatch]
  split
  · next hactive =>
    rw [diagnostics_foldl, nil_append, mem_flatMap]
    constructor
    · rintro ⟨s, hs, hd⟩
      obtain ⟨hkind, henabled⟩ := mem_filter.1 hs
      -- ids of rules are all different, and a rule only uses its own and that of the notice
      have hsr : s = r := by
        refine hholds.eq_of_id hr (hholds.mem_of_mem_forKind hkind) ?_
        rcases isAbout_of_mem_runRule hd with habout | ⟨habout, -⟩
        · exact habout.symm.trans hid
        · exact absurd (habout.symm.trans hid) (id_ne_engine hr EngineRule.internalError_mem)
      rw [hsr] at hkind henabled hd
      exact ⟨hactive, (mem_forKind_iff hr).1 hkind, henabled, (mem_runRule_iff hr hid).1 hd⟩
    · rintro ⟨-, hkind, henabled, hfound⟩
      exact ⟨r, mem_filter.2 ⟨(mem_forKind_iff hr).2 hkind, henabled⟩, (mem_runRule_iff hr hid).2 hfound⟩
  · next hactive =>
    constructor
    · intro hd
      cases hd
    · intro h
      exact absurd h.1 hactive

/-- **The diagnostics with the id of a rule are those for its findings**, at the nodes of its kinds that are
looked at. -/
theorem mem_diagnostics_iff {text : String} {file : SourceFile} {issues : List Issue}
    (hfile : SourceFile.ofText path text = .ok (file, issues)) (hid : d.ruleId = r.id) :
    d ∈ (ofText Catalog.registry settings path text).diagnostics ↔
      ∃ sight ∈ sights Catalog.registry settings file,
        sight.active = true ∧ sight.node.kind ∈ r.kinds ∧ settings.isEnabled r.id = true ∧
          ∃ f ∈ (r.check file sight).findings, ∃ message,
            r.render f = .ok message ∧ d = f.diagnostic settings file.path r message := by
  have hissue : d ∉ issueDiagnostics settings path issues := by
    intro hd
    obtain ⟨i, -, hi⟩ := mem_filterMap.1 hd
    rw [engineDiagnostic?] at hi
    split at hi
    · obtain rfl := Option.some.inj hi
      exact id_ne_engine hr EngineRule.syntaxError_mem hid
    · cases hi
  have hof : (ofText Catalog.registry settings path text).diagnostics =
      issueDiagnostics settings path issues ++ (check Catalog.registry settings file).diagnostics := by
    simp only [ofText, hfile, Result.append]
  rw [hof, mem_append, or_iff_right hissue, check, diagnostics_foldl, nil_append, mem_flatMap]
  simp only [mem_dispatch_iff hr hid]

end Catalog

/-! ## Expressions that are looked at -/

section Sights

variable {fresh : Place → Option Routine → Option String → Context} {s : Sight} {e : Expr}

/-- What there is to see in the code of a routine. -/
def codeSights (fresh : Place → Option Routine → Option String → Context) (r : PlacedRoutine) : List Sight :=
  (Stmt.walkAll r.routine.body (fresh r.place (some r.routine) r.owner)).2

variable (hs : s.node = .expr e)

include hs

theorem mem_routineSights_iff {place : Place} {r : Routine} :
    s ∈ routineSights fresh place owner r ↔ s ∈ codeSights fresh ⟨place, owner, r⟩ := by
  rw [routineSights, codeSights, cons_append, mem_cons, mem_append, mem_map]
  constructor
  · rintro (rfl | ⟨v, -, rfl⟩ | h)
    · cases hs
    · cases hs
    · exact h
  · intro h
    exact .inr (.inr h)

theorem mem_declarationSights_iff {options : Options} {d : Declaration} :
    s ∈ declarationSights settings options d ↔
      s ∈ d.routines.flatMap (codeSights (contextFor settings options d)) := by
  have hcode := d.flatMap_items (f := Sum.elim (fun _ => []) (codeSights (contextFor settings options d)))
    fun _ => rfl
  rw [declarationSights_eq, show d.routines.flatMap (codeSights _) = _ from hcode.symm, mem_flatMap, mem_flatMap]
  refine exists_congr fun item => and_congr_right fun hitem => ?_
  cases item with
  | inl n =>
    refine iff_of_false (fun h => ?_) not_mem_nil
    obtain rfl := mem_singleton.1 h
    obtain rfl : n = .expr e := hs
    exact d.expr_not_mem_items e hitem
  | inr r => exact mem_routineSights_iff hs

/-- **The expressions that are looked at in a file are those that the walks through its routines come upon.** -/
theorem mem_sights_iff {reg : Registry} {file : SourceFile} :
    s ∈ sights reg settings file ↔ ∃ d ∈ file.declarations, ∃ r ∈ d.routines,
      s ∈ codeSights (contextFor settings (settings.optionsOf reg) d) r := by
  rw [sights, mem_flatMap]
  simp only [mem_declarationSights_iff hs, mem_flatMap]

end Sights

end Analysis

end AlLint
