import AlLint.Proofs.Analysis.Visits
import AlLint.Proofs.Rule.Options
import AlLint.Proofs.Rule.Registry
import Mathlib.Data.List.Nodup

/-!
# Rules do not disturb each other

All rules look at the same walk through a file, one after another at every node, and their diagnostics end up
in one list. Here every diagnostic is traced back to the rule that it comes from (`sourced`). Two runs that
differ in one rule only, in whatever way, have the same diagnostics of all other origins, in the same order.

The argument goes from the inside out. Of another rule, the same comes at a node (`runRule_eq`). The other
rules that look at the node are the same ones in the same order (`filter_enabled_eq`). And the walk comes upon
the same nodes (`sights_eq_map`).
-/

namespace AlLint

open List

variable {id path : String} {d : Diagnostic} {sight : Sight}

theorem EngineRule.syntaxError_mem : syntaxError ∈ all := mem_cons_self

theorem EngineRule.internalError_mem : internalError ∈ all := mem_cons_of_mem _ mem_cons_self

/-- Whether a diagnostic is about a rule: a complaint of the rule, or the notice that it failed. -/
def Diagnostic.IsAbout (id : String) (d : Diagnostic) : Prop :=
  d.ruleId = id ∨ d.ruleId = EngineRule.internalError.id ∧
    s!"rule '{id}' failed on ".toList <+: d.message.toList

instance (id : String) (d : Diagnostic) : Decidable (d.IsAbout id) := inferInstanceAs (Decidable (_ ∨ _ ∧ _))

namespace Analysis

/-- A diagnostic with the id of the rule that it comes from. What is wrong with the file itself comes from no
rule. -/
structure Sourced where
  rule? : Option String
  diagnostic : Diagnostic

/-- Those that do not come from some rule. -/
def others (id : String) (ds : List Sourced) : List Sourced := ds.filter fun d => d.rule? ≠ some id

/-- The diagnostics of the rules for a node, with their rules. -/
def sourcedAt (reg : Registry) (settings : Settings) (file : SourceFile) (sight : Sight) : List Sourced :=
  if sight.active then
    ((reg.forKind sight.node.kind).filter fun r => settings.isEnabled r.id).flatMap fun r =>
      (runRule settings file sight r).diagnostics.map (Sourced.mk (some r.id))
  else []

/-- The diagnostics of an analysis, with the rules that they come from. -/
def sourced (reg : Registry) (settings : Settings) (path text : String) : List Sourced :=
  match SourceFile.ofText path text with
  | .error o => (fileFault settings path (.numeral o)).diagnostics.map (Sourced.mk none)
  | .ok (file, issues) =>
    (issueDiagnostics settings path issues).map (Sourced.mk none) ++
      (sights reg settings file).flatMap (sourcedAt reg settings file)

/-! ## Nothing is added or lost -/

theorem diagnostics_foldl {α : Type} (f : α → Result) (xs : List α) (start : Result) :
    (xs.foldl (fun acc x => acc.append (f x)) start).diagnostics =
      start.diagnostics ++ xs.flatMap fun x => (f x).diagnostics := by
  induction xs generalizing start with
  | nil => simp
  | cons x rest ih => rw [foldl_cons, ih, Result.append, flatMap_cons, append_assoc]

theorem map_mk_diagnostic (rule? : Option String) (ds : List Diagnostic) :
    (ds.map (Sourced.mk rule?)).map Sourced.diagnostic = ds := by
  rw [map_map]
  exact map_id' ds

theorem diagnostics_dispatch (reg : Registry) (settings : Settings) (file : SourceFile) (sight : Sight) :
    (dispatch reg settings file sight).diagnostics =
      (sourcedAt reg settings file sight).map Sourced.diagnostic := by
  rw [dispatch, sourcedAt]
  by_cases h : sight.active
  · rw [if_pos h, if_pos h, diagnostics_foldl, map_flatMap]
    simp only [map_mk_diagnostic, nil_append]
  · rw [if_neg h, if_neg h]
    rfl

/-- The diagnostics with their origins are the diagnostics of the analysis. -/
theorem map_diagnostic_sourced (reg : Registry) (settings : Settings) (path text : String) :
    (sourced reg settings path text).map Sourced.diagnostic =
      (ofText reg settings path text).diagnostics := by
  rw [sourced, ofText]
  cases SourceFile.ofText path text with
  | error e => exact map_mk_diagnostic ..
  | ok read =>
    have hcheck : (check reg settings read.1).diagnostics =
        (sights reg settings read.1).flatMap fun s =>
          (sourcedAt reg settings read.1 s).map Sourced.diagnostic := by
      rw [check, diagnostics_foldl]
      simp only [diagnostics_dispatch, nil_append]
    simp only [Result.append, hcheck, map_append, map_mk_diagnostic, map_flatMap]

/-! ## Whom a diagnostic is about -/

theorem ruleId_of_mem_report {settings : Settings} {r : Rule} {findings : List Finding}
    (h : d ∈ (report settings path r findings).1) : d.ruleId = r.id := by
  induction findings with
  | nil => simp [report] at h
  | cons f rest ih =>
    rw [report] at h
    cases hrender : r.render f with
    | error o => simp [hrender] at h
    | ok message =>
      simp only [hrender, mem_cons] at h
      rcases h with rfl | h
      · rfl
      · exact ih h

theorem isAbout_of_mem_ruleFault {settings : Settings} {r : Rule} {node : Node} {fault : Fault}
    (h : d ∈ (ruleFault settings path r node fault).diagnostics) : d.IsAbout r.id := by
  simp only [ruleFault, engineDiagnostic?, Option.mem_toList] at h
  split at h
  · obtain rfl := Option.some.inj h
    refine .inr ⟨rfl, ?_⟩
    simp only [String.toList_append, append_assoc, prefix_append_right_inj]
    exact prefix_append ..
  · cases h

theorem isAbout_of_mem_runRule {settings : Settings} {file : SourceFile} {r : Rule}
    (h : d ∈ (runRule settings file sight r).diagnostics) : d.IsAbout r.id := by
  simp only [runRule] at h
  split at h
  · exact .inl (ruleId_of_mem_report h)
  · rcases mem_append.1 h with h | h
    · exact .inl (ruleId_of_mem_report h)
    · exact isAbout_of_mem_ruleFault h

theorem isAbout_of_mem_sourced {reg : Registry} {settings : Settings} {text : String} {d : Sourced}
    (hd : d ∈ sourced reg settings path text) (hid : d.rule? = some id) : d.diagnostic.IsAbout id := by
  have hnone : ∀ ds : List Diagnostic, d ∉ ds.map (Sourced.mk none) := by
    intro ds hmem
    obtain ⟨x, -, rfl⟩ := mem_map.1 hmem
    cases hid
  rw [sourced] at hd
  cases hread : SourceFile.ofText path text with
  | error e =>
    rw [hread] at hd
    exact absurd hd (hnone _)
  | ok read =>
    rw [hread] at hd
    obtain ⟨sight, -, hd⟩ := mem_flatMap.1 ((mem_append.1 hd).resolve_left (hnone _))
    rw [sourcedAt] at hd
    split at hd
    · obtain ⟨r, -, hd⟩ := mem_flatMap.1 hd
      obtain ⟨x, hx, rfl⟩ := mem_map.1 hd
      obtain rfl : r.id = id := Option.some.inj hid
      exact isAbout_of_mem_runRule hx
    · cases hd

/-! ## The walk comes upon the same nodes -/

theorem declarationSights_withOptions {settings settings' : Settings}
    (h : settings'.namePrefix = settings.namePrefix) (o o' : Options) (d : Declaration) :
    declarationSights settings' o' d = (declarationSights settings o d).map (·.withOptions o') := by
  have hfresh : ∀ place routine owner, contextFor settings' o' d place routine owner =
      (contextFor settings o d place routine owner).withOptions o' := by
    intro place routine owner
    rw [contextFor, h]
    rfl
  rw [declarationSights_eq, declarationSights_eq, map_flatMap]
  refine flatMap_congr fun item _ => ?_
  cases item with
  | inl n =>
    simp only [itemSights, hfresh]
    rfl
  | inr r =>
    simp only [itemSights, routineSights, hfresh, Stmt.walkAll_carries r.routine.body o', map_cons,
      map_append, map_map, cons_append]
    rfl

/-- The sights of a file depend on the rules and the settings in the options only. -/
theorem sights_eq_map {settings settings' : Settings} (h : settings'.namePrefix = settings.namePrefix)
    (reg reg' : Registry) (file : SourceFile) :
    sights reg' settings' file = (sights reg settings file).map
      (·.withOptions (settings'.optionsOf reg')) := by
  rw [sights, sights, map_flatMap]
  exact flatMap_congr fun d _ => declarationSights_withOptions h _ _ d

theorem options_of_mem_sights {reg : Registry} {settings : Settings} {file : SourceFile}
    (h : sight ∈ sights reg settings file) : sight.context.options = settings.optionsOf reg := by
  rw [sights_eq_map rfl reg reg] at h
  obtain ⟨s, -, rfl⟩ := mem_map.1 h
  rfl

/-! ## Two runs that differ in one rule -/

/-- Two registries with the same rules but for one, which may differ in everything but its id, and settings
that are the same but for that rule. -/
structure OneRuleChanged (before after : List Rule) (r r' : Rule) (reg reg' : Registry)
    (settings settings' : Settings) : Prop where
  sameId : r'.id = r.id
  registered : Registry.ofRules (before ++ r :: after) = .ok reg
  registered' : Registry.ofRules (before ++ r' :: after) = .ok reg'
  samePrefix : settings'.namePrefix = settings.namePrefix
  sameOthers : ∀ id, id ≠ r.id → settings'.rules.get? id = settings.rules.get? id

namespace OneRuleChanged

variable {before after : List Rule} {r r' : Rule} {reg reg' : Registry} {settings settings' : Settings}
  (h : OneRuleChanged before after r r' reg reg' settings settings')

include h

theorem holds : Registry.Holds reg (before ++ r :: after) := Registry.holds_ofRules h.registered

theorem holds' : Registry.Holds reg' (before ++ r' :: after) := Registry.holds_ofRules h.registered'

theorem id_ne_of_mem {s : Rule} (hs : s ∈ before ++ after) : s.id ≠ r.id := by
  have hdistinct := h.holds.distinct
  rw [map_append, map_cons, nodup_middle, ← map_append] at hdistinct
  intro heq
  exact (nodup_cons.1 hdistinct).1 (heq ▸ mem_map_of_mem hs)

theorem isEnabled_eq (hid : id ≠ r.id) : settings'.isEnabled id = settings.isEnabled id := by
  rw [Settings.isEnabled, h.sameOthers id hid, Settings.isEnabled]

theorem severityFor_eq (hid : id ≠ r.id) (default : String) :
    settings'.severityFor id default = settings.severityFor id default := by
  rw [Settings.severityFor, h.sameOthers id hid, Settings.severityFor]

theorem optionsFor_eq {s : Rule} (hs : s.id ≠ r.id) : settings'.optionsFor s = settings.optionsFor s := by
  rw [Settings.optionsFor, h.sameOthers s.id hs, Settings.optionsFor]

/-! ### What the other rules say -/

/-- The program's own diagnostics are the same, since no rule has an id of the program's own. -/
theorem engineDiagnostic?_eq {rule : EngineRule} (hrule : rule ∈ EngineRule.all) (path : String)
    (line column : Nat) (message : String) :
    engineDiagnostic? settings' rule path line column message =
      engineDiagnostic? settings rule path line column message := by
  have hid : rule.id ≠ r.id := by
    intro heq
    have hnot := h.holds.notEngine r (by simp)
    rw [EngineRule.has, any_eq_false] at hnot
    exact hnot rule hrule (by simp [heq])
  rw [engineDiagnostic?, h.isEnabled_eq hid, h.severityFor_eq hid, engineDiagnostic?]

theorem ruleFault_eq (path : String) (s : Rule) (node : Node) (fault : Fault) :
    ruleFault settings' path s node fault = ruleFault settings path s node fault := by
  simp only [ruleFault, h.engineDiagnostic?_eq EngineRule.internalError_mem]

theorem fileFault_eq (path : String) (fault : Fault) :
    fileFault settings' path fault = fileFault settings path fault := by
  simp only [fileFault, h.engineDiagnostic?_eq EngineRule.internalError_mem]

theorem issueDiagnostics_eq (path : String) (issues : List Issue) :
    issueDiagnostics settings' path issues = issueDiagnostics settings path issues := by
  simp only [issueDiagnostics, h.engineDiagnostic?_eq EngineRule.syntaxError_mem]

theorem report_eq (path : String) {s : Rule} (hs : s.id ≠ r.id) (findings : List Finding) :
    report settings' path s findings = report settings path s findings := by
  induction findings with
  | nil => rfl
  | cons f rest ih => rw [report, report, ih, h.severityFor_eq hs]

theorem optionsOf_eq : settings'.optionsOf reg' = (settings.optionsOf reg).set r.id
    (settings'.optionsFor r') := by
  -- the new registry is the old one with the rule exchanged
  let exchange : Rule → Rule := fun s => if s.id = r.id then r' else s
  have hid : ∀ s, (exchange s).id = s.id := by
    intro s
    by_cases hs : s.id = r.id <;> simp [exchange, hs, h.sameId]
  have hothers : ∀ rules : List Rule, (∀ s ∈ rules, s ∈ before ++ after) → rules.map exchange = rules := by
    intro rules hrules
    have hsame : ∀ s ∈ rules, exchange s = s := fun s hs => if_neg (h.id_ne_of_mem (hrules s hs))
    exact (map_congr_left hsame).trans (map_id' rules)
  have hrules : before ++ r' :: after = (before ++ r :: after).map exchange := by
    rw [map_append, map_cons, hothers before fun s hs => mem_append_left _ hs,
      hothers after fun s hs => mem_append_right _ hs, show exchange r = r' from if_pos rfl]
  rw [Settings.optionsOf, Settings.optionsOf, h.holds'.sorted_eq, h.holds.sorted_eq, hrules,
    Registry.map_sortById hid, Options.set, map_map, map_map]
  refine map_congr_left fun s _ => ?_
  by_cases hs : s.id = r.id
  · simp [exchange, hs, h.sameId]
  · simp [exchange, hs, h.optionsFor_eq hs]

omit h in
theorem mem_or_eq {s : Rule} (hs : s ∈ before ++ r :: after) : s ∈ before ++ after ∨ s = r := by
  simp only [mem_append, mem_cons] at hs ⊢
  rcases hs with hs | rfl | hs
  · exact .inl (.inl hs)
  · exact .inr rfl
  · exact .inl (.inr hs)

theorem optionsOf_eq_of_same (hsame : settings'.optionsFor r' = settings.optionsFor r) :
    settings'.optionsOf reg' = settings.optionsOf reg := by
  rw [h.optionsOf_eq, hsame]
  refine Options.set_eq_self fun e he hid => ?_
  rw [Settings.optionsOf, h.holds.sorted_eq] at he
  obtain ⟨s, hs, rfl⟩ := mem_map.1 he
  rcases mem_or_eq (Registry.mem_sortById.1 hs) with hs | rfl
  · exact absurd hid (h.id_ne_of_mem hs)
  · rfl

section OtherRule

variable {s : Rule} (hs : s ∈ before ++ after)
  (hoptions : s.KeepsToItself ∨ s.IgnoresOptionsOf r.id ∨ settings'.optionsFor r' = settings.optionsFor r)

include hs hoptions

theorem check_eq (file : SourceFile) (hsight : sight.context.options = settings.optionsOf reg) :
    s.check file (sight.withOptions (settings'.optionsOf reg')) = s.check file sight := by
  have hignores : s.IgnoresOptionsOf r.id → s.check file (sight.withOptions (settings'.optionsOf reg')) =
      s.check file sight := by
    intro hs
    rw [h.optionsOf_eq, ← hsight]
    exact hs file sight _
  rcases hoptions with hgiven | hs | hsame
  · exact hignores (hgiven.ignores (h.id_ne_of_mem hs))
  · exact hignores hs
  · rw [h.optionsOf_eq_of_same hsame, ← hsight, Sight.withOptions_self]

theorem runRule_eq (file : SourceFile) (hsight : sight.context.options = settings.optionsOf reg) :
    runRule settings' file (sight.withOptions (settings'.optionsOf reg')) s =
      runRule settings file sight s := by
  simp only [runRule, h.check_eq hs hoptions file hsight, h.report_eq file.path (h.id_ne_of_mem hs),
    h.ruleFault_eq, Sight.withOptions_node]

end OtherRule

/-- The other rules of a kind are the same ones, in the same order. -/
theorem filter_forKind_eq (kind : String) :
    ((reg'.forKind kind).filter fun s => s.id ≠ r.id) = (reg.forKind kind).filter fun s => s.id ≠ r.id := by
  rw [h.holds'.filter_forKind, h.holds.filter_forKind]
  simp [h.sameId]

theorem filter_enabled_eq (kind : String) :
    (((reg'.forKind kind).filter fun s => settings'.isEnabled s.id).filter fun s => s.id ≠ r.id) =
      ((reg.forKind kind).filter fun s => settings.isEnabled s.id).filter fun s => s.id ≠ r.id :=
  calc
    (((reg'.forKind kind).filter fun s => settings'.isEnabled s.id).filter fun s => s.id ≠ r.id) =
        ((reg'.forKind kind).filter fun s => s.id ≠ r.id).filter fun s => settings'.isEnabled s.id :=
          filter_comm ..
    _ = ((reg.forKind kind).filter fun s => s.id ≠ r.id).filter fun s => settings'.isEnabled s.id := by
        rw [h.filter_forKind_eq]
    _ = ((reg.forKind kind).filter fun s => s.id ≠ r.id).filter fun s => settings.isEnabled s.id := by
        refine filter_congr fun s hs => h.isEnabled_eq ?_
        simpa using (mem_filter.1 hs).2
    _ = ((reg.forKind kind).filter fun s => settings.isEnabled s.id).filter fun s =>
      s.id ≠ r.id := filter_comm ..

end OneRuleChanged

/-! ## The other diagnostics -/

theorem others_append (id : String) (xs ys : List Sourced) :
    others id (xs ++ ys) = others id xs ++ others id ys :=
  filter_append ..

theorem others_flatMap {α : Type} (id : String) (xs : List α) (f : α → List Sourced) :
    others id (xs.flatMap f) = xs.flatMap fun x => others id (f x) := filter_flatMap ..

/-- What does not come from a rule comes from the rules with other ids. -/
theorem others_shares (id : String) (share : Rule → List Diagnostic) (rules : List Rule) :
    others id (rules.flatMap fun s => (share s).map (Sourced.mk (some s.id))) =
      (rules.filter fun s => s.id ≠ id).flatMap fun s => (share s).map (Sourced.mk (some s.id)) := by
  induction rules with
  | nil => rfl
  | cons s rest ih =>
    rw [flatMap_cons, others_append, ih, filter_cons, others, filter_map]
    by_cases hid : s.id = id
    · simp [hid, Function.comp_def]
    · simp [hid, Function.comp_def]

variable {before after : List Rule} {r r' : Rule} {reg reg' : Registry} {settings settings' : Settings}

theorem others_sourcedAt (h : OneRuleChanged before after r r' reg reg' settings settings')
    (hoptions : ∀ s ∈ before ++ after,
      s.KeepsToItself ∨ s.IgnoresOptionsOf r.id ∨ settings'.optionsFor r' = settings.optionsFor r)
    (file : SourceFile) (hsight : sight.context.options = settings.optionsOf reg) :
    others r.id (sourcedAt reg' settings' file (sight.withOptions (settings'.optionsOf reg'))) =
      others r.id (sourcedAt reg settings file sight) := by
  rw [sourcedAt, sourcedAt, Sight.withOptions_active, Sight.withOptions_node]
  by_cases hactive : sight.active
  · rw [if_pos hactive, if_pos hactive, others_shares, others_shares, h.filter_enabled_eq]
    refine flatMap_congr fun s hs => ?_
    obtain ⟨hs, hid⟩ := mem_filter.1 hs
    have hmem : s ∈ before ++ after := by
      refine (OneRuleChanged.mem_or_eq (h.holds.mem_of_mem_forKind (mem_filter.1 hs).1)).resolve_right ?_
      rintro rfl
      simp at hid
    rw [h.runRule_eq hmem (hoptions s hmem) file hsight]
  · rw [if_neg hactive, if_neg hactive]

theorem others_sourced (h : OneRuleChanged before after r r' reg reg' settings settings')
    (hoptions : ∀ s ∈ before ++ after,
      s.KeepsToItself ∨ s.IgnoresOptionsOf r.id ∨ settings'.optionsFor r' = settings.optionsFor r)
    (path text : String) :
    others r.id (sourced reg' settings' path text) = others r.id (sourced reg settings path text) := by
  rw [sourced, sourced]
  cases SourceFile.ofText path text with
  | error e => simp only [h.fileFault_eq]
  | ok read =>
    obtain ⟨file, issues⟩ := read
    simp only [others_append, others_flatMap, h.issueDiagnostics_eq, sights_eq_map h.samePrefix reg reg',
      flatMap_map]
    refine congrArg _ (flatMap_congr fun sight hsight => ?_)
    exact others_sourcedAt h hoptions file (options_of_mem_sights hsight)

theorem filter_others (id : String) (reg : Registry) (settings : Settings) (path text : String) :
    ((ofText reg settings path text).diagnostics.filter fun d => ¬ d.IsAbout id) =
      ((others id (sourced reg settings path text)).map Sourced.diagnostic).filter fun d =>
        ¬ d.IsAbout id := by
  rw [← map_diagnostic_sourced, filter_map, filter_map, others, filter_filter]
  refine congrArg _ (filter_congr fun d hd => ?_)
  by_cases hid : d.rule? = some id
  · simp [hid, isAbout_of_mem_sourced hd hid]
  · simp [hid]

/-- **Rules do not interfere.** Let one rule of a registry change in any way but in its id, and what is set
for it as well. Then the diagnostics of a text that do not come from that rule are the same, in the same
order: those of other origins, and those that are not about it by their rule and wording. Other rules find the
options of the changed one in the context; if these change, they must not look at them. The rules that come
with the program never do, and neither do rules that are made of formulas, as long as these stay inside of
their view. -/
theorem rules_do_not_interfere (h : OneRuleChanged before after r r' reg reg' settings settings')
    (hoptions : ∀ s ∈ before ++ after,
      s.KeepsToItself ∨ s.IgnoresOptionsOf r.id ∨ settings'.optionsFor r' = settings.optionsFor r)
    (path text : String) :
    (ofText reg settings path text).diagnostics = (sourced reg settings path text).map Sourced.diagnostic ∧
      (ofText reg' settings' path text).diagnostics =
        (sourced reg' settings' path text).map Sourced.diagnostic ∧
      others r.id (sourced reg settings path text) = others r.id (sourced reg' settings' path text) ∧
      ((ofText reg settings path text).diagnostics.filter fun d => ¬ d.IsAbout r.id) =
        (ofText reg' settings' path text).diagnostics.filter fun d => ¬ d.IsAbout r.id := by
  have hothers := others_sourced h hoptions path text
  refine ⟨(map_diagnostic_sourced ..).symm, (map_diagnostic_sourced ..).symm, hothers.symm, ?_⟩
  rw [filter_others, filter_others, hothers]

/-- A rule about names that complains and then fails wherever it looks. -/
def failingNaming : Rule :=
  { Catalog.naming with
    severity := "info"
    kinds := ["call", "declaration"]
    message := "%2"
    check := fun _ s => { findings := [{ span := s.node.span }], fault := some .longNumber }
    options := [("label_suffixes", .list [])] }

def failingSettings : Settings :=
  { rules := [("naming", { severity := some "error", options := [("error_suffix", .text "E")] })] }

theorem failing_rule_does_not_interfere :
    ∃ reg reg', OneRuleChanged [Catalog.commitInLoop] [Catalog.nestedConditionals]
        Catalog.naming failingNaming reg reg' {} failingSettings ∧
      others "naming" (sourced reg {} "Post.al"
        "codeunit 1 Post \x7b trigger OnRun() begin while A do Commit(); end; \x7d") =
        others "naming" (sourced reg' failingSettings "Post.al"
          "codeunit 1 Post \x7b trigger OnRun() begin while A do Commit(); end; \x7d") := by
  have hset : ∀ id, id ≠ Catalog.naming.id → failingSettings.rules.get? id = none := by
    intro id hid
    exact if_neg hid
  have hchanged : OneRuleChanged [Catalog.commitInLoop] [Catalog.nestedConditionals]
      Catalog.naming failingNaming _ _ {} failingSettings := ⟨rfl, rfl, rfl, rfl, hset⟩
  have hgiven : ∀ s ∈ [Catalog.commitInLoop] ++ [Catalog.nestedConditionals], s.KeepsToItself := by
    intro s hs
    simp only [cons_append, nil_append, mem_cons, not_mem_nil, or_false] at hs
    rcases hs with rfl | rfl
    · exact .inl (by simp [Catalog.rules])
    · exact .inl (by simp [Catalog.rules])
  exact ⟨_, _, hchanged, (rules_do_not_interfere hchanged (fun s hs => .inl (hgiven s hs)) _ _).2.2.1⟩

/-- A rule that complains about objects if the labels of errors have to end with an `E`, which is up to
another rule. -/
def curious : Rule where
  id := "curious"
  category := "CodeQuality"
  severity := "info"
  kinds := ["declaration"]
  message := "curious"
  check := fun _ s =>
    match s.context.option? "naming" "error_suffix" with
    | some (.text "E") => { findings := [{ span := s.node.span, message := some "curious" }] }
    | _ => {}

/-- **A rule can look at what is set for another one.** Here nothing changes but the options of one rule, and
the other one begins to complain. -/
theorem curious_rule_interferes :
    ∃ reg, OneRuleChanged [curious] [] Catalog.naming Catalog.naming reg reg {} failingSettings ∧
      others "naming" (sourced reg {} "" lossyText) ≠ others "naming"
        (sourced reg failingSettings "" lossyText) := by
  let reg : Registry := (Registry.ofRules [curious, Catalog.naming]).toOption.getD {}
  have hset : ∀ id, id ≠ Catalog.naming.id → failingSettings.rules.get? id = none := by
    intro id hid
    exact if_neg hid
  have hchanged : OneRuleChanged [curious] [] Catalog.naming Catalog.naming reg reg {} failingSettings :=
    ⟨rfl, rfl, rfl, rfl, hset⟩
  obtain ⟨tree, o, e, c₁, c₂, c₃, htree, hobjects, hissues, hkeyword, -⟩ := lossy_read
  have hmade : ∃ d, Declaration.ofObject ⟨lossyText, (Scan.ofText lossyText).eof⟩ o = .ok ⟨some d, []⟩ := by
    simp only [Declaration.ofObject, Declaration.contents?, hkeyword]
    exact ⟨_, rfl⟩
  obtain ⟨d, hmade⟩ := hmade
  have hfile := SourceFile.ofText_of_object "" htree hobjects hissues hmade
  -- as things are set at first, the rule says nothing
  have hquiet : ∀ x ∈ sourced reg {} "" lossyText, x.rule? ≠ some "curious" := by
    intro x hx
    simp only [sourced, hfile, mem_append, mem_map, mem_flatMap] at hx
    rcases hx with ⟨_, -, rfl⟩ | ⟨sight, hsight, hx⟩
    · simp
    · have hcheck : curious.check ⟨"", lossyText, [d], tree.comments⟩ sight = {} := by
        simp only [curious, Context.option?, options_of_mem_sights hsight]
        rfl
      rw [sourcedAt] at hx
      split at hx
      · obtain ⟨r, hr, hx⟩ := mem_flatMap.1 hx
        obtain ⟨x, hx, rfl⟩ := mem_map.1 hx
        intro hid
        have hr := hchanged.holds.mem_of_mem_forKind (mem_filter.1 hr).1
        simp only [cons_append, nil_append, mem_cons, not_mem_nil, or_false] at hr
        rcases hr with rfl | rfl
        · simp [runRule, hcheck, report] at hx
        · exact absurd (Option.some.inj hid) (by decide)
      · cases hx
  -- afterwards it finds what it looks for, and complains about the object
  have hloud : ∃ x ∈ sourced reg failingSettings "" lossyText, x.rule? = some "curious" := by
    let sight : Sight := ⟨.declaration d, contextFor failingSettings (failingSettings.optionsOf reg)
      d .declaration none none⟩
    have hsight : sight ∈ sights reg failingSettings ⟨"", lossyText, [d], tree.comments⟩ := by
      simp [sights, declarationSights, sight]
    let said : Diagnostic := ⟨"curious", "info", "CodeQuality", "", d.span.line, d.span.column, "curious"⟩
    have hsaid : (runRule failingSettings ⟨"", lossyText, [d], tree.comments⟩ sight curious).diagnostics =
      [said] := rfl
    have hlooks : curious ∈ (reg.forKind "declaration").filter fun r => failingSettings.isEnabled r.id :=
      mem_filter.2 ⟨mem_cons_self, rfl⟩
    refine ⟨⟨some "curious", said⟩, ?_, rfl⟩
    simp only [sourced, hfile]
    refine mem_append_right _ (mem_flatMap.2 ⟨sight, hsight, ?_⟩)
    rw [sourcedAt, if_pos (show sight.active = true from rfl)]
    exact mem_flatMap.2 ⟨curious, hlooks, mem_map_of_mem (hsaid ▸ mem_singleton_self said)⟩
  refine ⟨reg, hchanged, fun hsame => ?_⟩
  obtain ⟨x, hx, hrule⟩ := hloud
  have hother : x ∈ others "naming" (sourced reg failingSettings "" lossyText) :=
    mem_filter.2 ⟨hx, by simp [hrule]⟩
  rw [← hsame] at hother
  exact hquiet x (mem_filter.1 hother).1 hrule

end Analysis

end AlLint
