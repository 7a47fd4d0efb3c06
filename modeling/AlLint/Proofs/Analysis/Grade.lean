import AlLint.Analysis.Run
import AlLint.Proofs.Analysis.Separation
import AlLint.Proofs.Report.Canonical

/-!
# The grade of a diagnostic

The severity and the category of a diagnostic, its grade, depend on nothing but its rule and the settings. Every
producer of diagnostics keeps to that: rules, the notices about rules and files that failed, the complaints
about the text of a file and about files that cannot be read. Since no rule shares its id with another one or
with the program itself, the grade is a function of the id (`Settings.grade?`). So two diagnostics of a run that
are equal in the order of a report are equal (`eq_of_isGraded`).
-/

namespace AlLint

open List

variable {r : Rule} {e : EngineRule} {sight : Sight} {a b : Diagnostic}

def EngineRule.get? (id : String) : Option EngineRule := all.find? (·.id == id)

/-- The severity and the category of the diagnostics with some rule id. -/
def Settings.grade? (s : Settings) (reg : Registry) (id : String) : Option (String × String) :=
  match reg.get? id with
  | some r => some (s.severityFor id r.severity, r.category)
  | none => (EngineRule.get? id).map fun e => (s.severityFor id e.severity, e.category)

/-- A diagnostic has the severity and the category that go with its rule id. -/
def Diagnostic.IsGraded (reg : Registry) (settings : Settings) (d : Diagnostic) : Prop :=
  settings.grade? reg d.ruleId = some (d.severity, d.category)

/-! ## Looking rules up -/

theorem EngineRule.ioError_mem : ioError ∈ all := mem_cons_of_mem _ (mem_cons_of_mem _ mem_cons_self)

/-- Looking up an item of a list in a table of the list, if no other item has its name. -/
theorem Keyed.get?_map {α β : Type} {f : α → String} (g : α → β) {xs : List α} {x : α} (hx : x ∈ xs)
    (hunique : ∀ y ∈ xs, f y = f x → y = x) : Keyed.get? (xs.map fun y => (f y, g y)) (f x) = some (g x) := by
  induction xs with
  | nil => cases hx
  | cons y rest ih =>
    rw [map_cons, get?]
    by_cases hkey : f x = f y
    · rw [if_pos hkey, hunique y mem_cons_self hkey.symm]
    · have hrest : x ∈ rest := (mem_cons.1 hx).resolve_left fun h => hkey (congrArg f h)
      rw [if_neg hkey]
      exact ih hrest fun z hz => hunique z (mem_cons_of_mem _ hz)

section Registry

variable {reg : Registry} {rules : List Rule}

theorem Registry.Holds.eq_of_id (h : reg.Holds rules) {s : Rule} (hr : r ∈ rules) (hs : s ∈ rules)
    (hid : s.id = r.id) :
    s = r :=
  inj_on_of_nodup_map h.distinct hs hr hid

theorem Registry.Holds.get?_of_mem (h : reg.Holds rules) (hr : r ∈ rules) : reg.get? r.id = some r := by
  rw [Registry.get?, h.inOrder]
  exact Keyed.get?_map id hr fun s hs => h.eq_of_id hr hs

theorem Registry.Holds.get?_optionsOf (h : reg.Holds rules) (settings : Settings) (hr : r ∈ rules) :
    (settings.optionsOf reg).get? r.id = some (settings.optionsFor r) := by
  rw [Settings.optionsOf, h.sorted_eq]
  exact Keyed.get?_map settings.optionsFor (mem_sortById.2 hr) fun s hs => h.eq_of_id hr (mem_sortById.1 hs)

theorem Registry.Holds.get?_engine (h : reg.Holds rules) (he : e ∈ EngineRule.all) :
    reg.get? e.id = none := by
  refine Keyed.get?_eq_none_of_not_mem_keys fun hmem => ?_
  rw [h.inOrder, Keyed.keys, map_map] at hmem
  obtain ⟨r, hr, hid⟩ := mem_map.1 hmem
  have hfree := h.notEngine r hr
  rw [EngineRule.has, any_eq_false] at hfree
  exact hfree e he (beq_iff_eq.2 hid.symm)

theorem EngineRule.get?_of_mem (he : e ∈ EngineRule.all) : EngineRule.get? e.id = some e := by
  simp only [EngineRule.all, mem_cons, not_mem_nil, or_false] at he
  rcases he with rfl | rfl | rfl <;> rfl

theorem Registry.Holds.grade_of_mem (h : reg.Holds rules) (settings : Settings) (hr : r ∈ rules) :
    settings.grade? reg r.id = some (settings.severityFor r.id r.severity, r.category) := by
  rw [Settings.grade?, h.get?_of_mem hr]

theorem Registry.Holds.grade_engine (h : reg.Holds rules) (settings : Settings) (he : e ∈ EngineRule.all) :
    settings.grade? reg e.id = some (settings.severityFor e.id e.severity, e.category) := by
  rw [Settings.grade?, h.get?_engine he, EngineRule.get?_of_mem he]
  rfl

end Registry

/-! ## What is produced is graded -/

namespace Analysis

variable {reg : Registry} {rules : List Rule} {settings : Settings} {path : String} {d : Diagnostic}

theorem isGraded_of_engineDiagnostic? (h : reg.Holds rules) (he : e ∈ EngineRule.all) {line column : Nat}
    {message : String} (hd : d ∈ (engineDiagnostic? settings e path line column message).toList) :
    d.IsGraded reg settings := by
  rw [engineDiagnostic?, Option.mem_toList] at hd
  by_cases hon : settings.isEnabled e.id = true
  · rw [if_pos hon] at hd
    obtain rfl := Option.some.inj hd
    exact h.grade_engine settings he
  · rw [if_neg hon] at hd
    cases hd

theorem isGraded_of_mem_report (h : reg.Holds rules) (hr : r ∈ rules) {findings : List Finding}
    (hd : d ∈ (report settings path r findings).1) : d.IsGraded reg settings := by
  induction findings with
  | nil => cases hd
  | cons f rest ih =>
    rw [report] at hd
    cases hrender : r.render f with
    | error o =>
      rw [hrender] at hd
      cases hd
    | ok message =>
      simp only [hrender, mem_cons] at hd
      rcases hd with rfl | hd
      · exact h.grade_of_mem settings hr
      · exact ih hd

theorem isGraded_of_mem_runRule (h : reg.Holds rules) (hr : r ∈ rules) {file : SourceFile}
    (hd : d ∈ (runRule settings file sight r).diagnostics) : d.IsGraded reg settings := by
  simp only [runRule] at hd
  split at hd
  · exact isGraded_of_mem_report h hr hd
  · rcases mem_append.1 hd with hd | hd
    · exact isGraded_of_mem_report h hr hd
    · exact isGraded_of_engineDiagnostic? h EngineRule.internalError_mem hd

theorem isGraded_of_mem_sourcedAt (h : reg.Holds rules) {file : SourceFile} {s : Sourced}
    (hs : s ∈ sourcedAt reg settings file sight) : s.diagnostic.IsGraded reg settings := by
  rw [sourcedAt] at hs
  split at hs
  · obtain ⟨r, hr, hs⟩ := mem_flatMap.1 hs
    obtain ⟨d, hd, rfl⟩ := mem_map.1 hs
    exact isGraded_of_mem_runRule h (h.mem_of_mem_forKind (mem_filter.1 hr).1) hd
  · cases hs

theorem isGraded_of_mem_ofText (h : reg.Holds rules) {text : String}
    (hd : d ∈ (ofText reg settings path text).diagnostics) : d.IsGraded reg settings := by
  rw [← map_diagnostic_sourced] at hd
  obtain ⟨s, hs, rfl⟩ := mem_map.1 hd
  rw [sourced] at hs
  cases hread : SourceFile.ofText path text with
  | error e =>
    rw [hread] at hs
    obtain ⟨d, hfault, rfl⟩ := mem_map.1 hs
    exact isGraded_of_engineDiagnostic? h EngineRule.internalError_mem hfault
  | ok read =>
    rw [hread] at hs
    rcases mem_append.1 hs with hs | hs
    · obtain ⟨d, hissue, rfl⟩ := mem_map.1 hs
      obtain ⟨i, -, hi⟩ := mem_filterMap.1 hissue
      exact isGraded_of_engineDiagnostic? h EngineRule.syntaxError_mem (Option.mem_toList.2 hi)
    · obtain ⟨sight, -, hs⟩ := mem_flatMap.1 hs
      exact isGraded_of_mem_sourcedAt h hs

end Analysis

variable {reg : Registry} {rules : List Rule} {settings : Settings}

theorem FileResult.isGraded_ofSource (h : reg.Holds rules) {source : Files.Source} {d : Diagnostic}
    (hd : d ∈ (FileResult.ofSource reg settings source).result.diagnostics) : d.IsGraded reg settings := by
  rw [ofSource] at hd
  split at hd
  · exact Analysis.isGraded_of_mem_ofText h hd
  · exact Analysis.isGraded_of_engineDiagnostic? h EngineRule.ioError_mem hd

theorem FileResult.isGraded_ofMissing (h : reg.Holds rules) {path : String} {d : Diagnostic}
    (hd : d ∈ (FileResult.ofMissing settings path).result.diagnostics) : d.IsGraded reg settings :=
  Analysis.isGraded_of_engineDiagnostic? h EngineRule.ioError_mem hd

/-- Graded diagnostics of one rule have one severity and one category. -/
theorem Diagnostic.grade_eq (ha : a.IsGraded reg settings) (hb : b.IsGraded reg settings)
    (h : a.ruleId = b.ruleId) : a.severity = b.severity ∧ a.category = b.category := by
  have hgrade : some (a.severity, a.category) = some (b.severity, b.category) := by
    rw [← ha, ← hb, h]
  exact Prod.mk.inj (Option.some.inj hgrade)

/-- **Graded diagnostics that are equal in the order of a report are equal.** -/
theorem Diagnostic.eq_of_isGraded (ha : a.IsGraded reg settings) (hb : b.IsGraded reg settings)
    (h : Diagnostic.order a b = .eq) : a = b := by
  rw [order_eq, Ordering.then_eq_eq] at h
  have hkey : a.key = b.key := Key.eq_of_order_eq h.1
  have hmessage : a.message = b.message := Std.LawfulEqOrd.compare_eq_iff_eq.1 h.2
  obtain ⟨hpath, hline, hcolumn, hid⟩ := Key.mk.inj hkey
  obtain ⟨hseverity, hcategory⟩ := grade_eq ha hb hid
  cases a
  cases b
  simp_all

end AlLint
