import AlLint.Proofs.Analysis.Schedule
import AlLint.Proofs.Reading.Round

/-!
# The verdict of a run

A report keeps one diagnostic of each place and rule and does not look at how grave the others are. The verdict
of a run does not suffer from that: since the severity of a diagnostic depends on its rule alone, the one that
stays is as grave as those that go.
-/

namespace AlLint

open List

/-- What is true of some diagnostic of a report is true of some that went into it, and the other way round, if
it depends on the place and the rule alone. -/
theorem Diagnostic.any_finalize {ds : List Diagnostic} {p : Diagnostic → Bool}
    (h : ∀ a ∈ ds, ∀ b ∈ ds, a.key = b.key → p a = p b) : (finalize ds).any p = ds.any p := by
  rw [Bool.eq_iff_iff, any_eq_true, any_eq_true]
  constructor
  · rintro ⟨d, hd, hp⟩
    exact ⟨d, mem_of_mem_finalize hd, hp⟩
  · rintro ⟨d, hd, hp⟩
    have hkey : d.key ∈ (finalize ds).map key := mem_keys_finalize.2 (mem_map_of_mem hd)
    obtain ⟨e, he, hkey⟩ := mem_map.1 hkey
    exact ⟨e, he, (h e (mem_of_mem_finalize he) d hd hkey).trans hp⟩

theorem Severity.rankOf_label (s : Severity) : rankOf s.label = s.rank := by cases s <;> rfl

theorem Severity.atLeast_of_le {s t : Severity} (h : s.rank ≤ t.rank) {severity : String}
    (hsevere : atLeast severity t.label = true) : atLeast severity s.label = true := by
  rw [atLeast, decide_eq_true_eq, rankOf_label] at hsevere ⊢
  exact Nat.le_trans h hsevere

/-- A run has findings exactly if it is complete and something counts for the threshold. -/
theorem Report.status_outcome_eq_one {threshold : String} {completed : Bool} {ds : List Diagnostic} :
    (outcome threshold completed ds).status = 1 ↔
      completed = true ∧ ds.any (fun d => Severity.atLeast d.severity threshold) = true := by
  unfold outcome
  cases completed with
  | false => simp [Outcome.status]
  | true => cases ds.any fun d => Severity.atLeast d.severity threshold <;> simp [Outcome.status]

namespace Run

open Command (AnalyzeRequest statusOf)

/-- **The verdict of a run is that of all its diagnostics**, and a run that fails for some threshold fails for
every lower one. Files may be missing, unreadable, or not done when the time is up. -/
theorem verdict_of_all {reg : Registry} {rules : List Rule} (hreg : Registry.ofRules rules = .ok reg)
    (settings : Settings) (sources : Files.Sources) (total : Nat) (timedOut : Bool) :
    let missing := sources.missing.map (FileResult.ofMissing settings)
    let done := sources.files.map (FileResult.ofSource reg settings)
    let collected := (missing ++ done).flatMap fun f => f.result.diagnostics
    let run := { ofResults total missing done with timedOut }
    (∀ r : AnalyzeRequest, statusOf r run = (Report.outcome r.failOn.label run.completed collected).status) ∧
      ∀ r r' : AnalyzeRequest, r'.failOn.rank ≤ r.failOn.rank → statusOf r run = 1 → statusOf r' run = 1 := by
  intro missing done collected run
  have hholds := Registry.holds_ofRules hreg
  have hsevere : ∀ threshold, run.diagnostics.any (fun d => Severity.atLeast d.severity threshold) =
      collected.any fun d => Severity.atLeast d.severity threshold := by
    intro threshold
    refine Diagnostic.any_finalize fun a ha b hb hkey => ?_
    have hgrade := Diagnostic.grade_eq (isGraded_of_mem_results hholds ha) (isGraded_of_mem_results hholds hb)
      (Diagnostic.Key.mk.inj hkey).2.2.2
    rw [hgrade.1]
  refine ⟨fun r => ?_, fun r r' hle hfound => ?_⟩
  · rw [statusOf, Report.outcome, Report.outcome, hsevere]
  · rw [statusOf, Report.status_outcome_eq_one, any_eq_true] at hfound ⊢
    obtain ⟨hcompleted, d, hd, hcounts⟩ := hfound
    exact ⟨hcompleted, d, hd, Severity.atLeast_of_le hle hcounts⟩

/-- A file with nothing but a sign that means nothing has an error. -/
theorem exists_error_of_stray_sign (reg : Registry) :
    ∃ d ∈ (Analysis.ofText reg {} "b.al" "$").diagnostics, d.severity = "error" := by
  obtain ⟨htokens, hissues⟩ : (Scan.ofText "$").tokens = [] ∧ (Scan.ofText "$").issues.length = 1 := by decide +kernel
  obtain ⟨issue, hissue⟩ := length_eq_one_iff.1 hissues
  have hobjects : Reading.objects ((Scan.ofText "$").open "$").1 ((Scan.ofText "$").open "$").2 =
    .ok ([], [issue]) := by
    rw [Reading.objects_nil htokens]
    exact congrArg (fun issues => Except.ok ([], issues)) hissue
  have hfile : SourceFile.ofText "b.al" "$" = .ok (⟨"b.al", "$", [], (Scan.ofText "$").comments⟩, [issue]) := by
    rw [SourceFile.ofText, SyntaxTree.ofText]
    dsimp only
    rw [hobjects]
    rfl
  rw [Analysis.ofText, hfile]
  exact ⟨_, mem_append_left _ mem_cons_self, rfl⟩

/-- The file is done twice before the time is up: one of the two complaints goes, and the run fails for every
threshold. -/
theorem verdict_of_stray_sign :
    let source : Files.Source := ⟨"b.al", some "$".toUTF8⟩
    let run := { ofResults 2 [] ([source, source].map (FileResult.ofSource Catalog.registry {}))
      with timedOut := true }
    Registry.ofRules Catalog.rules = .ok Catalog.registry ∧ ∀ r : AnalyzeRequest, statusOf r run = 1 := by
  intro source run
  obtain ⟨hall, hlower⟩ := verdict_of_all Catalog.ofRules_rules {} ⟨[source, source], []⟩ 2 true
  have htext : source.text? = some "$" := by decide +kernel
  have hsource : FileResult.ofSource Catalog.registry {} source =
    ⟨Analysis.ofText Catalog.registry {} "b.al" "$", false⟩ := by
    rw [FileResult.ofSource, htext]
  have hgravest : statusOf { paths := [] } run = 1 := by
    refine (hall _).trans (Report.status_outcome_eq_one.2 ⟨?_, ?_⟩)
    · simp [completed, ofResults, hsource]
    · obtain ⟨d, hd, herror⟩ := exists_error_of_stray_sign Catalog.registry
      refine any_eq_true.2 ⟨d, mem_append_left _ ?_, by rw [herror]; rfl⟩
      rwa [hsource]
  refine ⟨Catalog.ofRules_rules, fun r => hlower _ r ?_ hgravest⟩
  cases r.failOn <;> decide

end Run

end AlLint
