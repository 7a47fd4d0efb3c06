import AlLint.Command.Run
import AlLint.Proofs.Analysis.Grade

/-!
# Runs do not depend on the schedule

The files of a run are analysed side by side, and their results are put together in the order in which they are
done. Whatever that order is, the report, the counts and the verdict of the run are the same. This does not come
from sorting alone, since the order of a report leaves severity and category out: it needs that all diagnostics
of a run are graded.
-/

namespace AlLint.Run

open List

open Command (AnalyzeRequest printed reportFile? statusOf)

variable {reg : Registry} {rules : List Rule} {settings : Settings}

/-- The results of some files that are analysed and some paths that lead nowhere are graded. -/
theorem isGraded_of_mem_results (h : reg.Holds rules) {sources : Files.Sources} {d : Diagnostic}
    (hd : d ∈ (sources.missing.map (FileResult.ofMissing settings) ++
      sources.files.map (FileResult.ofSource reg settings)).flatMap fun f => f.result.diagnostics) :
    d.IsGraded reg settings := by
  obtain ⟨f, hf, hd⟩ := mem_flatMap.1 hd
  rcases mem_append.1 hf with hf | hf
  · obtain ⟨path, -, rfl⟩ := mem_map.1 hf
    exact FileResult.isGraded_ofMissing h hd
  · obtain ⟨source, -, rfl⟩ := mem_map.1 hf
    exact FileResult.isGraded_ofSource h hd

/-- **A run whose files are done in another order comes to the same**: the same diagnostics in the same order,
the same number of files, the same verdict, and so the same report in every format and the same exit status. -/
theorem independent_of_schedule (hreg : Registry.ofRules rules = .ok reg) (disk : Files.Disk) (paths : List String)
    {done : List FileResult}
    (hdone : done.Perm ((Files.Sources.collect disk paths).files.map (FileResult.ofSource reg settings))) :
    let sources := Files.Sources.collect disk paths
    let run := ofResults sources.files.length (sources.missing.map (FileResult.ofMissing settings)) done
    let inOrder := ofPaths reg settings disk paths
    run.diagnostics = inOrder.diagnostics ∧ run.filesTotal = inOrder.filesTotal ∧
      run.filesCompleted = inOrder.filesCompleted ∧ run.ioFailed = inOrder.ioFailed ∧
        run.completed = inOrder.completed ∧
      ∀ r : AnalyzeRequest, (printed r run).text = (printed r inOrder).text ∧
        reportFile? r run = reportFile? r inOrder ∧ statusOf r run = statusOf r inOrder := by
  intro sources run inOrder
  have hall : (sources.missing.map (FileResult.ofMissing settings) ++ done).Perm
      (sources.missing.map (FileResult.ofMissing settings) ++ sources.files.map (FileResult.ofSource reg settings)) :=
    hdone.append_left _
  have hdiagnostics : run.diagnostics = inOrder.diagnostics := by
    refine (Diagnostic.finalize_eq_of_perm (hall.symm.flatMap_right _) fun a ha b hb => ?_).symm
    have hholds := Registry.holds_ofRules hreg
    exact Diagnostic.eq_of_isGraded (isGraded_of_mem_results hholds ha) (isGraded_of_mem_results hholds hb)
  have hcompletedFiles : run.filesCompleted = inOrder.filesCompleted := congrArg Nat.cast hdone.length_eq
  have hio : run.ioFailed = inOrder.ioFailed := hall.any_eq
  have hcompleted : run.completed = inOrder.completed := by
    rw [completed, completed, hio, hcompletedFiles]
    rfl
  refine ⟨hdiagnostics, rfl, hcompletedFiles, hio, hcompleted, fun r => ⟨?_, ?_, ?_⟩⟩
  · rw [printed, printed, hdiagnostics]
  · rw [reportFile?, reportFile?, hdiagnostics]
  · rw [statusOf, statusOf, hcompleted, hdiagnostics]

/-- Two files, of which one cannot be read, beside a path that leads nowhere, done from the last to the first. -/
theorem independent_of_reversed_schedule :
    let broken : Files.Source := ⟨"a.al", none⟩
    let sound : Files.Source := ⟨"b.al", some "codeunit 1 B \x7b\x7d".toUTF8⟩
    let disk := Files.Disk.ofTree (.folder [("b.al", .file sound.bytes), ("a.al", .file none)])
    let done := [sound, broken].map (FileResult.ofSource Catalog.registry {})
    (ofResults 2 [FileResult.ofMissing {} "c.al"] done).diagnostics =
      (ofPaths Catalog.registry {} disk ["c.al", "a.al", "./b.al", "b.al"]).diagnostics := by
  intro broken sound disk done
  have hcollect : Files.Sources.collect disk ["c.al", "a.al", "./b.al", "b.al"] = ⟨[broken, sound], ["c.al"]⟩ := rfl
  have hdone : done.Perm ((Files.Sources.collect disk ["c.al", "a.al", "./b.al", "b.al"]).files.map
      (FileResult.ofSource Catalog.registry {})) := by
    rw [hcollect]
    exact List.Perm.swap ..
  have hrun := (independent_of_schedule Catalog.ofRules_rules disk ["c.al", "a.al", "./b.al", "b.al"] hdone).1
  rwa [hcollect] at hrun

end AlLint.Run
