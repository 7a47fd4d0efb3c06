import Mathlib.Data.List.Sort
import Mathlib.Data.String.Basic
import AlLint.Catalog.Quality

/-!
# Procedures and their documentation

Documentation fits a procedure if its tags name the parameters, each as often as it is there, in any order and
letter case. What does not fit is told by which parameters and tags are without a counterpart; if none is, some
name has been repeated.
-/

namespace AlLint

open List

theorem Text.sorted_eq_iff {xs ys : List String} : Text.sorted xs = Text.sorted ys ↔ xs.Perm ys := by
  have hperm : ∀ zs, (Text.sorted zs).Perm zs := fun zs => mergeSort_perm zs _
  have hsorted : ∀ zs, (Text.sorted zs).Pairwise (· ≤ ·) := fun zs => pairwise_mergeSort' (· ≤ ·) zs
  constructor
  · intro h
    exact (hperm xs).symm.trans (h ▸ hperm ys)
  · intro h
    exact ((hperm xs).trans (h.trans (hperm ys).symm)).eq_of_pairwise' (hsorted xs) (hsorted ys)

namespace Catalog

/-- Documentation names each parameter as often as it is there. -/
def Documents (doc : Doc) (p : Procedure) : Prop :=
  (doc.params.map Text.lower).Perm (p.parameters.map fun q => Text.lower q.name)

def unnamed (doc : Doc) (p : Procedure) : List Parameter :=
  p.parameters.filter fun q => ∀ tag ∈ doc.params, Text.lower tag ≠ Text.lower q.name

def unmatched (doc : Doc) (p : Procedure) : List String :=
  doc.params.filter fun tag => ∀ q ∈ p.parameters, Text.lower q.name ≠ Text.lower tag

def explanation : List Parameter → List String → String
  | [], [] => "duplicate <param> tags"
  | [], tags => "unknown: " ++ ", ".intercalate tags
  | qs, [] => "undocumented: " ++ ", ".intercalate (qs.map Parameter.name)
  | qs, tags =>
    "; ".intercalate ["undocumented: " ++ ", ".intercalate (qs.map Parameter.name), "unknown: " ++
      ", ".intercalate tags]

theorem explanation_eq_duplicate_iff {qs : List Parameter} {tags : List String} :
    explanation qs tags = "duplicate <param> tags" ↔ qs = [] ∧ tags = [] := by
  have hdiffers : ∀ start rest : String, start.toList.head? = some 'u' →
    start ++ rest ≠ "duplicate <param> tags" := by
    intro start rest hstart heq
    have hhead := congrArg (·.toList.head?) heq
    rw [String.toList_append, head?_append, hstart, Option.some_or] at hhead
    exact absurd hhead (by decide)
  cases qs with
  | nil =>
    cases tags with
    | nil => simp [explanation]
    | cons tag tags => simpa [explanation] using hdiffers _ _ (by decide)
  | cons q qs =>
    cases tags with
    | nil => simpa [explanation] using hdiffers _ _ (by decide)
    | cons tag tags => simpa [explanation, String.append_assoc] using hdiffers _ _ (by decide)

theorem docMismatch?_eq (p : Procedure) (doc : Doc) [Decidable (Documents doc p)] :
    docMismatch? p doc = if Documents doc p then none else some (explanation (unnamed doc p) (unmatched doc p)) := by
  have hunnamed : (p.parameters.filter fun q => !(doc.params.map Text.lower).contains q.key) = unnamed doc p :=
    filter_congr fun q _ => by rw [Bool.eq_iff_iff]; simp [Parameter.key]
  have hunmatched : (doc.params.filter fun tag => !(p.parameters.map Parameter.key).contains (Text.lower tag)) =
    unmatched doc p :=
    filter_congr fun tag _ => by rw [Bool.eq_iff_iff]; simp [Parameter.key]
  have hfits : Text.sorted (doc.params.map Text.lower) = Text.sorted (p.parameters.map Parameter.key) ↔
    Documents doc p :=
    Text.sorted_eq_iff
  simp only [docMismatch?, hfits, hunnamed, hunmatched]
  split
  · rfl
  · cases unnamed doc p <;> cases unmatched doc p <;> simp [explanation, commas]

/-- **The documentation of procedures is checked exactly.** There is at most one finding for a procedure, and
there is none if and only if it is not public, or its documentation names each parameter as often as it is
there. The message about documentation that does not fit lists the parameters that no tag names and the tags
that name no parameter, in the order of the source, and speaks of duplicate tags exactly if there are
neither. -/
theorem documentation_checked_exactly (file : SourceFile) (context : Context) (p : Procedure) :
    let verdict := missingDoc.check file ⟨.routine (.procedure p), context⟩
    verdict.fault = none ∧ verdict.findings.length ≤ 1 ∧
      (verdict.findings = [] ↔ p.isPublic = false ∨ ∃ doc, p.doc = some doc ∧ Documents doc p) ∧
      ∀ doc, p.doc = some doc → p.isPublic = true → ¬Documents doc p →
        let reason := explanation (unnamed doc p) (unmatched doc p)
        verdict.findings.map missingDoc.render =
            [.ok ("Documentation of " ++ p.name ++ " does not match its parameters (" ++ reason ++ ")")] ∧
          (reason = "duplicate <param> tags" ↔ unnamed doc p = [] ∧ unmatched doc p = []) := by
  classical
  simp only [missingDoc, onProcedure, undocumented]
  refine ⟨trivial, ?_⟩
  cases hpublic : p.isPublic with
  | false => simp
  | true =>
    cases hdoc : p.doc with
    | none => simp
    | some doc =>
      simp only [docMismatch?_eq]
      by_cases hfits : Documents doc p
      · simp [hfits]
      · simp [hfits, Rule.render, explanation_eq_duplicate_iff]

end Catalog

end AlLint
