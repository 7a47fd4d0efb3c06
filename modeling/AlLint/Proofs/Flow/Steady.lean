import AlLint.Proofs.Flow.Cover

/-!
# Code that settles in one round

Of all that can happen to a state, only a record that takes over the marks of another one lets one fact depend on
another. Everything else keeps a fact, makes it true, or loses it: it is `Needs.Steady`. Steady effects stay steady in
sequence, where paths meet and around a loop, and going round a second time adds nothing to them.

So a round of a loop without such assignments is steady, whatever else is in it (`Stmt.steady_round`).
-/

namespace AlLint

open List Needs Effect

namespace Needs

/-- Every fact needs at most itself, or cannot be known at all where a path arrives. -/
def Steady (R : Needs) : Prop := ∀ f, R f ⊆ {f, .unreached}

def Mild (R : Needs) : Prop := ∀ f, R f ⊆ {f}

variable {R S : Needs}

theorem Mild.steady (h : R.Mild) : R.Steady := fun f _ hg => Or.inl (h f hg)

theorem mild_keep : keep.Mild := fun _ => subset_rfl

theorem Mild.andThen (hR : R.Mild) (hS : S.Mild) : (R.andThen S).Mild := by
  rintro f h ⟨g, hg, hh⟩
  obtain rfl : g = f := hS f hg
  exact hR g hh

theorem Steady.eq_unreached (h : R.Steady) {g : Fact} (hg : g ∈ R .unreached) : g = .unreached :=
  (h .unreached hg).elim id id

theorem Steady.andThen (hR : R.Steady) (hS : S.Steady) : (R.andThen S).Steady := by
  rintro f h ⟨g, hg, hh⟩
  rcases hS f hg with rfl | hg
  · exact hR g hh
  · rw [show g = .unreached from hg] at hh
    exact Or.inr (hR.eq_unreached hh)

theorem Steady.meet (hR : R.Steady) (hS : S.Steady) : (R.meet S).Steady := by
  rintro f g (hg | hg)
  · exact hR f hg
  · exact hS f hg

/-- **What is steady is settled.** -/
theorem Steady.settled (h : R.Steady) : R.Settled := by
  rintro f g ⟨k, hk, hg⟩
  rcases h f hk with rfl | hu
  · exact hg
  · -- what cannot be known where a path arrives stays that way
    rw [show k = .unreached from hu] at hk hg
    rwa [h.eq_unreached hg]

end Needs

namespace Effect

variable {E F : Effect}

theorem steady_entry (h : E.final.Steady) : E.entry.Steady := mild_keep.steady.meet h

theorem steady_loop (skippable : Bool) (h : E.final.Steady) : (E.loop skippable).final.Steady := by
  have hround := (steady_entry h).andThen h
  cases skippable with
  | false => exact hround
  | true => exact hround.meet (steady_entry h)

end Effect

/-! ## Acts -/

theorem Change.steady_needs {ch : Change} (h : ¬ ch.Copies) : ch.needs.Steady := by
  intro f g hg
  cases ch with
  | take r q => exact absurd trivial h
  | load r mark =>
    cases f with
    | whole q =>
      simp only [needs] at hg
      split at hg
      · split at hg
        · exact Or.inr hg
        · exact absurd hg (Set.notMem_empty g)
      · exact Or.inl hg
    | full q =>
      simp only [needs] at hg
      split at hg
      · split at hg
        · exact absurd hg (Set.notMem_empty g)
        · exact Or.inr hg
      · exact Or.inl hg
    | _ => exact Or.inl hg
  | check r =>
    cases f with
    | checked q =>
      simp only [needs] at hg
      split at hg
      · exact absurd hg (Set.notMem_empty g)
      · exact Or.inl hg
    | _ => exact Or.inl hg
  | uncheck r =>
    cases f with
    | checked q =>
      simp only [needs] at hg
      split at hg
      · exact Or.inr hg
      · exact Or.inl hg
    | _ => exact Or.inl hg
  | commit =>
    cases f with
    | uncommitted => exact Or.inr hg
    | _ => exact Or.inl hg

theorem Change.steady_needsAll {changes : List Change} (h : ∀ ch ∈ changes, ¬ ch.Copies) :
    (needsAll changes).Steady := by
  induction changes with
  | nil => exact mild_keep.steady
  | cons ch rest ih =>
    have hrest := ih fun x hx => h x (mem_cons_of_mem _ hx)
    exact (steady_needs (h ch mem_cons_self)).andThen hrest

/-- What an act needs. -/
abbrev Act.needs (o : Context) (a : Act) : Needs := Change.needsAll (a.changes o)

theorem Effect.steady_line {o : Context} {acts : List Act} (h : ∀ a ∈ acts, (a.needs o).Steady) :
    (Effect.line o acts).final.Steady := by
  induction acts with
  | nil => exact mild_keep.steady
  | cons a rest ih =>
    exact (h a mem_cons_self).andThen (ih fun x hx => h x (mem_cons_of_mem _ hx))

theorem Effect.mild_line {o : Context} {acts : List Act} (h : ∀ a ∈ acts, (a.needs o).Mild) :
    (Effect.line o acts).final.Mild := by
  induction acts with
  | nil => exact mild_keep
  | cons a rest ih =>
    exact (h a mem_cons_self).andThen (ih fun x hx => h x (mem_cons_of_mem _ hx))

/-- Code made of steady acts. -/
abbrev Code.Steady (o : Context) : Code → Prop := Code.All (fun a => (a.needs o).Steady) True fun _ _ _ _ => True

/-- **Code made of steady acts is steady**, loops and all. -/
theorem Code.Steady.effect {o : Context} {code : Code} (h : code.Steady o) : (code.effect o).final.Steady := by
  induction h with
  | line hacts => rw [Code.effect]; exact steady_line hacts
  | stop => rw [Code.effect]; exact fun f g hg => absurd hg (Set.notMem_empty g)
  | jump _ => rw [Code.effect]; exact mild_keep.steady
  | seq _ _ iha ihb => rw [Code.effect]; exact iha.andThen ihb
  | choice _ _ ih =>
    rw [Code.effect]
    rintro f g ⟨E, hE, hg⟩
    obtain ⟨x, hx, rfl⟩ := mem_map.1 hE
    exact ih x hx f hg
  | inside _ ih => rw [Code.effect]; exact ih
  | @loop skippable head tail b hhead _ htail _ ih =>
    rw [Code.effect]
    exact steady_loop skippable ((steady_line hhead).andThen (ih.andThen (steady_line htail)))

/-! ## Statements that settle -/

namespace Context

/-- Whether a statement makes a record take over how another one is loaded. -/
def copies (c : Context) : Stmt → Bool
  | .assignment (.name n _ _) .set (.name m _ _) _ => c.isRecord (Text.lower n) && c.isRecord (Text.lower m)
  | _ => false

theorem not_copies_assignmentChanges {c : Context} {target : Expr} {op : AssignOp} {value : Expr} {span : Span}
    (h : c.copies (.assignment target op value span) = false) :
    ∀ ch ∈ c.assignmentChanges target op value, ¬ ch.Copies := by
  intro ch hch hcopies
  unfold assignmentChanges at hch
  split at hch
  · split at hch
    · rename_i hn
      split at hch
      · split at hch
        · rename_i hm
          simp [copies, hn, hm] at h
        · rw [mem_singleton.1 hch] at hcopies
          exact hcopies
      · rw [mem_singleton.1 hch] at hcopies
        exact hcopies
    · exact absurd hch not_mem_nil
  · exact absurd hch not_mem_nil

end Context

namespace Stmt

variable {c : Context}

theorem steady_of_mem_ownActs {t : Stmt} (h : c.copies t = false) {a : Act} (ha : a ∈ t.ownActs) :
    (a.needs c).Steady := by
  rcases mem_cons.1 ha with rfl | ha
  · exact mild_keep.steady
  rcases mem_append.1 ha with ha | ha
  · have hevaluates := Expr.evaluatesAll t.exprs a ha
    cases a with
    | see n => exact mild_keep.steady
    | call k => exact Change.steady_needsAll fun ch hch => (c.ofCall_callChanges k ch hch).not_copies
    | assign target op value => exact hevaluates.elim
  · cases t with
    | assignment target op value span =>
      obtain rfl := mem_singleton.1 ha
      exact Change.steady_needsAll (Context.not_copies_assignmentChanges h)
    | _ => exact absurd ha not_mem_nil

/-- **A round of a loop in which no record is assigned to another is steady.** -/
theorem steady_round {s : Stmt} {skippable : Bool} {head tail : List Act} {body : List Stmt}
    (hl : s.loop? = some (skippable, head, body, tail)) (h : ∀ t ∈ s.nested, c.copies t = false) :
    (Effect.round c head ((codeAll body).effect c) tail).final.Steady := by
  have hall : (code false s).Steady c := all_code s (fun t ht =>
    ⟨fun a ha => steady_of_mem_ownActs (h t ht) ha, fun _ => trivial, fun _ _ _ _ _ => trivial⟩) false
  -- what goes round is the second part of the skeleton of the loop statement
  obtain ⟨before, hcode⟩ := exists_code_eq hl
  rw [hcode] at hall
  cases hall with
  | seq _ hloop =>
    cases hloop with
    | loop hhead hbody htail _ =>
      exact (steady_line hhead).andThen ((Code.Steady.effect hbody).andThen (steady_line htail))

end Stmt

end AlLint
