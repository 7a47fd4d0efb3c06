import AlLint.Analysis.Basic
import AlLint.Proofs.Declaration.Routines

/-!
# What there is to look at

A walk through a declaration comes upon nodes that are looked at by themselves, and upon routines, in which
there is more to see. All that is to be seen is what each of these items shows (`declarationSights_eq`).
-/

namespace AlLint

open List

namespace Declaration

def contentItems : Contents → List (Node ⊕ PlacedRoutine)
  | .table fields keys modifications =>
    fields.map (fun f => .inl (.field f)) ++
      (fields ++ modifications).flatMap (fun f =>
        (triggerRoutines .fieldTrigger (some f.name) f.triggers).map .inr) ++
      keys.map fun k => .inl (.key k)
  | .processUnit => []
  | .page fields actions =>
    fields.flatMap (fun f => .inl (.pageField f) ::
      (triggerRoutines .controlTrigger (some f.name) f.triggers).map .inr) ++
      actions.flatMap fun a => .inl (.action a) :: (triggerRoutines .actionTrigger (some a.name) a.triggers).map .inr
  | .enumeration values => values.map fun v => .inl (.enumValue v)

/-- The nodes and routines of a declaration, in the order in which they are looked at. -/
def items (d : Declaration) : List (Node ⊕ PlacedRoutine) :=
  .inl (.declaration d) :: d.vars.map (fun v => .inl (.var v)) ++ contentItems d.contents ++
    (triggerRoutines .trigger none d.triggers).map .inr ++ d.procedures.map fun p =>
      .inr ⟨.procedure, none, .procedure p⟩

/-- Where nodes give nothing, what comes of the items comes of the routines. -/
theorem flatMap_items {α : Type} {f : Node ⊕ PlacedRoutine → List α} (h : ∀ n, f (.inl n) = []) (d : Declaration) :
    d.items.flatMap f = d.routines.flatMap fun r => f (.inr r) := by
  have hnil : ∀ {β : Type} (xs : List β), (xs.flatMap fun _ => ([] : List α)) = [] := fun xs =>
    flatMap_eq_nil_iff.2 fun _ _ => rfl
  cases hcontents : d.contents <;>
    simp [items, contentItems, routines, contentRoutines, hcontents, h, hnil, flatMap_assoc, map_eq_flatMap]

theorem expr_not_mem_items (d : Declaration) (e : Expr) : .inl (.expr e) ∉ d.items := by
  cases hcontents : d.contents <;> simp [items, contentItems, hcontents]

end Declaration

namespace Analysis

/-- What an item shows. -/
def itemSights (fresh : Place → Option Routine → Option String → Context) : Node ⊕ PlacedRoutine → List Sight
  | .inl n => [⟨n, fresh .declaration none none⟩]
  | .inr r => routineSights fresh r.place r.owner r.routine

theorem declarationSights_eq (settings : Settings) (options : Options) (d : Declaration) :
    declarationSights settings options d = d.items.flatMap (itemSights (contextFor settings options d)) := by
  cases hcontents : d.contents <;>
    simp [declarationSights, contentSights, triggerSights, Declaration.items, Declaration.contentItems,
      Declaration.triggerRoutines, hcontents, itemSights, flatMap_assoc, map_eq_flatMap]

end Analysis

end AlLint
