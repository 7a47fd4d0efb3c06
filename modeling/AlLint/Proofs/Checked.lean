import Mathlib.Data.List.Forall2

/-!
# Steps that can fail

What a success says about the steps behind it, when all steps of a list succeed, in which ways steps fail, and
when they come to the same.
-/

namespace AlLint

open List

theorem exists_of_bind_eq_ok {ε α β : Type} {x : Except ε α} {f : α → Except ε β} {b : β} (h : x >>= f = .ok b) :
    ∃ a, x = .ok a ∧ f a = .ok b := by
  cases x with
  | error e => cases h
  | ok a => exact ⟨a, rfl, h⟩

theorem bind_of_ok {ε α β : Type} {x : Except ε α} {f : α → Except ε β} {a : α} (h : x = .ok a) : x >>= f = f a := by
  rw [h]
  rfl

theorem exists_of_map_eq_ok {ε α β : Type} {x : Except ε α} {f : α → β} {b : β} (h : x.map f = .ok b) :
    ∃ a, x = .ok a ∧ f a = b := by
  cases x with
  | error e => cases h
  | ok a => exact ⟨a, rfl, Except.ok.inj h⟩

/-- What comes out of a list that is read item by item comes from the items. -/
theorem exists_of_mem_mapM {ε α β : Type} {f : α → Except ε β} {xs : List α} {ys : List β} (h : xs.mapM f = .ok ys)
    {y : β} (hy : y ∈ ys) : ∃ x ∈ xs, f x = .ok y := by
  induction xs generalizing ys with
  | nil =>
    obtain rfl : [] = ys := Except.ok.inj h
    cases hy
  | cons x xs ih =>
    rw [mapM_cons] at h
    obtain ⟨b, hb, h⟩ := exists_of_bind_eq_ok h
    obtain ⟨bs, hbs, h⟩ := exists_of_bind_eq_ok h
    obtain rfl : b :: bs = ys := Except.ok.inj h
    rcases mem_cons.1 hy with rfl | hy
    · exact ⟨x, mem_cons_self, hb⟩
    · obtain ⟨x', hx', hfx'⟩ := ih hbs hy
      exact ⟨x', mem_cons_of_mem _ hx', hfx'⟩

/-- Every item of a list that is read item by item comes to something. -/
theorem exists_mem_of_mapM {ε α β : Type} {f : α → Except ε β} {xs : List α} {ys : List β} (h : xs.mapM f = .ok ys)
    {x : α} (hx : x ∈ xs) : ∃ y ∈ ys, f x = .ok y := by
  induction xs generalizing ys with
  | nil => cases hx
  | cons a xs ih =>
    rw [mapM_cons] at h
    obtain ⟨b, hb, h⟩ := exists_of_bind_eq_ok h
    obtain ⟨bs, hbs, h⟩ := exists_of_bind_eq_ok h
    obtain rfl : b :: bs = ys := Except.ok.inj h
    rcases mem_cons.1 hx with rfl | hx
    · exact ⟨b, mem_cons_self, hb⟩
    · obtain ⟨y, hy, hfx⟩ := ih hbs hx
      exact ⟨y, mem_cons_of_mem _ hy, hfx⟩

/-- A list that is read item by item is as long as what comes out of it, and each item is read as what stands in
its place. -/
theorem forall₂_of_mapM {ε α β : Type} {f : α → Except ε β} {xs : List α} {ys : List β} (h : xs.mapM f = .ok ys) :
    List.Forall₂ (fun x y => f x = .ok y) xs ys := by
  induction xs generalizing ys with
  | nil =>
    obtain rfl : [] = ys := Except.ok.inj h
    exact .nil
  | cons x xs ih =>
    rw [mapM_cons] at h
    obtain ⟨b, hb, h⟩ := exists_of_bind_eq_ok h
    obtain ⟨bs, hbs, h⟩ := exists_of_bind_eq_ok h
    obtain rfl : b :: bs = ys := Except.ok.inj h
    exact .cons hb (ih hbs)

theorem exists_mapM_eq_ok {ε α β : Type} {f : α → Except ε β} {xs : List α} (h : ∀ x ∈ xs, ∃ y, f x = .ok y) :
    ∃ ys, xs.mapM f = .ok ys := by
  induction xs with
  | nil => exact ⟨[], rfl⟩
  | cons x xs ih =>
    obtain ⟨y, hy⟩ := h x mem_cons_self
    obtain ⟨ys, hys⟩ := ih fun x' hx' => h x' (mem_cons_of_mem _ hx')
    exact ⟨y :: ys, by rw [mapM_cons, hy, hys]; rfl⟩

/-! ## Ways to fail -/

def FailsOnly {ε α : Type} (P : ε → Prop) (x : Except ε α) : Prop := ∀ e, x = .error e → P e

namespace FailsOnly

variable {ε α β : Type} {P : ε → Prop} {x : Except ε α}

theorem ok (a : α) : FailsOnly P (.ok a) := by
  intro e he
  cases he

theorem error {e : ε} (h : P e) : FailsOnly P (.error e : Except ε α) := by
  intro e' he
  obtain rfl := Except.error.inj he
  exact h

theorem bind {f : α → Except ε β} (hx : FailsOnly P x) (hf : ∀ a, x = .ok a → FailsOnly P (f a)) :
    FailsOnly P (x >>= f) := by
  cases x with
  | error e => exact error (hx e rfl)
  | ok a => exact hf a rfl

theorem map {f : α → β} (hx : FailsOnly P x) : FailsOnly P (x.map f) := by
  cases x with
  | error e => exact error (hx e rfl)
  | ok a => exact ok (f a)

theorem mapError {ε' : Type} {P : ε' → Prop} {g : ε → ε'} (hx : FailsOnly (fun e => P (g e)) x) :
    FailsOnly P (x.mapError g) := by
  cases x with
  | error e => exact error (hx e rfl)
  | ok a => exact ok a

theorem mapM {f : α → Except ε β} {xs : List α} (h : ∀ a ∈ xs, FailsOnly P (f a)) : FailsOnly P (xs.mapM f) := by
  induction xs with
  | nil => exact ok []
  | cons a xs ih =>
    rw [mapM_cons]
    refine bind (h a mem_cons_self) fun b _ => bind (ih fun a' ha' => h a' (mem_cons_of_mem _ ha')) fun bs _ => ?_
    exact ok (b :: bs)

theorem foldlM {f : β → α → Except ε β} {xs : List α} (h : ∀ b, ∀ a ∈ xs, FailsOnly P (f b a)) (b : β) :
    FailsOnly P (xs.foldlM f b) := by
  induction xs generalizing b with
  | nil => exact ok b
  | cons a xs ih =>
    rw [foldlM_cons]
    exact bind (h b a mem_cons_self) fun b' _ => ih (fun b a' ha' => h b a' (mem_cons_of_mem _ ha')) b'

end FailsOnly

variable {ε α β γ δ : Type} {f : α → β}

/-- Steps that come to the same are followed by steps that come to the same. -/
theorem map_bind_eq {x x' : Except ε α} (hx : x.map f = x'.map f) {k k' : α → Except ε γ} {g : γ → δ}
    (hk : ∀ a a', f a = f a' → (k a).map g = (k' a').map g) : (x >>= k).map g = (x' >>= k').map g := by
  cases x with
  | error e =>
    cases x' with
    | error e' =>
      obtain rfl := Except.error.inj hx
      rfl
    | ok a' => cases hx
  | ok a =>
    cases x' with
    | error e' => cases hx
    | ok a' => exact hk a a' (Except.ok.inj hx)

theorem mapM_eq_of_forall₂ {R : γ → γ → Prop} {g g' : γ → Except ε α}
    (h : ∀ x x', R x x' → (g x).map f = (g' x').map f) {xs xs' : List γ} (hxs : List.Forall₂ R xs xs') :
    (xs.mapM g).map (List.map f) = (xs'.mapM g').map (List.map f) := by
  induction hxs with
  | nil => rfl
  | cons hx _ ih =>
    rw [mapM_cons, mapM_cons]
    refine map_bind_eq (h _ _ hx) fun a a' ha => map_bind_eq ih fun as as' has => ?_
    show Except.ok ((a :: as).map f) = Except.ok ((a' :: as').map f)
    rw [map_cons, map_cons, ha, has]

end AlLint
