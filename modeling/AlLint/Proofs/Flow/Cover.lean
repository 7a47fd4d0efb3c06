import AlLint.Proofs.Flow.Path
import AlLint.Proofs.Flow.Shape

/-!
# Effects cover paths

An effect is worth something if it says no more than what holds on every path: what a fact needs along some
path, it needs according to the effect. `Covers` says so for one path, of the end and of every node on the way,
and has one lemma for each way of putting code together.

Loops are where this can go wrong. A path goes round as often as it likes and the analysis goes round twice, so
a second round must not need anything that the first did not (`Needs.Settled`), and testing the condition must
not lose anything, since the analysis leaves the loop as if it had not been tested. `Code.Tame` asks for that,
and for no jumps out of a pass. Every path through tame code is covered (`Path.covers`).
-/

namespace AlLint

open List Needs Effect

/-- Every node on a trail is among those seen, at its number, and needs there what it needs along the trail. -/
def Trail.Noted (o : Context) (k : Nat) (seen : List Visit) (p : Trail) : Prop :=
  ∀ m n q, p.Reaches m n q →
    ∃ i v, m = k + i ∧ seen[i]? = some v ∧ v.node = n ∧ ∀ f, q.needs o f ⊆ v.needs f

/-- What an effect says of a path is no more than what holds along it. -/
structure Covers (o : Context) (k : Nat) (E : Effect) (p : Trail) (e : End) : Prop where
  /-- No pass through a loop is left early. -/
  stays : ∀ j, e ≠ .jumped j
  /-- What the path needs to know a fact at its end. -/
  final : e = .on → ∀ f, p.needs o f ⊆ E.final f
  /-- What the path needs to know a fact on the way. -/
  seen : p.Noted o k E.seen

namespace Trail.Noted

variable {o : Context} {k : Nat} {xs ys : List Visit} {p q : Trail}

theorem nil : Noted o k xs [] := fun _ _ _ h => absurd h not_reaches_nil

theorem append_seen (h : p.Noted o k xs) (ys : List Visit) : p.Noted o k (xs ++ ys) := by
  intro m n q hq
  obtain ⟨i, v, rfl, hv, hn, hneeds⟩ := h m n q hq
  have hi : i < xs.length := (List.getElem?_eq_some_iff.1 hv).1
  exact ⟨i, v, rfl, by rw [getElem?_append_left hi, hv], hn, hneeds⟩

theorem behind_seen (h : p.Noted o (k + ys.length) xs) : p.Noted o k (ys ++ xs) := by
  intro m n q hq
  obtain ⟨i, v, rfl, hv, hn, hneeds⟩ := h m n q hq
  refine ⟨ys.length + i, v, by omega, ?_, hn, hneeds⟩
  rw [getElem?_append_right (by omega), Nat.add_sub_cancel_left, hv]

/-- If nodes are seen in another way, with the same numbers and at least the needs, the trail is still noted. -/
theorem map {φ : Visit → Visit} (h : p.Noted o k xs) (hnode : ∀ v, (φ v).node = v.node)
    (hneeds : ∀ v f, v.needs f ⊆ (φ v).needs f) : p.Noted o k (xs.map φ) := by
  intro m n q hq
  obtain ⟨i, v, rfl, hv, hn, hq⟩ := h m n q hq
  refine ⟨i, φ v, rfl, by rw [getElem?_map, hv]; rfl, (hnode v).trans hn, fun f => ?_⟩
  exact (hq f).trans (hneeds v f)

end Trail.Noted

namespace Covers

variable {o : Context} {k : Nat} {E F : Effect} {p q : Trail} {e : End}

theorem ended (h : p.Noted o k E.seen) : Covers o k E p .ended where
  stays _ := End.noConfusion
  final h := End.noConfusion h
  seen := h

theorem act (a : Act) : Covers o k (Effect.act o a) [(k, a)] .on where
  stays _ := End.noConfusion
  final _ f := by
    rw [Trail.needs, Trail.needs, andThen_keep]
    exact subset_rfl
  seen m n q h := by
    -- the only node is the first one
    obtain ⟨r, hr⟩ := h
    cases q with
    | nil =>
      rw [nil_append, List.cons.injEq, Prod.mk.injEq] at hr
      obtain ⟨⟨rfl, rfl⟩, _⟩ := hr
      exact ⟨0, ⟨n, 0, 0, .keep⟩, rfl, rfl, rfl, fun f => subset_rfl⟩
    | cons x q => simp at hr

theorem andThen (hE : Covers o k E p .on) (hF : Covers o (k + E.seen.length) F q e) :
    Covers o k (E.andThen F) (p ++ q) e where
  stays := hF.stays
  final he f := by
    rw [Trail.needs_append]
    exact andThen_mono (hE.final rfl) (hF.final he) f
  seen m n r hr := by
    rcases hr.of_append with h | ⟨r', rfl, h⟩
    · exact hE.seen.append_seen _ m n r h
    · obtain ⟨i, v, rfl, hv, hn, hneeds⟩ := hF.seen m n r' h
      refine ⟨E.seen.length + i, v.behind E.final, by omega, ?_, hn, fun f => ?_⟩
      · rw [Effect.andThen, getElem?_append_right (by omega), Nat.add_sub_cancel_left, getElem?_map, hv]
        rfl
      · rw [Trail.needs_append]
        exact andThen_mono (hE.final rfl) hneeds f

theorem cut (hE : Covers o k E p e) (he : e ≠ .on) : Covers o k (E.andThen F) p e where
  stays := hE.stays
  final h := absurd h he
  seen := hE.seen.append_seen _

theorem line (acts : List Act) : Covers o k (Effect.line o acts) (Act.trail k acts) .on := by
  induction acts generalizing k with
  | nil => exact ⟨fun _ => End.noConfusion, fun _ _ => subset_rfl, .nil⟩
  | cons a rest ih =>
    have hrest := ih (k := k + (Act.nodes [a]).length)
    rw [← length_act o a] at hrest
    have h := (act a).andThen hrest
    rwa [length_act] at h

theorem join {Es : List Effect} {i : Nat} (hi : Es[i]? = some E)
    (h : Covers o (k + ((Es.take i).flatMap Effect.seen).length) E p e) : Covers o k (Effect.join Es) p e where
  stays := h.stays
  final he f g hg := ⟨E, mem_of_getElem? hi, h.final he f hg⟩
  seen := by
    obtain ⟨hlt, rfl⟩ := List.getElem?_eq_some_iff.1 hi
    -- what the options before it show comes first, what those behind it show comes last
    have hsplit : Es.flatMap Effect.seen =
        (Es.take i).flatMap Effect.seen ++ (Es[i].seen ++ (Es.drop (i + 1)).flatMap Effect.seen) := by
      rw [← flatMap_cons, ← flatMap_append, getElem_cons_drop, take_append_drop]
    rw [Effect.join, hsplit]
    exact (h.seen.append_seen _).behind_seen

theorem inside (deeper : Bool) (h : Covers o k E p e) : Covers o k (E.inside deeper) p e where
  stays := h.stays
  final := h.final
  seen := h.seen.map (fun _ => rfl) fun _ _ => subset_rfl

end Covers

/-! ## Going round -/

namespace Needs

/-- A second time needs nothing that the first time did not. -/
def Settled (R : Needs) : Prop := ∀ f, R.andThen R f ⊆ R f

theorem subset_andThen {R S : Needs} (h : ∀ f, f ∈ R f) (f : Fact) : S f ⊆ R.andThen S f :=
  fun g hg => ⟨g, hg, h g⟩

end Needs

namespace Effect

variable {E : Effect}

theorem mem_entry (f : Fact) : f ∈ E.entry f := Or.inl rfl

/-- One more round in front of a pass makes no difference to what it starts with. -/
theorem andThen_entry (h : E.final.Settled) (f : Fact) : E.final.andThen E.entry f ⊆ E.entry f := by
  rintro g ⟨k, hk | hk, hg⟩
  · rw [show k = f from hk] at hg
    exact Or.inr hg
  · exact Or.inr (h f ⟨k, hk, hg⟩)

theorem round_andThen (h : E.final.Settled) (S : Needs) (f : Fact) :
    E.final.andThen (E.entry.andThen S) f ⊆ E.entry.andThen S f := by
  rw [← Needs.andThen_assoc]
  exact andThen_mono (andThen_entry h) (fun _ => subset_rfl) f

theorem round_final_loop (h : E.final.Settled) (skippable : Bool) (f : Fact) :
    E.final.andThen (E.loop skippable).final f ⊆ (E.loop skippable).final f := by
  cases skippable with
  | false => exact round_andThen h E.final f
  | true =>
    rintro g ⟨k, hk | hk, hg⟩
    · exact Or.inl (round_andThen h E.final f ⟨k, hk, hg⟩)
    · exact Or.inr (andThen_entry h f ⟨k, hk, hg⟩)

end Effect

namespace Covers

variable {o : Context} {k : Nat} {E F : Effect} {p q : Trail} {e : End} {skippable : Bool}

/-- What is seen in one round is seen by the analysis of the loop. -/
theorem noted_loop (h : p.Noted o k E.seen) : p.Noted o k (E.loop skippable).seen :=
  h.map (fun _ => rfl) fun _ => subset_andThen mem_entry

theorem skip (hE : Covers o k E p .on) (hkeep : ∀ f, p.needs o f ⊆ {f}) :
    Covers o k ((E.andThen F).loop true) p .on where
  stays := hE.stays
  final _ f _ hg := Or.inr (Or.inl (hkeep f hg))
  seen := noted_loop (hE.seen.append_seen _)

theorem last (hE : Covers o k E p .on) : Covers o k (E.loop false) p .on where
  stays := hE.stays
  final _ f := (hE.final rfl f).trans (subset_andThen mem_entry f)
  seen := noted_loop hE.seen

theorem again (hS : E.final.Settled) (hE : Covers o k E p .on) (hq : Covers o k (E.loop skippable) q e) :
    Covers o k (E.loop skippable) (p ++ q) e where
  stays := hq.stays
  final he f := by
    rw [Trail.needs_append]
    exact (andThen_mono (hE.final rfl) (hq.final he) f).trans (round_final_loop hS skippable f)
  seen m n r hr := by
    rcases hr.of_append with h | ⟨r', rfl, h⟩
    · exact noted_loop hE.seen m n r h
    · obtain ⟨i, v, rfl, hv, hn, hneeds⟩ := hq.seen m n r' h
      refine ⟨i, v, rfl, hv, hn, fun f => ?_⟩
      -- what is seen in a loop starts with a pass
      rw [Effect.loop, getElem?_map] at hv
      obtain ⟨u, _, rfl⟩ := Option.map_eq_some_iff.1 hv
      rw [Trail.needs_append]
      exact (andThen_mono (hE.final rfl) hneeds f).trans (round_andThen hS u.needs f)

end Covers

/-! ## Tame code -/

/-- A loop of which two passes are enough. -/
structure TameLoop (o : Context) (skippable : Bool) (head : List Act) (body : Code) (tail : List Act) : Prop where
  settled : (Effect.round o head (body.effect o) tail).final.Settled
  /-- Nothing is lost by coming to the head once more and leaving. -/
  head : skippable = true → ∀ f, (Effect.line o head).final f ⊆ {f}

/-- Code of which two passes through every loop are enough. -/
abbrev Code.Tame (o : Context) : Code → Prop := Code.Jumpless (TameLoop o)

/-- A pass that is over is one that has come to its end, if it is not left early. -/
theorem End.eq_on_of_passes {e : End} (h : e.passes = true) (hstays : ∀ j, e ≠ .jumped j) : e = .on := by
  cases e with
  | on => rfl
  | ended => simp [End.passes] at h
  | jumped j => exact absurd rfl (hstays j)

theorem Covers.round {o : Context} {k : Nat} {head tail : List Act} {b : Code} {p : Trail}
    (h : Covers o (k + (Act.nodes head).length) (b.effect o) p .on) :
    Covers o k (Effect.round o head (b.effect o) tail) (b.roundTrail k head p tail) .on := by
  refine (Covers.line head).andThen ?_
  rw [length_line]
  refine h.andThen ?_
  rw [b.length_seen]
  exact Covers.line tail

/-- **Every path through tame code is covered by its effect.** -/
theorem Path.covers {o : Context} {k : Nat} {code : Code} {p : Trail} {e : End} (h : Path k code p e)
    (ht : code.Tame o) : Covers o k (code.effect o) p e := by
  induction h with
  | line => rw [Code.effect]; exact .line _
  | stop => rw [Code.effect]; exact .ended .nil
  | jump =>
    cases ht with
    | jump hno => exact hno.elim
  | @seq k a b p q e _ _ iha ihb =>
    cases ht with
    | seq ha hb =>
      have hb' := ihb hb
      rw [← a.length_seen o] at hb'
      rw [Code.effect]
      exact (iha ha).andThen hb'
  | cut _ he ih =>
    cases ht with
    | seq ha hb => rw [Code.effect]; exact (ih ha).cut he
  | @choice k i os x p e hi _ ih =>
    cases ht with
    | choice _ hos =>
      have hx := ih (hos x (mem_of_getElem? hi))
      have hbefore : (((os.map (Code.effect o)).take i).flatMap Effect.seen).length =
          ((os.take i).flatMap Code.nodes).length := by
        simp only [← map_take, flatMap_map, length_flatMap, Code.length_seen]
      rw [← hbefore] at hx
      rw [Code.effect]
      exact hx.join (by rw [getElem?_map, hi]; rfl)
  | inside _ ih =>
    cases ht with
    | inside hb => rw [Code.effect]; exact (ih hb).inside _
  | @skip k head tail b =>
    cases ht with
    | loop _ hb _ hloop =>
      rw [Code.effect]
      -- the analysis leaves from the entry state, the path after one more test of the condition
      refine (Covers.line head).skip fun f => ?_
      rw [Act.needs_trail]
      exact hloop.head rfl f
  | last _ he ih =>
    cases ht with
    | loop _ hb _ _ =>
      have hbody := ih hb
      rw [End.eq_on_of_passes he hbody.stays] at hbody
      rw [Code.effect]
      exact hbody.round.last
  | again _ he _ ihb ihl =>
    have hloop := ihl ht
    cases ht with
    | loop _ hb _ htame =>
      have hbody := ihb hb
      rw [End.eq_on_of_passes he hbody.stays] at hbody
      rw [Code.effect] at hloop ⊢
      -- the rounds that follow are covered by induction on the path, and one more in front adds nothing
      exact hbody.round.again htame.settled hloop
  | leave _ ih =>
    cases ht with
    | loop _ hb _ _ => exact absurd rfl ((ih hb).stays .leave)
  | @ended k skippable head tail b p _ ih =>
    cases ht with
    | loop _ hb _ _ =>
      have hbody := ih hb
      rw [← length_line o head] at hbody
      rw [Code.effect]
      exact .ended (Covers.noted_loop ((Covers.line head).andThen (hbody.cut End.noConfusion)).seen)

/-! ## Bodies -/

namespace Stmt

variable {body : List Stmt} {c : Context}

theorem view_actives (body : List Stmt) (hc : c.silent = 0) :
    (actives (walkAll body c).2).map Sight.view = ((codeAll body).effect c).seen.map (Visit.view c) := by
  rw [walkAll_eq_walk]
  exact ((codeAll body).follows c).seen c rfl hc

theorem exists_visit {k : Nat} {s : Sight} (hc : c.silent = 0)
    (hs : (actives (walkAll body c).2)[k]? = some s) :
    ∃ v, ((codeAll body).effect c).seen[k]? = some v ∧ v.node = s.node ∧
      s.context.state.known = v.needs.after c.state.known := by
  have hk : (((codeAll body).effect c).seen.map (Visit.view c))[k]? = some s.view := by
    rw [← view_actives body hc, getElem?_map, hs]
    rfl
  rw [getElem?_map] at hk
  obtain ⟨v, hv, hview⟩ := Option.map_eq_some_iff.1 hk
  rw [Visit.view, Sight.view, Prod.mk.injEq, Prod.mk.injEq, Prod.mk.injEq] at hview
  exact ⟨v, hv, hview.1, hview.2.2.2.symm⟩

theorem exists_sight {k : Nat} {v : Visit} (hc : c.silent = 0)
    (hv : ((codeAll body).effect c).seen[k]? = some v) :
    ∃ s, (actives (walkAll body c).2)[k]? = some s ∧ s.node = v.node ∧
      s.context.state.known = v.needs.after c.state.known := by
  have hk : ((actives (walkAll body c).2).map Sight.view)[k]? = some (v.view c) := by
    rw [view_actives body hc, getElem?_map, hv]
    rfl
  rw [getElem?_map] at hk
  obtain ⟨s, hs, hview⟩ := Option.map_eq_some_iff.1 hk
  rw [Visit.view, Sight.view, Prod.mk.injEq, Prod.mk.injEq, Prod.mk.injEq] at hview
  exact ⟨s, hs, hview.1, hview.2.2.2⟩

theorem known_walkAll (body : List Stmt) (c : Context) :
    (walkAll body c).1.state.known = ((codeAll body).effect c).final.after c.state.known := by
  rw [walkAll_eq_walk]
  exact ((codeAll body).follows c).final c rfl

end Stmt

end AlLint
