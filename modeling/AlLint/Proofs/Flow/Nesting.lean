import AlLint.Analysis.Basic
import AlLint.Proofs.Flow.Cover

/-!
# What rules look at, and how deep it stands

A loop inside `n` others is walked `2 ^ n` times over, and yet rules look at each statement once, in source
order, and at each call and each operation with two operands once. Where they look, the context counts the loops
and the conditions around. This file says so against the syntax alone: `Stmt.placed` lists the statements of a
body with the statements they stand in, outermost last, and `loops` and `ifs` count among these.

A condition counts for itself already, and one that is all there is in the else branch of another one does not
count at all. The walk meets conditions of loops after their bodies and the values of a case between its
branches, so only statements are in source order (`Shuffled`).
-/

namespace AlLint

open List

variable {s : Stmt}

/-! ## Where a statement stands -/

/-- A part of a statement: what it evaluates itself, a body, or an else branch. -/
inductive Part where
  | head
  | body
  | otherwise

/-- A part of a statement that something stands in. -/
structure Frame where
  stmt : Stmt
  part : Part

namespace Stmt

def isIf : Stmt → Bool
  | ifThen .. => true
  | _ => false

/-- The bodies right inside a statement, with the part that each of them is. -/
def inner : Stmt → List (Part × List Stmt)
  | ifThen _ thenBody elseBody _ => (.body, thenBody) :: elseBody.toList.map (.otherwise, ·)
  | caseOf _ branches elseBody _ => branches.map (.body, ·.body) ++ elseBody.toList.map (.otherwise, ·)
  | repeatUntil body _ _ => [(.body, body)]
  | whileDo _ body _ => [(.body, body)]
  | forTo _ _ _ _ body _ => [(.body, body)]
  | forEach _ _ body _ => [(.body, body)]
  | block body _ => [(.body, body)]
  | withDo _ body _ => [(.body, body)]
  | _ => []

theorem map_inner (s : Stmt) : s.inner.map Prod.snd = s.bodies := by
  cases s <;> simp [inner, bodies, Function.comp_def]

theorem mem_bodies_of_mem_inner {x : Part × List Stmt} (h : x ∈ s.inner) : x.2 ∈ s.bodies := by
  rw [← map_inner]
  exact mem_map_of_mem h

end Stmt

namespace Frame

/-- Whether what stands in a part of a statement is inside a loop. The condition of a `repeat` or a `while` is;
the bounds of a `for` and what a `foreach` goes through are not. -/
def isLoop : Frame → Bool
  | ⟨.repeatUntil .., _⟩ => true
  | ⟨.whileDo .., _⟩ => true
  | ⟨.forTo .., .head⟩ => false
  | ⟨.forTo .., _⟩ => true
  | ⟨.forEach .., .head⟩ => false
  | ⟨.forEach .., _⟩ => true
  | _ => false

/-- Whether a condition that stands there goes on from another one: it is all there is in its else branch. -/
def chains : Frame → Bool
  | ⟨.ifThen _ _ (some [_]) _, .otherwise⟩ => true
  | _ => false

/-- Whether a condition that stands in some parts, innermost first, goes on from another one. -/
def chained : List Frame → Bool
  | [] => false
  | f :: _ => f.chains

def loops (around : List Frame) : Nat := around.countP isLoop

/-- The number of conditions around. One that goes on from another does not count. -/
def ifs : List Frame → Nat
  | [] => 0
  | f :: around => (f.stmt.isIf && !chained around).toNat + ifs around

theorem loops_cons (f : Frame) (around : List Frame) : loops (f :: around) = f.isLoop.toNat + loops around := by
  rw [loops, countP_cons, ← loops]
  cases f.isLoop <;> simp [Nat.add_comm]

end Frame

namespace Stmt

mutual

/-- A statement and the statements inside it, in source order, each with what it stands in. -/
def placed (around : List Frame) : Stmt → List (Stmt × List Frame)
  | s@(ifThen _ thenBody elseBody _) =>
    (s, around) :: (placedAll (⟨s, .body⟩ :: around) thenBody ++ placedElse (⟨s, .otherwise⟩ :: around) elseBody)
  | s@(caseOf _ branches elseBody _) =>
    (s, around) :: (placedBranches (⟨s, .body⟩ :: around) branches ++ placedElse (⟨s, .otherwise⟩ :: around) elseBody)
  | s@(repeatUntil body _ _) => (s, around) :: placedAll (⟨s, .body⟩ :: around) body
  | s@(whileDo _ body _) => (s, around) :: placedAll (⟨s, .body⟩ :: around) body
  | s@(forTo _ _ _ _ body _) => (s, around) :: placedAll (⟨s, .body⟩ :: around) body
  | s@(forEach _ _ body _) => (s, around) :: placedAll (⟨s, .body⟩ :: around) body
  | s@(block body _) => (s, around) :: placedAll (⟨s, .body⟩ :: around) body
  | s@(withDo _ body _) => (s, around) :: placedAll (⟨s, .body⟩ :: around) body
  | s@(assignment ..) => [(s, around)]
  | s@(call ..) => [(s, around)]
  | s@(error ..) => [(s, around)]
  | s@(exit ..) => [(s, around)]
  | s@(jump ..) => [(s, around)]

/-- The statements of a list and the statements inside them. -/
def placedAll (around : List Frame) : List Stmt → List (Stmt × List Frame)
  | [] => []
  | s :: rest => placed around s ++ placedAll around rest

/-- The statements inside an else branch. -/
def placedElse (around : List Frame) : Option (List Stmt) → List (Stmt × List Frame)
  | none => []
  | some body => placedAll around body

/-- The statements inside the branches of a case statement. -/
def placedBranches (around : List Frame) : List (Branch Stmt) → List (Stmt × List Frame)
  | [] => []
  | ⟨_, body, _⟩ :: rest => placedAll around body ++ placedBranches around rest

end

theorem placedAll_eq (around : List Frame) (body : List Stmt) :
    placedAll around body = body.flatMap (placed around) := by
  induction body with
  | nil => rfl
  | cons s rest ih => rw [placedAll, ih, flatMap_cons]

theorem placedElse_eq (around : List Frame) (elseBody : Option (List Stmt)) :
    placedElse around elseBody = elseBody.toList.flatMap (placedAll around) := by
  cases elseBody with
  | none => rfl
  | some body => simp [placedElse]

theorem placedBranches_eq (around : List Frame) (branches : List (Branch Stmt)) :
    placedBranches around branches = branches.flatMap fun b => placedAll around b.body := by
  induction branches with
  | nil => rfl
  | cons b rest ih => rw [placedBranches, ih, flatMap_cons]

/-- A statement stands where it stands, and what is inside it stands in one of its parts. -/
theorem placed_eq (around : List Frame) (s : Stmt) :
    placed around s = (s, around) :: s.inner.flatMap fun x => placedAll (⟨s, x.1⟩ :: around) x.2 := by
  cases s with
  | ifThen condition thenBody elseBody span =>
    rw [placed, placedElse_eq, inner, flatMap_cons, flatMap_map]
  | caseOf selector branches elseBody span =>
    rw [placed, placedElse_eq, placedBranches_eq, inner, flatMap_append, flatMap_map, flatMap_map]
  | _ => simp [placed, inner]

/-- The statements that are placed are the nested ones, in their order. -/
theorem map_placed (s : Stmt) (around : List Frame) : (placed around s).map Prod.fst = s.nested := by
  induction s using induct generalizing around with
  | step s ih =>
    rw [placed_eq, nested_eq, ← map_inner, map_cons, map_flatMap, flatMap_map]
    refine congrArg (s :: ·) (flatMap_congr fun x hx => ?_)
    rw [placedAll_eq, allNested_eq, map_flatMap]
    exact flatMap_congr fun t ht => ih x.2 (mem_bodies_of_mem_inner hx) t ht _

theorem map_placedAll (body : List Stmt) (around : List Frame) :
    (placedAll around body).map Prod.fst = allNested body := by
  rw [placedAll_eq, allNested_eq, map_flatMap]
  exact flatMap_congr fun s _ => map_placed s around

end Stmt

/-! ## What the skeleton shows -/

/-- A node with the number of loops and conditions around it. -/
structure Spot where
  node : Node
  loops : Nat
  ifs : Nat

/-- A spot inside more loops and conditions. -/
def Spot.under (loops ifs : Nat) (s : Spot) : Spot := ⟨s.node, loops + s.loops, ifs + s.ifs⟩

/-- The statement at a spot, with what is around it. -/
def Spot.stmt? : Spot → Option (Stmt × Nat × Nat)
  | ⟨.stmt s, loops, ifs⟩ => some (s, loops, ifs)
  | _ => none

def spotsAt (loops ifs : Nat) (nodes : List Node) : List Spot := nodes.map (⟨·, loops, ifs⟩)

/-- What a walk through a skeleton comes upon. -/
def Code.spots : Code → List Spot
  | line acts => spotsAt 0 0 (Act.nodes acts)
  | stop => []
  | jump _ => []
  | seq a b => a.spots ++ b.spots
  | choice os => os.flatMap spots
  | inside deeper b => b.spots.map (Spot.under 0 deeper.toNat)
  | loop _ head b tail =>
    (spotsAt 0 0 (Act.nodes head) ++ (b.spots ++ spotsAt 0 0 (Act.nodes tail))).map (Spot.under 1 0)

/-- What rules can tell of the depth of a node. -/
def Visit.spot (v : Visit) : Spot := ⟨v.node, v.loops, v.ifs⟩

theorem Effect.spots_line (o : Context) (acts : List Act) :
    (Effect.line o acts).seen.map Visit.spot = spotsAt 0 0 (Act.nodes acts) := by
  induction acts with
  | nil => rfl
  | cons a rest ih =>
    rw [Effect.line, Effect.andThen, map_append, map_map]
    have hrest : (Effect.line o rest).seen.map (Visit.spot ∘ Visit.behind (Effect.act o a).final) =
        spotsAt 0 0 (Act.nodes rest) := ih
    rw [hrest, Effect.act, Act.nodes, Act.nodes, filterMap_cons]
    cases a.node? <;> rfl

theorem Code.spots_effect (o : Context) (code : Code) : (code.effect o).seen.map Visit.spot = code.spots := by
  induction code with
  | line acts => rw [effect, spots, Effect.spots_line]
  | stop => rw [effect, spots]; rfl
  | jump j => rw [effect, spots]; rfl
  | seq a b iha ihb =>
    rw [effect, spots, Effect.andThen, map_append, map_map, ← iha, ← ihb]
    rfl
  | choice os ih =>
    rw [effect, spots, Effect.join, flatMap_map, map_flatMap]
    exact flatMap_congr ih
  | inside deeper b ih =>
    rw [effect, spots, Effect.inside, map_map, ← ih, map_map]
    refine map_congr_left fun v _ => ?_
    simp [Visit.spot, Spot.under]
  | loop skippable head b tail ih =>
    rw [effect, spots, Effect.loop, map_map, ← ih, ← Effect.spots_line o head, ← Effect.spots_line o tail,
      Effect.round]
    simp only [Effect.andThen, map_append, map_map]
    simp [Function.comp_def, Visit.spot, Visit.behind, Spot.under]

/-! ## Statements in order, the rest in any -/

/-- The same spots, with the statements among them in the same order. -/
structure Shuffled (xs ys : List Spot) : Prop where
  perm : xs.Perm ys
  stmts : xs.filterMap Spot.stmt? = ys.filterMap Spot.stmt?

namespace Shuffled

variable {xs ys zs us vs : List Spot}

theorem refl (xs : List Spot) : Shuffled xs xs := ⟨.refl _, rfl⟩

theorem trans (h : Shuffled xs ys) (h' : Shuffled ys zs) : Shuffled xs zs :=
  ⟨h.perm.trans h'.perm, h.stmts.trans h'.stmts⟩

theorem append (h : Shuffled xs ys) (h' : Shuffled us vs) : Shuffled (xs ++ us) (ys ++ vs) where
  perm := h.perm.append h'.perm
  stmts := by rw [filterMap_append, filterMap_append, h.stmts, h'.stmts]

theorem cons (x : Spot) (h : Shuffled xs ys) : Shuffled (x :: xs) (x :: ys) := (refl [x]).append h

theorem swap (xs : List Spot) (h : us.filterMap Spot.stmt? = []) : Shuffled (xs ++ us) (us ++ xs) where
  perm := perm_append_comm
  stmts := by rw [filterMap_append, filterMap_append, h, append_nil, nil_append]

theorem flatMap {α : Type} {l : List α} {f g : α → List Spot} (h : ∀ x ∈ l, Shuffled (f x) (g x)) :
    Shuffled (l.flatMap f) (l.flatMap g) := by
  induction l with
  | nil => exact refl []
  | cons x rest ih =>
    rw [flatMap_cons, flatMap_cons]
    exact (h x mem_cons_self).append (ih fun y hy => h y (mem_cons_of_mem _ hy))

theorem under (h : Shuffled xs ys) (loops ifs : Nat) :
    Shuffled (xs.map (Spot.under loops ifs)) (ys.map (Spot.under loops ifs)) where
  perm := h.perm.map _
  stmts := by
    -- a statement is still one when it stands deeper
    have hstmt : ∀ l : List Spot, (l.map (Spot.under loops ifs)).filterMap Spot.stmt? =
        (l.filterMap Spot.stmt?).map fun x => (x.1, loops + x.2.1, ifs + x.2.2) := by
      intro l
      rw [filterMap_map, map_filterMap]
      refine filterMap_congr fun x _ => ?_
      obtain ⟨n, l, i⟩ := x
      cases n <;> rfl
    rw [hstmt, hstmt, h.stmts]

end Shuffled

/-! ## One statement -/

theorem Act.nodes_append (as bs : List Act) : Act.nodes (as ++ bs) = Act.nodes as ++ Act.nodes bs :=
  filterMap_append ..

theorem spotsAt_append (loops ifs : Nat) (ns ms : List Node) :
    spotsAt loops ifs (ns ++ ms) = spotsAt loops ifs ns ++ spotsAt loops ifs ms := map_append ..

theorem map_under_spotsAt (loops ifs l i : Nat) (ns : List Node) :
    (spotsAt l i ns).map (Spot.under loops ifs) = spotsAt (loops + l) (ifs + i) ns := by
  rw [spotsAt, map_map]
  rfl

theorem map_under_zero (xs : List Spot) : xs.map (Spot.under 0 0) = xs := by
  refine (map_congr_left fun x _ => ?_).trans (map_id xs)
  simp [Spot.under]

theorem map_under_under (xs : List Spot) (l i l' i' : Nat) :
    (xs.map (Spot.under l i)).map (Spot.under l' i') = xs.map (Spot.under (l + l') (i + i')) := by
  rw [map_map]
  refine map_congr_left fun x _ => ?_
  simp only [Function.comp_apply, Spot.under, Spot.mk.injEq, true_and]
  omega

theorem stmts_spotsAt_exprs (loops ifs : Nat) (es : List Expr) :
    (spotsAt loops ifs (Act.nodes (Expr.actsAll es))).filterMap Spot.stmt? = [] := by
  rw [spotsAt, filterMap_map, filterMap_eq_nil_iff]
  intro n hn
  obtain ⟨a, ha, hnode⟩ := mem_filterMap.1 hn
  have hevaluates := Expr.evaluatesAll es a ha
  cases a with
  | see m =>
    obtain ⟨e, _, rfl⟩ := hevaluates
    obtain rfl : Node.expr e = n := Option.some.inj hnode
    rfl
  | call k => simp [Act.node?] at hnode
  | assign target op value => simp [Act.node?] at hnode

theorem Expr.actsAll_append (es fs : List Expr) :
    Expr.actsAll (es ++ fs) = Expr.actsAll es ++ Expr.actsAll fs := by
  rw [Expr.actsAll_eq, Expr.actsAll_eq, Expr.actsAll_eq, flatMap_append]

namespace Stmt

theorem spots_codeAll (body : List Stmt) : (codeAll body).spots = body.flatMap fun t => (code false t).spots := by
  induction body with
  | nil => rw [codeAll, Code.spots]; rfl
  | cons s rest ih => rw [codeAll, Code.spots, ih, flatMap_cons]

/-- In the else branch of a condition, one that is alone goes on from it. -/
theorem spots_codeElse (condition : Expr) (thenBody : List Stmt) (elseBody : Option (List Stmt)) (span : Span) :
    (codeElse elseBody).spots = elseBody.toList.flatMap fun body => body.flatMap fun t =>
      (code (Frame.chains ⟨.ifThen condition thenBody elseBody span, .otherwise⟩) t).spots := by
  rcases elseBody with _ | _ | ⟨s, _ | ⟨t, rest⟩⟩
  · rw [codeElse, Code.spots]; rfl
  · rw [codeElse, Code.spots]; rfl
  · simp [codeElse, Frame.chains]
  · rw [codeElse.eq_4 _ _ (by simp), ← codeAll, spots_codeAll]
    simp [Frame.chains]

theorem spots_codeOther (elseBody : Option (List Stmt)) :
    (codeOther elseBody).spots = elseBody.toList.flatMap fun body => body.flatMap fun t => (code false t).spots := by
  cases elseBody with
  | none => rw [codeOther, Code.spots]; rfl
  | some body => rw [codeOther, spots_codeAll]; simp

/-- The values of all branches can be listed before all of their bodies. -/
theorem shuffled_codeCases (branches : List (Branch Stmt)) :
    Shuffled ((codeCases branches).flatMap Code.spots)
      (spotsAt 0 0 (Act.nodes (Expr.actsAll (branches.flatMap Branch.values))) ++
        branches.flatMap fun b => b.body.flatMap fun t => (code false t).spots) := by
  induction branches with
  | nil => rw [codeCases]; exact .refl []
  | cons b rest ih =>
    rw [codeCases, flatMap_cons, Code.spots, Code.spots, spots_codeAll, flatMap_cons, flatMap_cons,
      Expr.actsAll_append, Act.nodes_append, spotsAt_append, append_assoc, append_assoc]
    refine (Shuffled.refl _).append (((Shuffled.refl _).append ih).trans ?_)
    rw [← append_assoc, ← append_assoc]
    exact (Shuffled.swap _ (stmts_spotsAt_exprs ..)).append (.refl _)

/-- How deep the inside of a statement is because of the statement itself. -/
def ifStep (chained : Bool) (s : Stmt) : Nat := (s.isIf && !chained).toNat

/-- What is shown of the inside of a statement. -/
def innerSpots (chained : Bool) (s : Stmt) : List Spot :=
  s.inner.flatMap fun x => x.2.flatMap fun t =>
    (code (Frame.chains ⟨s, x.1⟩) t).spots.map (Spot.under (Frame.isLoop ⟨s, x.1⟩).toNat (s.ifStep chained))

/-- What is shown of what a statement evaluates itself. -/
def headSpots (chained : Bool) (s : Stmt) : List Spot :=
  spotsAt (Frame.isLoop ⟨s, .head⟩).toNat (s.ifStep chained) (Act.nodes (Expr.actsAll s.exprs))

theorem ifStep_eq_zero (h : s.isIf = false) (chained : Bool) : s.ifStep chained = 0 := by
  rw [ifStep, h]
  rfl

theorem headSpots_eq (looping : Bool) (hloop : Frame.isLoop ⟨s, .head⟩ = looping) (hif : s.isIf = false)
    (chained : Bool) : s.headSpots chained = spotsAt looping.toNat 0 (Act.nodes (Expr.actsAll s.exprs)) := by
  rw [headSpots, hloop, ifStep_eq_zero hif]

theorem innerSpots_eq {body : List Stmt} (looping : Bool) (hinner : s.inner = [(.body, body)])
    (hloop : Frame.isLoop ⟨s, .body⟩ = looping) (hchains : Frame.chains ⟨s, .body⟩ = false) (hif : s.isIf = false)
    (chained : Bool) : s.innerSpots chained = (codeAll body).spots.map (Spot.under looping.toNat 0) := by
  rw [innerSpots, hinner, flatMap_singleton, spots_codeAll, map_flatMap, hloop, hchains, ifStep_eq_zero hif]

theorem spots_see (s : Stmt) (acts : List Act) :
    (Code.line (.see (.stmt s) :: acts)).spots = ⟨.stmt s, 0, 0⟩ :: spotsAt 0 0 (Act.nodes acts) := by
  rw [Code.spots]
  rfl

theorem shuffled_straight {acts : List Act} (hacts : Act.nodes acts = Act.nodes (Expr.actsAll s.exprs))
    (hinner : s.inner = []) (hloop : Frame.isLoop ⟨s, .head⟩ = false) (hif : s.isIf = false) (chained : Bool) :
    Shuffled (⟨.stmt s, 0, 0⟩ :: spotsAt 0 0 (Act.nodes acts))
      (⟨.stmt s, 0, s.ifStep chained⟩ :: (s.headSpots chained ++ s.innerSpots chained)) := by
  rw [ifStep_eq_zero hif, headSpots_eq false hloop hif, Bool.toNat_false, innerSpots, hinner,
    flatMap_nil, append_nil, hacts]
  exact .refl _

/-- **What a statement shows**: itself, what it evaluates, and what is inside it. -/
theorem shuffled_code (chained : Bool) (s : Stmt) :
    Shuffled (code chained s).spots
      (⟨.stmt s, 0, s.ifStep chained⟩ :: (s.headSpots chained ++ s.innerSpots chained)) := by
  cases s with
  | assignment target op value span =>
    rw [code, spots_see]
    exact shuffled_straight (by simp [Act.nodes, exprs, Expr.actsAll, Act.node?]) rfl rfl rfl chained
  | call c span =>
    rw [code, spots_see]
    exact shuffled_straight (by simp [exprs, Expr.actsAll]) rfl rfl rfl chained
  | error c span =>
    rw [code, Code.spots, spots_see, Code.spots, append_nil]
    exact shuffled_straight (by simp [exprs, Expr.actsAll]) rfl rfl rfl chained
  | exit value span =>
    rw [code, Code.spots, spots_see, Code.spots, append_nil]
    exact shuffled_straight (by cases value <;> simp [exprs, Expr.actsAll, Expr.actsOption]) rfl rfl rfl chained
  | jump j span =>
    rw [code, Code.spots, spots_see, Code.spots, append_nil]
    exact shuffled_straight rfl rfl rfl rfl chained
  | block body span =>
    rw [code, Code.spots, spots_see, ifStep_eq_zero rfl, headSpots_eq false rfl rfl,
      innerSpots_eq false rfl rfl rfl rfl,
      Bool.toNat_false, map_under_zero]
    exact .refl _
  | withDo target body span =>
    rw [code, Code.spots, spots_see, ifStep_eq_zero rfl, headSpots_eq false rfl rfl,
      innerSpots_eq false rfl rfl rfl rfl, Bool.toNat_false, map_under_zero, exprs, Expr.actsAll, Expr.actsAll,
      append_nil]
    exact .refl _
  | ifThen condition thenBody elseBody span =>
    rw [code, Code.spots, Code.spots, spots_see, Code.spots, flatMap_cons, flatMap_singleton, spots_codeAll,
      spots_codeElse condition thenBody elseBody span]
    have hinner : innerSpots chained (.ifThen condition thenBody elseBody span) =
        ((thenBody.flatMap fun t => (code false t).spots) ++ elseBody.toList.flatMap fun body => body.flatMap fun t =>
          (code (Frame.chains ⟨.ifThen condition thenBody elseBody span, .otherwise⟩) t).spots).map
            (Spot.under 0 (!chained).toNat) := by
      rw [innerSpots, inner, flatMap_cons, flatMap_map, map_append, map_flatMap, map_flatMap]
      simp [Frame.chains, Frame.isLoop, ifStep, isIf, map_flatMap]
    rw [hinner, headSpots, exprs, Expr.actsAll, Expr.actsAll, append_nil, map_append, map_cons,
      map_under_spotsAt]
    exact .refl _
  | caseOf selector branches elseBody span =>
    have hinner : innerSpots chained (.caseOf selector branches elseBody span) =
        (branches.flatMap fun b => b.body.flatMap fun t => (code false t).spots) ++
          elseBody.toList.flatMap fun body => body.flatMap fun t => (code false t).spots := by
      rw [innerSpots, inner, flatMap_append, flatMap_map, flatMap_map, ifStep_eq_zero rfl]
      simp [Frame.chains, Frame.isLoop, map_under_zero]
    rw [code, Code.spots, spots_see, Code.spots, flatMap_append, flatMap_singleton, spots_codeOther,
      ifStep_eq_zero rfl, headSpots_eq false rfl rfl, hinner, exprs, Expr.actsAll, Act.nodes_append, spotsAt_append,
      Bool.toNat_false, cons_append, append_assoc]
    refine .cons _ ((Shuffled.refl _).append ?_)
    rw [← append_assoc]
    exact (shuffled_codeCases branches).append (.refl _)
  | repeatUntil body condition span =>
    rw [code, Code.spots, spots_see, Code.spots, ifStep_eq_zero rfl, headSpots_eq true rfl rfl,
      innerSpots_eq true rfl rfl rfl rfl, Bool.toNat_true, exprs]
    refine .cons _ ?_
    -- the condition is tested behind the body
    have hswap := Shuffled.swap ((codeAll body).spots.map (Spot.under 1 0)) (stmts_spotsAt_exprs 1 0 [condition])
    rw [Expr.actsAll, Expr.actsAll, append_nil] at hswap ⊢
    show Shuffled (((codeAll body).spots ++ spotsAt 0 0 (Act.nodes condition.acts)).map (Spot.under 1 0)) _
    rw [map_append, map_under_spotsAt]
    exact hswap
  | whileDo condition body span =>
    rw [code, Code.spots, spots_see, Code.spots, ifStep_eq_zero rfl, headSpots_eq true rfl rfl,
      innerSpots_eq true rfl rfl rfl rfl, Bool.toNat_true, exprs, Expr.actsAll, Expr.actsAll, append_nil,
      map_append, map_under_spotsAt]
    refine .cons _ ?_
    simpa [Act.nodes, spotsAt] using Shuffled.refl _
  | forTo counter first last down body span =>
    rw [code, Code.spots, spots_see, Code.spots, ifStep_eq_zero rfl, headSpots_eq false rfl rfl,
      innerSpots_eq true rfl rfl rfl rfl, Bool.toNat_true, Bool.toNat_false, exprs, Expr.actsAll, Expr.actsAll,
      Expr.actsAll, append_nil]
    refine .cons _ ?_
    simpa [Act.nodes, spotsAt] using Shuffled.refl _
  | forEach item iterable body span =>
    rw [code, Code.spots, spots_see, Code.spots, ifStep_eq_zero rfl, headSpots_eq false rfl rfl,
      innerSpots_eq true rfl rfl rfl rfl, Bool.toNat_true, Bool.toNat_false, exprs, Expr.actsAll, Expr.actsAll,
      append_nil]
    refine .cons _ ?_
    simpa [Act.nodes, spotsAt] using Shuffled.refl _

/-! ## A whole body -/

/-- What rules see of a statement that stands in some parts: the statement, and what it evaluates. -/
def ownSpots (x : Stmt × List Frame) : List Spot :=
  ⟨.stmt x.1, Frame.loops x.2, Frame.ifs (⟨x.1, .head⟩ :: x.2)⟩ ::
    spotsAt (Frame.loops (⟨x.1, .head⟩ :: x.2)) (Frame.ifs (⟨x.1, .head⟩ :: x.2)) (Act.nodes (Expr.actsAll x.1.exprs))

/-- **A statement shows what the statements nested in it show, each as deep as it stands.** -/
theorem shuffled_placed (s : Stmt) (around : List Frame) :
    Shuffled ((code (Frame.chained around) s).spots.map (Spot.under (Frame.loops around) (Frame.ifs around)))
      ((placed around s).flatMap ownSpots) := by
  induction s using induct generalizing around with
  | step s ih =>
    refine ((shuffled_code _ s).under (Frame.loops around) (Frame.ifs around)).trans ?_
    rw [placed_eq, flatMap_cons, map_cons, map_append, flatMap_assoc]
    -- the parts of the statement are as deep as what stands in them sees
    have hifs : ∀ part, s.ifStep (Frame.chained around) + Frame.ifs around = Frame.ifs (⟨s, part⟩ :: around) :=
      fun _ => rfl
    have hhead : (s.headSpots (Frame.chained around)).map (Spot.under (Frame.loops around) (Frame.ifs around)) =
        spotsAt (Frame.loops (⟨s, .head⟩ :: around)) (Frame.ifs (⟨s, .head⟩ :: around))
          (Act.nodes (Expr.actsAll s.exprs)) := by
      rw [headSpots, map_under_spotsAt, Frame.loops_cons, ← hifs .head, Nat.add_comm (Frame.loops around),
        Nat.add_comm (Frame.ifs around)]
    rw [hhead, ownSpots, cons_append, ← hifs .head, Spot.under, Nat.add_zero, Nat.add_comm (Frame.ifs around)]
    refine .cons _ ((Shuffled.refl _).append ?_)
    rw [innerSpots, map_flatMap]
    refine .flatMap fun x hx => ?_
    rw [map_flatMap, placedAll_eq, flatMap_assoc]
    refine .flatMap fun t ht => ?_
    -- the statements inside stand in one part more
    rw [map_under_under, hifs x.1, ← Frame.loops_cons]
    exact ih x.2 (mem_bodies_of_mem_inner hx) t ht (⟨s, x.1⟩ :: around)

theorem shuffled_placedAll (body : List Stmt) :
    Shuffled (codeAll body).spots ((placedAll [] body).flatMap ownSpots) := by
  rw [spots_codeAll, placedAll_eq, flatMap_assoc]
  refine .flatMap fun s _ => ?_
  have h := shuffled_placed s []
  rwa [show Frame.loops [] = 0 from rfl, show Frame.ifs [] = 0 from rfl, map_under_zero] at h

end Stmt

/-! ## Calls and operations -/

/-- Whether an expression is a call or has two operands. -/
def Expr.isOperation : Expr → Bool
  | call .. => true
  | binary .. => true
  | _ => false

/-- The call or operation that a node is. -/
def Node.operation? : Node → Option Expr
  | expr e => if e.isOperation then some e else none
  | _ => none

/-- The calls and operations among nodes. -/
def operations (nodes : List Node) : List Expr := nodes.filterMap Node.operation?

theorem operations_append (ns ms : List Node) : operations (ns ++ ms) = operations ns ++ operations ms :=
  filterMap_append ..

namespace Expr

/-- What is called is no operation where it is passed over. -/
theorem filter_subexpressions (e : Expr) : e.subexpressions.filter isOperation =
    [e].filter isOperation ++ (e.evaluated.flatMap subexpressions).filter isOperation := by
  rw [subexpressions_eq, ← singleton_append, filter_append]
  cases e with
  | call callee args implicit span =>
    cases callee <;> simp [operands, evaluated, calleeOperands, subexpressions, isOperation]
  | _ => rfl

theorem operations_acts (e : Expr) : operations (Act.nodes e.acts) =
    (e.evaluated.flatMap fun d => operations (Act.nodes d.acts)) ++ [e].filter isOperation := by
  have hself : operations (Act.nodes (.see (.expr e) :: e.effect)) = [e].filter isOperation := by
    cases e <;> rfl
  rw [acts_eq, Act.nodes_append, operations_append, hself]
  simp only [Act.nodes, operations, filterMap_flatMap]

/-- **Each call and operation in an expression is come upon once.** -/
theorem operations_perm (e : Expr) : (operations (Act.nodes e.acts)).Perm (e.subexpressions.filter isOperation) := by
  induction e using induct with
  | step e ih =>
    rw [operations_acts, filter_subexpressions, filter_flatMap]
    exact perm_append_comm.trans ((List.Perm.flatMap_left _ ih).append_left _)

theorem operationsAll_perm (es : List Expr) :
    (operations (Act.nodes (actsAll es))).Perm ((allSubexpressions es).filter isOperation) := by
  rw [actsAll_eq, allSubexpressions_eq, filter_flatMap, Act.nodes, operations, filterMap_flatMap, filterMap_flatMap]
  exact List.Perm.flatMap_left _ fun e _ => e.operations_perm

end Expr

/-! ## What rules look at -/

/-- What the context tells of the depth of a node. -/
def Sight.depths (s : Sight) : Node × Int × Nat := (s.node, s.context.loopDepth, s.context.ifDepth)

def Spot.depths (x : Spot) : Node × Int × Nat := (x.node, x.loops, x.ifs)

def stmtAt? : Node × Int × Nat → Option (Stmt × Int × Nat)
  | (.stmt s, depth) => some (s, depth)
  | _ => none

def operationAt? : Node × Int × Nat → Option (Expr × Int × Nat)
  | (n, depth) => n.operation?.map (·, depth)

/-- The depth of what a statement evaluates, if the statement stands in some parts. -/
def Frame.headDepth (s : Stmt) (around : List Frame) : Int × Nat :=
  (loops (⟨s, .head⟩ :: around), ifs (⟨s, .head⟩ :: around))

namespace Stmt

variable {body : List Stmt} {c : Context}

theorem depths_actives (hs : c.silent = 0) (hl : c.loopDepth = 0) (hi : c.ifDepth = 0) :
    (actives (walkAll body c).2).map Sight.depths = (codeAll body).spots.map Spot.depths := by
  have hview := congrArg (List.map fun x => (x.1, x.2.1, x.2.2.1)) (view_actives body hs)
  rw [map_map, map_map] at hview
  rw [← Code.spots_effect c, map_map]
  refine hview.trans (map_congr_left fun v _ => ?_)
  simp [Visit.view, Visit.spot, Spot.depths, hl, hi]

/-- Of a statement and what it evaluates, the statement is the only statement. -/
theorem stmts_ownSpots (x : Stmt × List Frame) :
    (ownSpots x).filterMap Spot.stmt? = [(x.1, Frame.loops x.2, Frame.ifs (⟨x.1, .head⟩ :: x.2))] := by
  rw [ownSpots, filterMap_cons, stmts_spotsAt_exprs]
  rfl

/-- The calls and operations that a statement evaluates are those in its expressions. -/
theorem operations_ownSpots (x : Stmt × List Frame) :
    (((ownSpots x).map Spot.depths).filterMap operationAt?).Perm
      (((Expr.allSubexpressions x.1.exprs).filter Expr.isOperation).map (·, Frame.headDepth x.1 x.2)) := by
  have hhead : ∀ l i (ns : List Node), ((spotsAt l i ns).map Spot.depths).filterMap operationAt? =
      (operations ns).map (·, (l : Int), i) := by
    intro l i ns
    rw [spotsAt, map_map, filterMap_map, operations, map_filterMap]
    rfl
  rw [ownSpots, map_cons, filterMap_cons]
  show (((spotsAt _ _ _).map Spot.depths).filterMap operationAt?).Perm _
  rw [hhead]
  exact (Expr.operationsAll_perm x.1.exprs).map _

theorem stmts_actives (hs : c.silent = 0) (hl : c.loopDepth = 0) (hi : c.ifDepth = 0) :
    ((actives (walkAll body c).2).map Sight.depths).filterMap stmtAt? =
      (placedAll [] body).map fun x => (x.1, (Frame.loops x.2 : Int), Frame.ifs (⟨x.1, .head⟩ :: x.2)) := by
  have hspot : ∀ xs : List Spot, (xs.map Spot.depths).filterMap stmtAt? =
      (xs.filterMap Spot.stmt?).map fun x => (x.1, (x.2.1 : Int), x.2.2) := by
    intro xs
    rw [filterMap_map, map_filterMap]
    refine filterMap_congr fun x _ => ?_
    obtain ⟨n, l, i⟩ := x
    cases n <;> rfl
  rw [depths_actives hs hl hi, hspot, (shuffled_placedAll body).stmts, filterMap_flatMap, map_flatMap,
    map_eq_flatMap]
  exact flatMap_congr fun x _ => by rw [stmts_ownSpots]; rfl

theorem operations_actives (hs : c.silent = 0) (hl : c.loopDepth = 0) (hi : c.ifDepth = 0) :
    (((actives (walkAll body c).2).map Sight.depths).filterMap operationAt?).Perm
      ((placedAll [] body).flatMap fun x =>
        ((Expr.allSubexpressions x.1.exprs).filter Expr.isOperation).map (·, Frame.headDepth x.1 x.2)) := by
  rw [depths_actives hs hl hi]
  -- where the walk meets them in another order, they are still the same calls and operations
  refine (((shuffled_placedAll body).perm.map Spot.depths).filterMap operationAt?).trans ?_
  rw [map_flatMap, filterMap_flatMap]
  exact List.Perm.flatMap_left _ fun x _ => operations_ownSpots x

/-- **Rules look at each statement once and in source order, and at each call and operation once.** The context
then counts the loops around, and the conditions around, the statement itself among them unless it goes on from
another condition. Behind the body the counts are what they were, and there is always one entry state for each
loop around. -/
theorem looks_once (settings : Settings) (options : Options) (d : Declaration) (place : Place)
    (routine : Option Routine) (owner : Option String) (body : List Stmt) :
    let c := Analysis.contextFor settings options d place routine owner
    let w := walkAll body c
    ((placedAll [] body).map Prod.fst = allNested body ∧
      ((actives w.2).map Sight.depths).filterMap stmtAt? =
        (placedAll [] body).map fun x => (x.1, (Frame.loops x.2 : Int), Frame.ifs (⟨x.1, .head⟩ :: x.2))) ∧
    (((actives w.2).map Sight.depths).filterMap operationAt?).Perm
      ((placedAll [] body).flatMap fun x =>
        ((Expr.allSubexpressions x.1.exprs).filter Expr.isOperation).map (·, Frame.headDepth x.1 x.2)) ∧
    (w.1.loopDepth = c.loopDepth ∧ w.1.loopEntries = c.loopEntries ∧ w.1.ifDepth = c.ifDepth ∧
      w.1.silent = c.silent) ∧
    ∀ s ∈ w.2, (s.context.loopEntries.length : Int) = s.context.loopDepth := by
  intro c w
  have hfollows := (codeAll body).follows c
  rw [← walkAll_eq_walk] at hfollows
  have hframe : w.1 = c.withState w.1.state := hfollows.frame c
  refine ⟨⟨map_placedAll body [], stmts_actives rfl rfl rfl⟩, operations_actives rfl rfl rfl, ?_,
    hfollows.entries c rfl⟩
  rw [hframe]
  exact ⟨rfl, rfl, rfl, rfl⟩

open Sample

/-- A condition that nothing is around. -/
def loneIf : Stmt := .ifThen (var "Done") [run "A" "Get"] none here

/-- A condition that is all there is in the else branch of a case. -/
def caseElseIf : Stmt := .caseOf (var "Kind") [] (some [loneIf]) here

/-- **A condition counts for itself, and it counts in the else branch of a case.** Rules are told of one
condition around one that nothing is around, and around what is inside one that is all there is in an else
branch. -/
theorem if_counts_itself :
    (placedAll [] [loneIf]).head? = some (loneIf, []) ∧
      (((actives (walkAll [loneIf] context).2).map Sight.depths).filterMap stmtAt?).head? = some (loneIf, 0, 1) ∧
    (placedAll [] [caseElseIf])[2]? =
        some (run "A" "Get", [⟨loneIf, .body⟩, ⟨.caseOf (var "Kind") [] (some [loneIf]) here, .otherwise⟩]) ∧
      (((actives (walkAll [caseElseIf] context).2).map Sight.depths).filterMap stmtAt?)[2]? =
        some (run "A" "Get", 0, 1) := by
  rw [stmts_actives rfl rfl rfl, stmts_actives rfl rfl rfl]
  exact ⟨rfl, rfl, rfl, rfl⟩

end Stmt

end AlLint
