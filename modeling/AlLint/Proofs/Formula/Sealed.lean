import AlLint.Formula.Eval

/-!
# Formulas behind a sealed view

An evaluation is compared with the same evaluation behind a sealed view, which has only the surroundings to go
by. The two go alike step by step, unless the sealed one comes to something that is beyond (`Follows`). All that
a formula is made of keeps this: what gives the parts of an evaluation alike gives the whole alike
(`Follows.bind`), and so does every helper, operator and form of a formula, if the engines that it goes on with
are alike (`Engine.Follows`). The induction is on the number of steps (`follows_eval`).
-/

namespace AlLint.Formula

/-- `x` goes as `y` does, unless `y` comes to something that is beyond. -/
def Follows {α : Type} (x y : EvalM α) : Prop := ∀ m, y.run m = .error (.failed .beyond) ∨ x.run m = y.run m

namespace Follows

variable {α β : Type}

theorem refl (x : EvalM α) : Follows x x := fun _ => .inr rfl

theorem bind {x y : EvalM α} {f f' : α → EvalM β} (h : Follows x y) (hf : ∀ a, Follows (f a) (f' a)) :
    Follows (x >>= f) (y >>= f') := by
  intro m
  rw [StateT.run_bind, StateT.run_bind]
  rcases h m with hy | hxy
  · exact .inl (by rw [hy]; rfl)
  · rw [hxy]
    cases hy : y.run m with
    | error e => exact .inr rfl
    | ok r => exact hf r.1 r.2

theorem same {x : EvalM α} {f f' : α → EvalM β} (hf : ∀ a, Follows (f a) (f' a)) : Follows (x >>= f) (x >>= f') :=
  bind (refl x) hf

theorem done {x y : EvalM α} {f : α → EvalM β} (h : Follows x y) : Follows (x >>= f) (y >>= f) :=
  bind h fun a => refl (f a)

theorem beyond (x : EvalM α) : Follows x (attempt (.error .beyond)) := fun _ => .inl rfl

theorem ite {c : Prop} [Decidable c] {x x' y y' : EvalM α} (h : Follows x y) (h' : Follows x' y') :
    Follows (if c then x else x') (if c then y else y') := by
  split
  · exact h
  · exact h'

theorem mapM {f f' : α → EvalM β} (h : ∀ a, Follows (f a) (f' a)) (as : List α) :
    Follows (as.mapM f) (as.mapM f') := by
  induction as with
  | nil => exact refl _
  | cons a as ih =>
    rw [List.mapM_cons, List.mapM_cons]
    exact bind (h a) fun b => done ih

theorem foldlM {f f' : β → α → EvalM β} (h : ∀ b a, Follows (f b a) (f' b a)) (b : β) (as : List α) :
    Follows (as.foldlM f b) (as.foldlM f' b) := by
  induction as generalizing b with
  | nil => exact refl _
  | cons a as ih =>
    rw [List.foldlM_cons, List.foldlM_cons]
    exact bind (h b a) fun b => ih b

end Follows

/-- The evaluations of `g` go as those of `g'` do, and the view of `g'` is sealed. -/
structure Engine.Follows (g g' : Engine) : Prop where
  face : g.scene.face = g'.scene.face
  sealed : g'.scene.behind = .sealed
  limit : g.limit = g'.limit
  eval : ∀ env t, Formula.Follows (g.eval env t) (g'.eval env t)
  next : ∀ n, Formula.Follows (g.next n) (g'.next n)

variable {α β : Type} {g g' : Engine} (h : g.Follows g')
include h

/-! ## Going through items -/

namespace Source

theorem follows_next (s : Source) : Follows (s.next g) (s.next g') := by
  cases s with
  | items vs => cases vs <;> exact .refl _
  | generator n => exact .done (h.next n)

omit h in
theorem follows_foldItems {step step' : β → Value → EvalM (ForInStep β)}
    (hstep : ∀ b v, Follows (step b v) (step' b v)) (b : β)
    (vs : List Value) : Follows (foldItems step b vs) (foldItems step' b vs) := by
  induction vs generalizing b with
  | nil => exact .refl _
  | cons v vs ih =>
    refine .bind (hstep b v) fun r => ?_
    cases r with
    | done b => exact .refl _
    | yield b => exact ih b

theorem follows_foldGenerator {step step' : β → Value → EvalM (ForInStep β)}
    (hstep : ∀ b v, Follows (step b v) (step' b v))
    (n limit : Nat) (b : β) : Follows (foldGenerator g n step limit b) (foldGenerator g' n step' limit b) := by
  induction limit generalizing b with
  | zero => exact .refl _
  | succ limit ih =>
    refine .bind (h.next n) fun item => ?_
    cases item with
    | none => exact .refl _
    | some v =>
      refine .bind (hstep b v) fun r => ?_
      cases r with
      | done b => exact .refl _
      | yield b => exact ih b

theorem follows_fold {step step' : β → Value → EvalM (ForInStep β)}
    (hstep : ∀ b v, Follows (step b v) (step' b v)) (s : Source)
    (b : β) : Follows (s.fold g b step) (s.fold g' b step') := by
  cases s with
  | items vs => exact follows_foldItems hstep b vs
  | generator n =>
    rw [fold, fold, h.limit]
    exact follows_foldGenerator h hstep n _ b

theorem follows_toList (s : Source) : Follows (s.toList g) (s.toList g') := by
  cases s with
  | items vs => exact .refl _
  | generator n => exact .done (follows_fold h (fun _ _ => .refl _) _ _)

theorem follows_any (s : Source) {test test' : Value → EvalM Bool} (htest : ∀ v, Follows (test v) (test' v)) :
    Follows (s.any g test) (s.any g' test') :=
  follows_fold h (fun _ v => .done (htest v)) s false

end Source

open Source

theorem follows_itemsOf (v : Value) : Follows (itemsOf g v) (itemsOf g' v) := .same fun s => follows_toList h s

theorem follows_contains (container v : Value) : Follows (container.contains g v) (container.contains g' v) := by
  have hsource : Follows (do (← sourceOf container).any g fun item => attempt (item.isFound v))
      (do (← sourceOf container).any g' fun item => attempt (item.isFound v)) :=
    .same fun s => follows_any h s fun _ => .refl _
  unfold Value.contains
  split
  all_goals first
    | exact .refl _
    | exact hsource

/-! ## Operators -/

theorem follows_setFrom (v : Value) (m : Mark) : Follows (setFrom g v m) (setFrom g' v m) := by
  have hitems : Follows (distinctItems g v) (distinctItems g' v) := .same fun s =>
    follows_fold h (fun _ _ => .refl _) s _
  unfold setFrom
  split
  all_goals first
    | exact .refl _
    | exact .done hitems

theorem follows_subtract (a b : Value) (m : Mark) : Follows (Value.subtract g a b m) (Value.subtract g' a b m) := by
  have hdifference : Follows (itemDifference g a b m) (itemDifference g' a b m) := by
    refine .bind (follows_setFrom h a m) fun s => ?_
    cases s with
    | set items shelf _ => exact .same fun s => .done (follows_fold h (fun _ _ => .refl _) s _)
    | _ => exact .refl _
  unfold Value.subtract
  split
  · exact .refl _
  · exact .ite hdifference (.refl _)

theorem follows_holds (op : Comparison) (a b : Value) : Follows (op.holds g a b) (op.holds g' a b) := by
  cases op with
  | isIn => exact follows_contains h b a
  | notIn => exact .done (follows_contains h b a)
  | _ => exact .refl _

/-! ## Calls -/

theorem follows_sumOf (v start : Value) : Follows (sumOf g v start) (sumOf g' v start) := by
  refine .same fun s => ?_
  cases start with
  | text | bytes => exact .refl _
  | _ => exact .same fun m => follows_fold h (fun _ _ => .refl _) s _

theorem follows_extremeOf (op : Comparison) {key key' : Value → EvalM Value}
    (hkey : ∀ v, Follows (key v) (key' v)) (s : Source) :
    Follows (extremeOf g op key s) (extremeOf g' op key' s) := by
  refine .done (follows_fold h (fun best v => ?_) s none)
  exact .done (hkey v)

theorem follows_callExtreme (op : Comparison) (args : List Value) {key key' : Value → EvalM Value}
    (hkey : ∀ v, Follows (key v) (key' v)) (default : Option Value) :
    Follows (callExtreme g op args key default) (callExtreme g' op args key' default) := by
  have hextreme := fun s => follows_extremeOf h op hkey s
  unfold callExtreme
  split
  · exact .same fun s => .done (hextreme s)
  · exact .same fun s => .done (hextreme s)
  · exact .ite (.same fun s => .done (hextreme s)) (.same fun s => .done (hextreme s))

omit h in
theorem follows_sortValues (isReverse : Bool) {key key' : Value → EvalM Value} (hkey : ∀ v, Follows (key v) (key' v))
    (vs : List Value) : Follows (sortValues isReverse key vs) (sortValues isReverse key' vs) :=
  .done (.mapM (fun v => .done (hkey v)) vs)

theorem follows_callPlain (helper : Helper) (args : List Value) :
    Follows (helper.callPlain g args) (helper.callPlain g' args) := by
  refine .same fun m => ?_
  split
  case h_2 => exact .same fun s => .done (follows_any h s fun _ => .refl _)
  case h_3 => exact .same fun s => .done (follows_any h s fun _ => .refl _)
  case h_4 => exact follows_sumOf h _ _
  case h_5 => exact follows_sumOf h _ _
  case h_6 => exact follows_callExtreme h _ _ (fun _ => .refl _) _
  case h_7 => exact follows_callExtreme h _ _ (fun _ => .refl _) _
  case h_8 => exact .done (follows_itemsOf h _)
  all_goals exact .refl _

/-- **The one place where an evaluation goes behind the view.** -/
theorem follows_callOne (a : Args) (f v : Value) : Follows (callOne g a f v) (callOne g' a f v) := by
  unfold callOne
  split
  · exact follows_callPlain h _ _
  · rw [h.face]
    exact .refl _
  · -- what computes texts is asked, and behind a sealed view there is nothing that it could answer with
    rw [show callEvaluator g'.scene a v = .error .beyond by simp [callEvaluator, h.sealed]]
    exact .beyond _
  · exact .refl _

theorem follows_keyArg (a : Args) (v : Value) : Follows (keyArg g a v) (keyArg g' a v) := by
  unfold keyArg
  split
  · exact .refl _
  · exact .refl _
  · exact follows_callOne h a _ v

theorem follows_callHelper (helper : Helper) (a : Args) : Follows (helper.call g a) (helper.call g' a) := by
  unfold Helper.call
  refine .ite (follows_callPlain h helper _) ?_
  dsimp only
  split
  · split
    · exact follows_callPlain h _ _
    · exact .refl _
  · exact .ite (.refl _) (follows_callExtreme h _ _ (follows_keyArg h a) _)
  · exact .ite (.refl _) (follows_callExtreme h _ _ (follows_keyArg h a) _)
  · split
    · refine .bind (follows_itemsOf h _) fun items => ?_
      have hsort := fun isReverse => follows_sortValues isReverse (follows_keyArg h a) items
      exact .ite (.same fun _ => .same fun _ => hsort _) (.same fun _ => hsort _)
    · exact .refl _
  · exact .refl _
  · split
    · exact .ite (follows_callPlain h _ _) (.refl _)
    · exact .refl _

theorem follows_callValue (f : Value) (args : List Value) (named : List (String × Value)) :
    Follows (callValue g f args named) (callValue g' f args named) := by
  unfold callValue
  split
  · exact follows_callHelper h _ _
  · rw [h.face]
    exact .refl _
  · exact .refl _

/-! ## Comprehensions -/

section

omit h

mutual

theorem follows_bindTarget (h : g.Follows g') (env : Environment) (t : Term) (v : Value) :
    Follows (bindTarget g env t v) (bindTarget g' env t v) := by
  cases t with
  | tuple targets | list targets =>
    refine .bind (follows_itemsOf h _) fun values => ?_
    have htargets := follows_bindTargets h env targets values
    exact .ite (.same fun _ => htargets) htargets
  | _ => exact .refl _

theorem follows_bindTargets (h : g.Follows g') (env : Environment) (ts : List Term) (vs : List Value) :
    Follows (bindTargets g env ts vs) (bindTargets g' env ts vs) := by
  unfold bindTargets
  split
  · exact .bind (follows_bindTarget h env _ _) fun env => follows_bindTargets h env _ _
  · exact .refl _

end

end

theorem follows_allHold (env : Environment) (ts : List Term) : Follows (allHold g env ts) (allHold g' env ts) := by
  induction ts with
  | nil => exact .refl _
  | cons t ts ih => exact .bind (h.eval env t) fun v => .ite ih (.refl _)

theorem follows_openLoop (env : Environment) (clause : Clause Term) (inner : List (Clause Term)) :
    Follows (openLoop g env clause inner) (openLoop g' env clause inner) :=
  .done (h.eval env clause.source)

theorem follows_openLoops (env : Environment) (clauses : List (Clause Term)) :
    Follows (openLoops g env clauses) (openLoops g' env clauses) := by
  cases clauses with
  | nil => exact .refl _
  | cons clause inner => exact .done (follows_openLoop h env clause inner)

theorem follows_nextScope (limit : Nat) (loops : List Loop) :
    Follows (nextScope g limit loops) (nextScope g' limit loops) := by
  induction limit generalizing loops with
  | zero => exact .refl _
  | succ limit ih =>
    cases loops with
    | nil => exact .refl _
    | cons loop outer =>
      refine .bind (follows_next h loop.source) fun item => ?_
      cases item with
      | none => exact ih outer
      | some item =>
        -- an item makes a scope if the conditions hold and the inner loops have an item for it
        refine .bind (follows_bindTarget h loop.env loop.clause.target item.1) fun scope => ?_
        refine .bind (follows_allHold h scope loop.clause.conditions) fun holds => .ite ?_ (ih _)
        cases loop.inner with
        | nil => exact .refl _
        | cons clause inner => exact .bind (follows_openLoop h scope clause inner) fun loop => ih _

theorem follows_forScopes {step step' : β → Environment → EvalM β}
    (hstep : ∀ b env, Follows (step b env) (step' b env)) (limit : Nat)
    (b : β) (loops : List Loop) : Follows (forScopes g step limit b loops) (forScopes g' step' limit b loops) := by
  induction limit generalizing b loops with
  | zero => exact .refl _
  | succ limit ih =>
    rw [forScopes, forScopes, h.limit]
    refine .bind (follows_nextScope h _ loops) fun next => ?_
    cases next with
    | none => exact .refl _
    | some next => exact .bind (hstep b next.1) fun b => ih b next.2

theorem follows_comprehend (env : Environment) (clauses : List (Clause Term)) (b : β)
    {step step' : β → Environment → EvalM β} (hstep : ∀ b env, Follows (step b env) (step' b env)) :
    Follows (comprehend g env clauses b step) (comprehend g' env clauses b step') := by
  rw [comprehend, comprehend, h.limit]
  exact .bind (follows_openLoops h env clauses) fun loops => follows_forScopes h hstep _ b loops

theorem follows_resume (n : Nat) (element : Term) (loops : List Loop) :
    Follows (resume g n element loops) (resume g' n element loops) := by
  rw [resume, resume, h.limit]
  refine .bind (follows_nextScope h _ loops) fun next => ?_
  cases next with
  | none => exact .refl _
  | some next => exact .done (h.eval next.1 element)

theorem follows_nextItem (n : Nat) : Follows (nextItem g n) (nextItem g' n) := by
  refine .same fun m => ?_
  split
  · exact .bind (follows_openLoops h _ _) fun loops => follows_resume h n _ loops
  · exact follows_resume h n _ _
  · exact .refl _

/-! ## Attributes -/

/-- A frame is seen, or what asks for it is beyond. -/
theorem follows_generatorAttribute? (n : Nat) (name : String) :
    Follows (generatorAttribute? g.scene n name) (generatorAttribute? g'.scene n name) := by
  refine .same fun m => ?_
  split
  case h_5 =>
    -- only a generator that is not done yet has a frame
    refine .done ?_
    rcases m.generators[n]? with _ | _ | _ | _
    case some.waiting | some.running =>
      unfold frameOf
      rw [h.sealed]
      exact .beyond _
    all_goals exact .refl _
  all_goals exact .refl _

theorem follows_attributeOf (v : Value) (name : String) :
    Follows (attributeOf g.scene v name) (attributeOf g'.scene v name) := by
  cases v with
  | generator n =>
    simp only [attributeOf, h.face]
    exact .done (follows_generatorAttribute? h n name)
  | _ =>
    simp only [attributeOf, h.face]
    exact .refl _

/-! ## Formulas -/

theorem follows_evalJunction (env : Environment) (isAnd : Bool) (last : Value) (ts : List Term) :
    Follows (evalJunction g env isAnd last ts) (evalJunction g' env isAnd last ts) := by
  induction ts generalizing last with
  | nil => exact .refl _
  | cons t ts ih => exact .bind (h.eval env t) fun v => .ite (.refl _) (ih v)

theorem follows_evalRelations (env : Environment) (v : Value) (rest : List (Comparison × Term)) :
    Follows (evalRelations g env v rest) (evalRelations g' env v rest) := by
  induction rest generalizing v with
  | nil => exact .refl _
  | cons r rest ih =>
    obtain ⟨op, right⟩ := r
    exact .bind (h.eval env right) fun w => .bind (follows_holds h op v w) fun holds => .ite (ih w) (.refl _)

theorem follows_evalOption (env : Environment) (t : Option Term) :
    Follows (evalOption g env t) (evalOption g' env t) := by
  cases t with
  | none => exact .refl _
  | some t => exact h.eval env t

theorem follows_evalItem (t : Term) (items : List Value) (env : Environment) :
    Follows (evalItem g t items env) (evalItem g' t items env) :=
  .done (h.eval env t)

theorem follows_evalEntry (key value : Term) (entries : List (Value × Value)) (env : Environment) :
    Follows (evalEntry g key value entries env) (evalEntry g' key value entries env) :=
  .bind (h.eval env key) fun _ => .done (h.eval env value)

theorem follows_evalTerm (env : Environment) (t : Term) : Follows (evalTerm g env t) (evalTerm g' env t) := by
  cases t with
  | literal | name | unpacking | generator | starred | unsupported => exact .refl _
  | junction isAnd parts => exact follows_evalJunction h env isAnd _ parts
  | unary op operand =>
    simp only [evalTerm]
    cases op.apply? with
    | none => exact .refl _
    | some f => exact .done (h.eval env operand)
  | binary op left right =>
    cases op with
    | subtract =>
      refine .bind (h.eval env left) fun a => .bind (h.eval env right) fun b => .same fun m => ?_
      exact follows_subtract h a b m
    | add | multiply | divide | floorDivide | modulo | power =>
      exact .bind (h.eval env left) fun a => .done (h.eval env right)
    | matrixMultiply | shiftLeft | shiftRight | bitOr | bitXor | bitAnd => exact .refl _
  | relation first rest => exact .bind (h.eval env first) fun v => .done (follows_evalRelations h env v rest)
  | choice test ifTrue ifFalse => exact .bind (h.eval env test) fun v => .ite (h.eval env ifTrue) (h.eval env ifFalse)
  | access value name => exact .same fun _ => .bind (h.eval env value) fun v => follows_attributeOf h v name
  | call callee args named =>
    refine .bind (h.eval env callee) fun f => ?_
    refine .ite (.same fun _ => ?_) ?_
    all_goals
      refine .bind (.mapM (h.eval env) args) fun args => ?_
      refine .bind (.mapM (fun arg => ?_) named) fun named => follows_callValue h f args named
      exact .done (h.eval env arg.2)
  | item value index => exact .bind (h.eval env value) fun v => .done (h.eval env index)
  | slice value start stop step =>
    refine .bind (h.eval env value) fun v => .bind (follows_evalOption h env start) fun start => ?_
    exact .bind (follows_evalOption h env stop) fun stop => .done (follows_evalOption h env step)
  | list items | tuple items => exact .done (.mapM (h.eval env) items)
  | set items => exact .done (.foldlM (fun vs t => follows_evalItem h t vs env) [] items)
  | dict entries => exact .done (.foldlM (fun es e => follows_evalEntry h e.1 e.2 es env) [] entries)
  | listOf element clauses =>
    exact .done (follows_comprehend h env clauses [] fun vs scope => .done (h.eval scope element))
  | setOf element clauses =>
    exact .done (follows_comprehend h env clauses [] fun vs scope => follows_evalItem h element vs scope)
  | dictOf key value clauses =>
    exact .done (follows_comprehend h env clauses [] fun es scope => follows_evalEntry h key value es scope)

omit h

/-- **An evaluation goes as it goes behind a sealed view**, unless that comes to something that is beyond. -/
theorem follows_eval (s : Scene) (limit : Nat) :
    (∀ env t, Follows (eval s limit env t) (eval ⟨s.face, .sealed⟩ limit env t)) ∧
      ∀ n, Follows (next s limit n) (next ⟨s.face, .sealed⟩ limit n) := by
  induction limit with
  | zero => exact ⟨fun _ _ => .refl _, fun _ => .refl _⟩
  | succ limit ih =>
    have hengine : Engine.Follows ⟨s, limit, eval s limit, next s limit⟩
        ⟨⟨s.face, .sealed⟩, limit, eval ⟨s.face, .sealed⟩ limit, next ⟨s.face, .sealed⟩ limit⟩ :=
      ⟨rfl, rfl, rfl, ih.1, ih.2⟩
    exact ⟨fun env t => follows_evalTerm hengine env t, fun n => follows_nextItem hengine n⟩

end AlLint.Formula
