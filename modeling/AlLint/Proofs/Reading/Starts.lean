import AlLint.Proofs.Flow.Shape
import AlLint.Proofs.Reading.Outline
import Mathlib.Data.List.Flatten
import Mathlib.Data.List.Nodup
import Mathlib.Data.List.Perm.Subperm

/-!
# Where calls start

Two expressions can start at the same place: a call of a method starts where the call that it is made on starts.
Calls of plain names cannot. Such a call starts at a name or at a parenthesis before it, and what is inside the
call comes behind that name.

This is a matter of outlines. The first child of a call of a plain name is bare, so among the nodes that are led
by a bare child no two start at one place (`Started`), if the tree is well nested.
-/

namespace AlLint

open List

/-! ## Parts of a list in any order -/

section Subperm

variable {α β : Type}

theorem subperm_flatMap {xs : List α} {f g : α → List β} (h : ∀ x ∈ xs, (f x).Subperm (g x)) :
    (xs.flatMap f).Subperm (xs.flatMap g) := by
  induction xs with
  | nil => exact .refl _
  | cons x xs ih =>
    rw [flatMap_cons, flatMap_cons]
    exact (h x mem_cons_self).append (ih fun y hy => h y (mem_cons_of_mem _ hy))

theorem subperm_flatMap_right {xs ys : List α} (h : xs.Subperm ys) (f : α → List β) :
    (xs.flatMap f).Subperm (ys.flatMap f) := by
  obtain ⟨zs, hperm, hsub⟩ := h
  exact (hperm.symm.flatMap_right f).subperm.trans (hsub.flatMap f).subperm

theorem subperm_map {xs ys : List α} (h : xs.Subperm ys) (f : α → β) : (xs.map f).Subperm (ys.map f) := by
  obtain ⟨zs, hperm, hsub⟩ := h
  exact ⟨zs.map f, hperm.map f, hsub.map f⟩

end Subperm

/-! ## Nodes that are led by a bare one -/

namespace Outline

/-- Whether a node has one row of children, and the first of them is bare. -/
def isLed : Outline → Bool
  | node _ [node _ [[]] [] :: _] _ => true
  | _ => false

mutual

/-- The nodes from a node on, along rows, that are led by a bare child. -/
def led : Outline → List Outline
  | node s rows loose => (if isLed (node s rows loose) then [node s rows loose] else []) ++ ledRows rows

def ledAll : List Outline → List Outline
  | [] => []
  | o :: os => led o ++ ledAll os

def ledRows : List (List Outline) → List Outline
  | [] => []
  | os :: rows => ledAll os ++ ledRows rows

end

theorem ledAll_eq (os : List Outline) : ledAll os = os.flatMap led := by
  induction os with
  | nil => rw [ledAll, flatMap_nil]
  | cons o os ih => rw [ledAll, flatMap_cons, ih]

theorem ledRows_eq (rows : List (List Outline)) : ledRows rows = rows.flatten.flatMap led := by
  induction rows with
  | nil => rw [ledRows, flatten_nil, flatMap_nil]
  | cons os rows ih => rw [ledRows, flatten_cons, flatMap_append, ih, ledAll_eq]

theorem led_eq (o : Outline) : o.led = (if o.isLed then [o] else []) ++ o.rows.flatten.flatMap led := by
  obtain ⟨s, rows, loose⟩ := o
  rw [led, ledRows_eq]
  rfl

theorem led_leaf (s : Span) : (leaf s).led = [] := by rw [led_eq]; rfl

/-- What is found in the row of a node is found from the node on. -/
theorem flatMap_led_sublist (s : Span) (os : List Outline) : (os.flatMap led).Sublist (row s os).led := by
  rw [led_eq (row s os), show (row s os).rows.flatten = os from append_nil os]
  exact sublist_append_right _ _

theorem subperm_led_row {s : Span} {os xs : List Outline} (h : xs.Subperm (os.flatMap led)) :
    xs.Subperm (row s os).led :=
  h.trans (flatMap_led_sublist s os).subperm

/-- **Induction over outlines**, from the nodes in the rows of a node to the node. -/
@[elab_as_elim]
theorem induct {motive : Outline → Prop} (step : ∀ o, (∀ child ∈ o.rows.flatten, motive child) → motive o)
    (o : Outline) :
    motive o :=
  step o fun child hchild => by
    obtain ⟨row, hrow, hmem⟩ := mem_flatten.1 hchild
    have hsmaller : sizeOf child < sizeOf o := by
      obtain ⟨s, rows, loose⟩ := o
      have h₁ := sizeOf_lt_of_mem hmem
      have h₂ : sizeOf row < sizeOf rows := sizeOf_lt_of_mem hrow
      rw [node.sizeOf_spec]
      omega
    exact induct step child
termination_by sizeOf o
decreasing_by omega

/-! ## No two start at one place -/

theorem nodup_flatMap_of_apart {α : Type} {span : α → Span} {starts : α → List (Lex (Nat × Nat))} {xs : List α}
    (h : ∀ x ∈ xs, (starts x).Nodup ∧ ∀ p ∈ starts x, (span x).first ≤ p ∧ p < (span x).past)
    (hapart : xs.Pairwise fun x y => (span x).Apart (span y)) : (xs.flatMap starts).Nodup := by
  rw [nodup_flatMap]
  refine ⟨fun x hx => (h x hx).1, hapart.imp_of_mem fun {x y} hx hy hxy => ?_⟩
  intro p hp hq
  have hinx := (h x hx).2 p hp
  have hiny := (h y hy).2 p hq
  rcases hxy with hxy | hxy
  · exact absurd (hinx.2.trans_le hxy) (not_lt.2 hiny.1)
  · exact absurd (hiny.2.trans_le hxy) (not_lt.2 hinx.1)

/-- The nodes that are led by a bare child, from a node on, start inside the node, and no two of them at one place. -/
structure Started (o : Outline) : Prop where
  nodup : (o.led.map (·.span.first)).Nodup
  within : ∀ n ∈ o.led, o.span.first ≤ n.span.first ∧ n.span.first < o.span.past

theorem nodup_flatMap_led {os : List Outline} (h : ∀ o ∈ os, o.Started)
    (hapart : os.Pairwise fun x y => x.span.Apart y.span) : ((os.flatMap led).map (·.span.first)).Nodup := by
  rw [map_flatMap]
  refine nodup_flatMap_of_apart (fun o ho => ⟨(h o ho).nodup, fun p hp => ?_⟩) hapart
  obtain ⟨n, hn, rfl⟩ := mem_map.1 hp
  exact (h o ho).within n hn

theorem within_of_mem_rows {tokens : List Token} {o n : Outline} (ho : o.WellNested tokens)
    (h : ∀ child ∈ o.rows.flatten, child.Started) (hn : n ∈ o.rows.flatten.flatMap led) :
    o.span.first ≤ n.span.first ∧ n.span.first < o.span.past := by
  obtain ⟨child, hchild, hn⟩ := mem_flatMap.1 hn
  have hin := (h child hchild).within n hn
  have hwithin := ho.within child (mem_append_left _ hchild)
  exact ⟨hwithin.1.trans hin.1, hin.2.trans_le hwithin.2⟩

theorem exists_of_isLed {o : Outline} (h : o.isLed = true) : ∃ s t rest loose, o = node s [leaf t :: rest] loose := by
  unfold isLed at h
  split at h
  · next s t rest loose => exact ⟨s, t, rest, loose, rfl⟩
  · cases h

/-- What comes behind the bare child that a node is led by does not start where the node does. -/
theorem first_lt_of_isLed {tokens : List Token} {o n : Outline} (hnodes : ∀ n ∈ o.nodes, n.WellNested tokens)
    (h : ∀ child ∈ o.rows.flatten, child.Started) (hled : o.isLed = true) (hn : n ∈ o.rows.flatten.flatMap led) :
    o.span.first < n.span.first := by
  obtain ⟨s, t, rest, loose, rfl⟩ := exists_of_isLed hled
  have ho := hnodes _ (mem_nodes.2 (.inl rfl))
  have hleaf : leaf t ∈ (node s [leaf t :: rest] loose).rows.flatten := mem_append_left _ mem_cons_self
  have hproper : t.first < t.past :=
    (hnodes (leaf t) (mem_nodes.2 (.inr ⟨leaf t, mem_append_left _ hleaf, mem_nodes.2 (.inl rfl)⟩))).proper
  have hstart : s.first ≤ t.first := (ho.within (leaf t) (mem_append_left _ hleaf)).1
  obtain ⟨child, hchild, hn⟩ := mem_flatMap.1 hn
  have hin := (h child hchild).within n hn
  have hchild' : child ∈ leaf t :: rest := by simpa [rows] using hchild
  rcases mem_cons.1 hchild' with rfl | hrest
  · -- nothing is below the bare child
    rw [led_leaf] at hn
    cases hn
  · have hbefore : t.past ≤ child.span.first :=
      (pairwise_cons.1 (ho.ordered _ mem_cons_self)).1 child hrest
    calc s.first ≤ t.first := hstart
      _ < t.past := hproper
      _ ≤ child.span.first := hbefore
      _ ≤ n.span.first := hin.1

/-- **In a well nested tree, no two nodes that are led by a bare child start at one place.** -/
theorem started {tokens : List Token} {o : Outline} (h : ∀ n ∈ o.nodes, n.WellNested tokens) : o.Started := by
  induction o using induct with
  | step o ih =>
    have ho := h o (mem_nodes.2 (.inl rfl))
    have hchildren : ∀ child ∈ o.rows.flatten, child.Started := by
      intro child hchild
      refine ih child hchild fun n hn => h n (mem_nodes.2 (.inr ⟨child, mem_append_left _ hchild, hn⟩))
    have hnodup := nodup_flatMap_led hchildren ho.apart
    -- a node that is led starts before all that are below it, and these start at different places already
    by_cases hled : o.isLed = true
    · have heq : o.led = o :: o.rows.flatten.flatMap led := by rw [led_eq, if_pos hled]; rfl
      refine ⟨?_, ?_⟩
      · rw [heq, map_cons, nodup_cons]
        refine ⟨fun hmem => ?_, hnodup⟩
        obtain ⟨n, hn, hfirst⟩ := mem_map.1 hmem
        exact absurd hfirst (first_lt_of_isLed h hchildren hled hn).ne'
      · intro n hn
        rw [heq] at hn
        rcases mem_cons.1 hn with rfl | hn
        · exact ⟨le_rfl, ho.proper⟩
        · exact within_of_mem_rows ho hchildren hn
    · have heq : o.led = o.rows.flatten.flatMap led := by rw [led_eq, if_neg hled]; rfl
      rw [← heq] at hnodup
      exact ⟨hnodup, fun n hn => within_of_mem_rows ho hchildren (heq ▸ hn)⟩

end Outline

open Outline

/-! ## Expressions -/

namespace Expr

theorem outlines_eq (es : List Expr) : outlines es = es.map outline := by
  induction es with
  | nil => rw [outlines, map_nil]
  | cons e es ih => rw [outlines, ih, map_cons]

theorem outline_eq (e : Expr) : e.outline = row e.span (e.operands.map outline) := by
  cases e <;> simp only [outline, operands, span, outlines_eq, map_nil, map_cons, leaf]

/-- Whether an expression is a call of a plain name. -/
def isPlainCall (e : Expr) : Bool := e.asCall?.any Call.isGlobal

/-- The nodes of the calls of plain names in some expressions. -/
def callNodes (es : List Expr) : List Outline := ((es.flatMap subexpressions).filter isPlainCall).map outline

theorem isLed_of_isPlainCall {e : Expr} (h : e.isPlainCall = true) : e.outline.isLed = true := by
  cases e with
  | call callee args implicit span =>
    cases callee with
    | name n quoted s =>
      rw [outline_eq, operands, map_cons, outline_eq (.name n quoted s)]
      rfl
    | _ => cases h
  | _ => cases h

theorem callNodes_append (es fs : List Expr) : callNodes (es ++ fs) = callNodes es ++ callNodes fs := by
  rw [callNodes, flatMap_append, filter_append, map_append, callNodes, callNodes]

theorem callNodes_eq (es : List Expr) : callNodes es = es.flatMap fun e => callNodes [e] := by
  induction es with
  | nil => rfl
  | cons e es ih => rw [flatMap_cons, ← ih, ← callNodes_append, singleton_append]

/-- The calls of plain names in an expression are nodes that are led by a bare child. -/
theorem callNodes_singleton (e : Expr) : (callNodes [e]).Sublist e.outline.led := by
  have hinside : (callNodes e.operands).Sublist ((e.operands.map outline).flatMap led) := by
    rw [callNodes_eq, flatMap_map]
    refine List.Sublist.flatMap_right _ fun d hd => ?_
    have := sizeOf_lt_of_mem_operands hd
    exact callNodes_singleton d
  have hled : e.outline.led = (if e.outline.isLed then [e.outline] else []) ++
    (e.operands.map outline).flatMap led := by
    rw [led_eq, outline_eq, show (row e.span (e.operands.map outline)).rows.flatten = e.operands.map outline from
      append_nil _]
  rw [callNodes, flatMap_singleton, subexpressions_eq, filter_cons, hled]
  split
  · next hplain =>
    rw [isLed_of_isPlainCall hplain, if_pos rfl]
    exact hinside.cons_cons _
  · exact hinside.trans (sublist_append_right _ _)
termination_by sizeOf e
decreasing_by omega

theorem callNodes_subperm (es : List Expr) : (callNodes es).Subperm ((es.map outline).flatMap led) := by
  rw [callNodes_eq, flatMap_map]
  exact subperm_flatMap fun e _ => (callNodes_singleton e).subperm

end Expr

/-! ## Statements -/

namespace Stmt

/-- The nodes of the calls of plain names in a body. -/
def callNodes (body : List Stmt) : List Outline := (allNested body).flatMap fun s => Expr.callNodes s.exprs

theorem callNodes_eq (body : List Stmt) :
    callNodes body = body.flatMap fun s => Expr.callNodes s.exprs ++ s.bodies.flatMap callNodes := by
  rw [callNodes, allNested_eq, flatMap_assoc]
  refine flatMap_congr fun s _ => ?_
  rw [nested_eq, flatMap_cons, flatMap_assoc]
  rfl

theorem outlines_eq (body : List Stmt) : outlines body = body.map outline := by
  induction body with
  | nil => rw [outlines, map_nil]
  | cons s body ih => rw [outlines, ih, map_cons]

theorem elseOutlines_eq (elseBody : Option (List Stmt)) :
    elseOutlines elseBody = elseBody.toList.flatMap outlines := by
  cases elseBody with
  | none => rw [elseOutlines]; rfl
  | some body => rw [elseOutlines, Option.toList, flatMap_singleton]

theorem branchOutlines_eq (branches : List (Branch Stmt)) :
    branchOutlines branches = branches.map fun b => row b.span (b.values.map Expr.outline ++ outlines b.body) := by
  induction branches with
  | nil => rw [branchOutlines, map_nil]
  | cons b branches ih => rw [branchOutlines, ih, map_cons, Expr.outlines_eq]

/-- The values and bodies of branches, taken apart from each other, are what the branches hold. -/
theorem branches_subperm {branches : List (Branch Stmt)}
    (h : ∀ b ∈ branches, (callNodes b.body).Subperm ((outlines b.body).flatMap led)) :
    (Expr.callNodes (branches.flatMap Branch.values) ++ (branches.map Branch.body).flatMap callNodes).Subperm
      ((branchOutlines branches).flatMap led) := by
  rw [branchOutlines_eq]
  induction branches with
  | nil => exact .refl _
  | cons b branches ih =>
    have hhere : (Expr.callNodes b.values ++ callNodes b.body).Subperm
        (row b.span (b.values.map Expr.outline ++ outlines b.body)).led := by
      refine subperm_led_row ?_
      rw [flatMap_append]
      exact (Expr.callNodes_subperm b.values).append (h b mem_cons_self)
    have hrest := ih fun b' hb' => h b' (mem_cons_of_mem _ hb')
    rw [flatMap_cons, Expr.callNodes_append, map_cons, flatMap_cons, map_cons, flatMap_cons,
      append_assoc]
    -- all values come before all bodies on one side, and each branch has its own together on the other
    refine List.Perm.subperm ?_ |>.trans (hhere.append hrest)
    rw [append_assoc]
    exact (perm_append_comm_assoc _ _ _).append_left _

theorem else_subperm {elseBody : Option (List Stmt)}
    (h : ∀ body ∈ elseBody.toList, (callNodes body).Subperm ((outlines body).flatMap led)) :
    (elseBody.toList.flatMap callNodes).Subperm ((elseOutlines elseBody).flatMap led) := by
  rw [elseOutlines_eq, flatMap_assoc]
  exact subperm_flatMap h

/-- What stands in the row of a node, in whatever order, is found from the node on. -/
theorem subperm_led_of_row {es : List Expr} {bodies : List (List Stmt)} {os : List Outline} (span : Span)
    (h : ∀ body ∈ bodies, (callNodes body).Subperm ((outlines body).flatMap led))
    (hos : (es.map Expr.outline ++ bodies.flatMap outlines).Subperm os) :
    (Expr.callNodes es ++ bodies.flatMap callNodes).Subperm (row span os).led := by
  refine subperm_led_row (.trans ?_ (subperm_flatMap_right hos led))
  rw [flatMap_append, flatMap_assoc]
  exact (Expr.callNodes_subperm es).append (subperm_flatMap h)

/-- The calls of plain names that a statement evaluates, and those in the bodies inside it, are nodes that are
led by a bare child. -/
theorem callNodes_subperm_led (s : Stmt)
    (h : ∀ body ∈ s.bodies, (callNodes body).Subperm ((outlines body).flatMap led)) :
    (Expr.callNodes s.exprs ++ s.bodies.flatMap callNodes).Subperm s.outline.led := by
  cases s with
  | caseOf selector branches elseBody span =>
    have hselector : (Expr.callNodes [selector]).Subperm selector.outline.led :=
      (Expr.callNodes_singleton selector).subperm
    have hbranches := branches_subperm fun b hb => h b.body (mem_append_left _ (mem_map_of_mem hb))
    have helse := else_subperm fun body hbody => h body (mem_append_right _ hbody)
    rw [outline]
    refine subperm_led_row ?_
    rw [flatMap_cons, flatMap_append, exprs, ← singleton_append, Expr.callNodes_append, bodies,
      flatMap_append, append_assoc, ← append_assoc (Expr.callNodes (branches.flatMap Branch.values))]
    exact hselector.append (hbranches.append helse)
  | ifThen condition thenBody elseBody span =>
    rw [outline, elseOutlines_eq]
    exact subperm_led_of_row span h (.refl _)
  | assignment target op value span =>
    -- the value is evaluated first
    rw [outline]
    exact subperm_led_of_row span h (List.Perm.swap ..).subperm
  | repeatUntil body condition span =>
    rw [outline]
    refine subperm_led_of_row span h ?_
    rw [bodies, flatMap_singleton]
    exact perm_append_comm.subperm
  | forTo counter first last down body span =>
    -- the counter is a node that is not evaluated
    rw [outline]
    refine subperm_led_of_row span h ?_
    rw [bodies, flatMap_singleton]
    exact (sublist_cons_self ..).subperm
  | forEach item iterable body span =>
    rw [outline]
    refine subperm_led_of_row span h ?_
    rw [bodies, flatMap_singleton]
    exact (sublist_cons_self ..).subperm
  | exit value span =>
    rw [outline, Expr.outlines_eq]
    refine subperm_led_of_row span h ?_
    show (value.toList.map Expr.outline ++ []).Subperm _
    rw [append_nil]
  | whileDo condition body span =>
    rw [outline]
    exact subperm_led_of_row span h (by rw [exprs, bodies, flatMap_singleton]; rfl)
  | withDo target body span =>
    rw [outline]
    exact subperm_led_of_row span h (by rw [exprs, bodies, flatMap_singleton]; rfl)
  | block body span =>
    rw [outline]
    exact subperm_led_of_row span h (by rw [exprs, bodies, flatMap_singleton]; rfl)
  | call c span => rw [outline]; exact subperm_led_of_row span h (.refl _)
  | error c span => rw [outline]; exact subperm_led_of_row span h (.refl _)
  | jump j span => rw [outline]; exact subperm_led_of_row span h (.refl _)

/-- The calls of plain names in a body are nodes that are led by a bare child. -/
theorem callNodes_subperm (body : List Stmt) : (callNodes body).Subperm ((outlines body).flatMap led) := by
  have hstmt : ∀ s : Stmt, (Expr.callNodes s.exprs ++ s.bodies.flatMap callNodes).Subperm s.outline.led := by
    intro s
    induction s using induct with
    | step s ih =>
      refine callNodes_subperm_led s fun b hb => ?_
      rw [callNodes_eq, outlines_eq, flatMap_map]
      exact subperm_flatMap (ih b hb)
  rw [callNodes_eq, outlines_eq, flatMap_map]
  exact subperm_flatMap fun s _ => hstmt s

end Stmt

/-! ## Code and elements -/

/-- The nodes of the calls of plain names in some code. -/
def CodeMember.callNodes (codes : List CodeMember) : List Outline := codes.flatMap fun m => Stmt.callNodes m.body

theorem CodeMember.callNodes_subperm (codes : List CodeMember) :
    (callNodes codes).Subperm ((codes.map outline).flatMap led) := by
  rw [callNodes, flatMap_map]
  refine subperm_flatMap fun m _ => ?_
  have hrow : (Stmt.callNodes m.body).Subperm
    ((m.parameters.map Parameter.outline ++ Stmt.outlines m.body).flatMap led) := by
    rw [flatMap_append]
    exact (Stmt.callNodes_subperm m.body).trans (sublist_append_right _ _).subperm
  refine hrow.trans ?_
  rw [outline, led_eq (.node _ _ _)]
  rw [show (Outline.node m.span [m.parameters.map Parameter.outline ++ Stmt.outlines m.body]
    (m.vars.map Variable.outline)).rows.flatten = m.parameters.map Parameter.outline ++ Stmt.outlines m.body from
    append_nil _]
  exact (sublist_append_right _ _).subperm

namespace Element

theorem outlines_eq (es : List Element) : outlines es = es.map outline := by
  induction es with
  | nil => rw [outlines, map_nil]
  | cons e es ih => rw [outlines, ih, map_cons]

/-- What is in the elements right inside an element, and in its code, is found from the element on. -/
theorem subperm_led (e : Element) :
    ((e.children.flatMap fun c => c.outline.led) ++ CodeMember.callNodes e.codes).Subperm e.outline.led := by
  obtain ⟨keyword, span, args, properties, children, codes, vars, doc⟩ := e
  rw [outline, led_eq (.node _ _ _), outlines_eq]
  refine .trans ?_ (sublist_append_right _ _).subperm
  show ((children.flatMap fun c => c.outline.led) ++ CodeMember.callNodes codes).Subperm
    ((properties.map Property.outline ++ (children.map outline ++ (codes.map CodeMember.outline ++ []))).flatMap led)
  rw [append_nil, flatMap_append, flatMap_append, flatMap_map outline]
  refine .trans ?_ (sublist_append_right _ _).subperm
  exact (List.Subperm.refl _).append (CodeMember.callNodes_subperm codes)

/-- **Induction over elements**, from the elements right inside an element to the element. -/
@[elab_as_elim]
theorem induct {motive : Element → Prop} (step : ∀ e, (∀ child ∈ e.children, motive child) → motive e)
    (e : Element) : motive e :=
  step e fun child hchild => by
    have hsmaller : sizeOf child < sizeOf e := by
      obtain ⟨keyword, span, args, properties, children, codes, vars, doc⟩ := e
      have hmem : sizeOf child < sizeOf children := sizeOf_lt_of_mem hchild
      rw [mk.sizeOf_spec]
      omega
    exact induct step child
termination_by sizeOf e
decreasing_by omega

end Element

end AlLint
