import AlLint.Catalog.Registry
import AlLint.Proofs.Flow.Alike

/-!
# Rules that do not see case

What a rule finds in a node, and whether it fails, should not depend on the case of the letters in the node. A
check is `Caseless` if on what is seen of a node it finds the same places as on the node. The checks of the
rules that come with the program are, but for the one that is about the case of names (`caseless_of_mem_rules`).
-/

namespace AlLint

open Text List

/-- What can be seen of a verdict but for the wording of its messages: the places of the findings, and the fault. -/
def Verdict.places (x : Verdict) : List Span × Option Fault := (x.findings.map Finding.span, x.fault)

/-- A check that finds the same places if it does not see case. It does not look at the text of the file, either. -/
def Caseless (check : SourceFile → Sight → Verdict) : Prop :=
  ∀ (file file' : SourceFile) (s s' : Sight), s.SeenAs .caseless s' → (check file' s').places = (check file s).places

theorem Context.SeenAs.option_eq {v : View} {c c' : Context} (h : c.SeenAs v c') (rule name : String)
    (default : Document) :
    c'.option rule name default = c.option rule name default := by
  rw [Context.option, Context.option?, h.options]
  rfl

/-! ## Business logic -/

section Logic

variable (v : View)

theorem Expr.isPrompt_seen : ∀ e : Expr, (e.seen v).isPrompt = e.isPrompt
  | .unary op operand _ => by
    cases op with
    | not => exact operand.isPrompt_seen
    | _ => rfl
  | .call callee _ _ _ => by
    cases callee with
    | name n quoted span => simp only [Expr.seen, Expr.isPrompt, v.lower_see]
    | _ => rfl
  | .constant .. | .name .. | .member .. | .scope .. | .index .. | .binary .. | .set .. => rfl

theorem Stmt.isLogic_seen (s : Stmt) : (s.seen v).isLogic = s.isLogic := by
  cases s with
  | ifThen condition _ _ _ => simp only [Stmt.seen, Stmt.isLogic, condition.isPrompt_seen]
  | caseOf selector _ _ _ => simp only [Stmt.seen, Stmt.isLogic, selector.isPrompt_seen]
  | _ => rfl

theorem Stmt.bodies_seen (s : Stmt) : (s.seen v).bodies = s.bodies.map (Stmt.seenAll v) := by
  have helse : ∀ body : Option (List Stmt), (Stmt.seenElse v body).toList = body.toList.map (Stmt.seenAll v) := by
    rintro (_ | body) <;> rfl
  have hbranches : ∀ branches : List (Branch Stmt),
      (Stmt.seenBranches v branches).map Branch.body = (branches.map Branch.body).map (Stmt.seenAll v) := by
    intro branches
    induction branches with
    | nil => rfl
    | cons b rest ih => rw [Stmt.seenBranches, map_cons, map_cons, map_cons, ih]
  cases s <;> simp only [Stmt.seen, Stmt.bodies, helse, hbranches, map_cons, map_append, map_nil]

theorem Stmt.allNested_seen_of {body : List Stmt} (h : ∀ s ∈ body, (s.seen v).nested = s.nested.map (Stmt.seen v)) :
    Stmt.allNested (Stmt.seenAll v body) = (Stmt.allNested body).map (Stmt.seen v) := by
  induction body with
  | nil => rfl
  | cons s rest ih =>
    obtain ⟨hs, hrest⟩ := forall_mem_cons.1 h
    rw [Stmt.seenAll, Stmt.allNested, Stmt.allNested, map_append, hs, ih hrest]

theorem Stmt.nested_seen (s : Stmt) : (s.seen v).nested = s.nested.map (Stmt.seen v) := by
  induction s using Stmt.induct with
  | step s ih =>
    rw [nested_eq, nested_eq s, bodies_seen, flatMap_map, map_cons, map_flatMap]
    exact congrArg _ (flatMap_congr fun body hb => allNested_seen_of v (ih body hb))

theorem businessLogic_seen (body : List Stmt) : businessLogic (Stmt.seenAll v body) = businessLogic body := by
  rw [businessLogic, businessLogic, Stmt.allNested_seen_of v fun s _ => s.nested_seen v, countP_map]
  congr 1
  funext s
  exact s.isLogic_seen v

end Logic

namespace Catalog

/-! ## Kinds of node -/

variable {c c' : Context}

theorem caseless_onCall {f : Context → Call → List Finding}
    (hf : ∀ c c' call, Context.SeenAs .caseless c c' →
      (f c' (call.seen .caseless)).map Finding.span = (f c call).map Finding.span) :
    Caseless (onCall f) := by
  intro file file' s s' h
  rw [onCall, onCall, h.node]
  cases s.node with
  | expr e =>
    cases e with
    | call callee args implicit span => exact Prod.ext (hf _ _ ⟨callee, args, implicit, span⟩ h.context) rfl
    | _ => rfl
  | _ => rfl

theorem caseless_onStmtWith {f : Context → Stmt → Except Misfit (List Finding)}
    (hf : ∀ c c' s, Context.SeenAs .caseless c c' →
      (f c' (s.seen .caseless)).map (List.map Finding.span) = (f c s).map (List.map Finding.span)) :
    Caseless (onStmtWith f) := by
  intro file file' s s' h
  have hplaces : ∀ x : Except Misfit (List Finding), (Verdict.ofExcept x).places =
      match x.map (List.map Finding.span) with
      | .ok spans => (spans, none)
      | .error m => ([], some (.option m)) := by
    intro x
    cases x <;> rfl
  rw [onStmtWith, onStmtWith, h.node]
  cases s.node with
  | stmt st =>
    show (Verdict.ofExcept _).places = (Verdict.ofExcept _).places
    rw [hplaces, hf _ _ st h.context, hplaces]
  | _ => rfl

theorem caseless_onField {f : Field → List Finding}
    (hf : ∀ x, (f (x.seen .caseless)).map Finding.span = (f x).map Finding.span) :
    Caseless (onField f) := by
  intro file file' s s' h
  rw [onField, onField, h.node]
  cases s.node with
  | field x => exact Prod.ext (hf x) rfl
  | _ => rfl

theorem caseless_onVariable {f : Context → Variable → List Finding}
    (hf : ∀ c c' x, (f c' (x.seen .caseless)).map Finding.span = (f c x).map Finding.span) :
    Caseless (onVariable f) := by
  intro file file' s s' h
  rw [onVariable, onVariable, h.node]
  cases s.node with
  | var x => exact Prod.ext (hf _ _ x) rfl
  | _ => rfl

theorem caseless_onProcedure {f : Procedure → List Finding}
    (hf : ∀ p, (f (p.seen .caseless)).map Finding.span = (f p).map Finding.span) :
    Caseless (onProcedure f) := by
  intro file file' s s' h
  rw [onProcedure, onProcedure, h.node]
  cases s.node with
  | routine r =>
    cases r with
    | trigger t => rfl
    | procedure p => exact Prod.ext (hf p) rfl
  | _ => rfl

/-! ## Rules about calls -/

section Calls

variable (h : c.SeenAs .caseless c') (call : Call)

include h

theorem userCallInTable_seen :
    (userCallInTable c' (call.seen .caseless)).map Finding.span = (userCallInTable c call).map Finding.span := by
  rw [userCallInTable, userCallInTable, h.inTableTrigger_eq, h.isUserCall_eq]
  split <;> rfl

theorem repeatedLookup_seen :
    (repeatedLookup c' (call.seen .caseless)).map Finding.span = (repeatedLookup c call).map Finding.span := by
  have hload : c'.loopEntryLoad = c.loopEntryLoad := by
    funext name
    rw [Context.loopEntryLoad, h.loopEntries, h.state, Context.loopEntryLoad]
  rw [repeatedLookup, repeatedLookup, h.inLoop_eq, call.method_seen, h.recordReceiver?_eq, hload]
  split
  · split
    · split <;> rfl
    · rfl
  · rfl

theorem repeatedCalculation_seen :
    (repeatedCalculation c' (call.seen .caseless)).map Finding.span =
      (repeatedCalculation c call).map Finding.span := by
  rw [repeatedCalculation, repeatedCalculation, h.inLoop_eq, call.method_seen, h.recordReceiver?_eq]
  split <;> rfl

theorem unguardedChange_seen :
    (unguardedChange c' (call.seen .caseless)).map Finding.span = (unguardedChange c call).map Finding.span := by
  have hchecked : c'.isChecked = c.isChecked := by
    funext name
    rw [Context.isChecked, h.state, Context.isChecked]
  rw [unguardedChange, unguardedChange, call.method_seen, h.recordReceiver?_eq, h.isTemporary_eq, hchecked]
  split
  · split
    · split <;> rfl
    · rfl
  · rfl

theorem partialWrite_seen :
    (partialWrite c' (call.seen .caseless)).map Finding.span = (partialWrite c call).map Finding.span := by
  have hload : c'.load = c.load := by
    funext name
    rw [Context.load, h.state, Context.load]
  rw [partialWrite, partialWrite, call.method_seen, h.recordReceiver?_eq, hload]
  split
  · split
    · split <;> rfl
    · rfl
  · rfl

theorem splittingCommit_seen :
    (splittingCommit c' (call.seen .caseless)).map Finding.span = (splittingCommit c call).map Finding.span := by
  rw [splittingCommit, splittingCommit, call.isGlobal_seen, call.method_seen, h.inLoop_eq, h.inTableTrigger_eq]
  split
  · split
    · rfl
    · split <;> rfl
  · rfl

end Calls

/-! ## Counts -/

theorem isZero_seen (e : Expr) : isZero (e.seen .caseless) = isZero e := by
  cases e with
  | constant value kind span =>
    cases kind with
    | number =>
      have hzero : value.toLower = "0" ↔ value = "0" := by
        rw [← String.toList_inj, ← String.toList_inj, toList_toLower, show "0".toList = ['0'] from rfl]
        simp only [map_eq_singleton_iff, toLower_eq_iff (x := '0') (by decide), exists_eq_right]
      show (value.toLower == "0") = (value == "0")
      rw [Bool.eq_iff_iff, beq_iff_eq, beq_iff_eq, hzero]
    | _ => rfl
  | _ => rfl

theorem countCall?_seen (h : c.SeenAs .caseless c') (e : Expr) :
    countCall? c' (e.seen .caseless) = (countCall? c e).map (Call.seen .caseless) := by
  cases e with
  | call callee args implicit span =>
    show Option.filter _ (some (Call.seen .caseless ⟨callee, args, implicit, span⟩)) =
      (Option.filter _ (some ⟨callee, args, implicit, span⟩)).map (Call.seen .caseless)
    rw [Option.filter_some, Option.filter_some, Call.method_seen, h.recordReceiver?_eq]
    split <;> rfl
  | _ => rfl

theorem countBesideZero?_seen (h : c.SeenAs .caseless c') (left right : Expr) :
    countBesideZero? c' (left.seen .caseless) (right.seen .caseless) =
      (countBesideZero? c left right).map (Call.seen .caseless) := by
  rw [countBesideZero?, countBesideZero?, countCall?_seen h, countCall?_seen h, isZero_seen, isZero_seen]
  cases countCall? c left <;> cases countCall? c right <;> cases isZero left <;> cases isZero right <;> rfl

theorem countComparison_seen (h : c.SeenAs .caseless c') (e : Expr) :
    (countComparison c' (e.seen .caseless)).map Finding.span = (countComparison c e).map Finding.span := by
  cases e with
  | binary op left right span =>
    simp only [Expr.seen, countComparison, countBesideZero?_seen h]
    split
    · cases countBesideZero? c left right <;> rfl
    · rfl
  | _ => rfl

theorem caseless_countForExistence : Caseless countForExistence.check := by
  intro file file' s s' h
  unfold countForExistence
  dsimp only
  rw [h.node]
  cases s.node with
  | expr e => exact Prod.ext (countComparison_seen h.context e) rfl
  | _ => rfl

/-! ## Rules about statements -/

/-- Where errors in an action are found: at the statement, if the action holds too much logic. -/
theorem span_logicInAction (c : Context) (s : Stmt) : (logicInAction c s).map (List.map Finding.span) =
    match c.routine with
    | none => .ok []
    | some r =>
      if c.objectKind = "page" ∧ c.place = .actionTrigger then
        (isAbove (businessLogic r.body) (c.option "rule-in-page" "max_logic_statements" (.int 0))).map fun above =>
          if above then [s.span] else []
      else .ok [] := by
  unfold logicInAction
  split
  · next routine hkind hplace hroutine =>
    rw [hroutine]
    dsimp only
    rw [if_pos ⟨hkind, hplace⟩]
    rcases isAbove (businessLogic routine.body) _ with _ | _ | _ <;> rfl
  · next hother =>
    cases hroutine : c.routine with
    | none => rfl
    | some r =>
      dsimp only
      rw [if_neg fun h => hother r h.1 h.2 hroutine]
      rfl

theorem logicInAction_seen (h : c.SeenAs .caseless c') (s : Stmt) :
    (logicInAction c' (s.seen .caseless)).map (List.map Finding.span) = (logicInAction c s).map
      (List.map Finding.span) := by
  rw [span_logicInAction, span_logicInAction, h.routine, h.objectKind, h.place, h.option_eq,
    s.span_seen, View.place_caseless]
  rcases c.routine with _ | routine
  · rfl
  · have hbody : (routine.seen .caseless).body = Stmt.seenAll .caseless routine.body := by cases routine <;> rfl
    simp only [Option.map_some, hbody, businessLogic_seen]

theorem deepCondition_seen (h : c.SeenAs .caseless c') (s : Stmt) :
    (deepCondition c' (s.seen .caseless)).map (List.map Finding.span) = (deepCondition c s).map
      (List.map Finding.span) := by
  rw [deepCondition, deepCondition, h.option_eq, h.ifDepth, s.span_seen, View.place_caseless]

/-! ## Rules about declarations -/

theorem optionField_seen (f : Field) :
    (optionField (f.seen .caseless)).map Finding.span = (optionField f).map Finding.span := by
  have htype : (f.seen .caseless).type.map TypeRef.isOption = f.type.map TypeRef.isOption := by
    show (f.type.map (TypeRef.seen .caseless)).map TypeRef.isOption = _
    rw [Option.map_map]
    congr 1
    funext t
    rw [Function.comp_apply, TypeRef.isOption, TypeRef.key_seen]
    rfl
  rw [optionField, optionField, htype]
  split <;> rfl

/-- What documentation says of the parameters fits them or not in any case. -/
theorem isSome_docMismatch?_seen (p : Procedure) (doc : Doc) :
    (docMismatch? (p.seen .caseless) (doc.seen .caseless)).isSome = (docMismatch? p doc).isSome := by
  have hdocumented : (doc.seen .caseless).params.map Text.lower = doc.params.map Text.lower := by
    show (doc.params.map View.caseless.see).map Text.lower = _
    rw [map_map]
    exact map_congr_left fun name _ => View.caseless.lower_see name
  have hdeclared : (p.seen .caseless).parameters.map Parameter.key = p.parameters.map Parameter.key := by
    show (p.parameters.map (Parameter.seen .caseless)).map Parameter.key = _
    rw [map_map]
    exact map_congr_left fun q _ => View.caseless.lower_see q.name
  simp only [docMismatch?, hdocumented, hdeclared]
  split <;> rfl

theorem undocumented_seen (p : Procedure) :
    (undocumented (p.seen .caseless)).map Finding.span = (undocumented p).map Finding.span := by
  rw [undocumented, undocumented, show (p.seen .caseless).isPublic = p.isPublic from rfl,
    show (p.seen .caseless).doc = p.doc.map (Doc.seen .caseless) from rfl]
  split
  · rfl
  · cases p.doc with
    | none => rfl
    | some doc =>
      have hmismatch := isSome_docMismatch?_seen p doc
      dsimp only [Option.map_some]
      generalize docMismatch? (p.seen .caseless) (doc.seen .caseless) = mismatch at hmismatch ⊢
      generalize docMismatch? p doc = mismatch' at hmismatch ⊢
      cases mismatch <;> cases mismatch' <;> first | rfl | cases hmismatch

theorem hasPlace_cons (c : Char) (rest : List Char) :
    hasPlace (c :: rest) = (c == '%' && (rest.head?.map isDecimal).getD false || hasPlace rest) := by
  by_cases hc : c = '%'
  · subst hc
    cases rest <;> rfl
  · have hskip : hasPlace (c :: rest) = hasPlace rest := by
      rw [hasPlace.eq_def]
      split
      · next heq => exact absurd (List.cons.inj heq).1 hc
      · next heq => rw [(List.cons.inj heq).2]
      · next heq => cases heq
    rw [hskip, beq_eq_false_iff_ne.2 hc, Bool.false_and, Bool.false_or]

theorem hasPlace_toLower (cs : List Char) : hasPlace (cs.map Char.toLower) = hasPlace cs := by
  induction cs with
  | nil => rfl
  | cons c cs ih =>
    have hpercent : (c.toLower == '%') = (c == '%') := toLower_invariant (f := (· == '%')) (by decide) c
    rw [map_cons, hasPlace_cons, hasPlace_cons, ih, hpercent, head?_map_toLower isDecimal_toLower]

theorem unexplainedLabel_seen (x : Variable) :
    (unexplainedLabel c' (x.seen .caseless)).map Finding.span = (unexplainedLabel c x).map Finding.span := by
  rw [unexplainedLabel, unexplainedLabel, show (x.seen .caseless).label = x.label.map (Label.seen .caseless) from rfl]
  cases x.label with
  | none => rfl
  | some label =>
    have hcomment : ((label.seen .caseless).comment.getD "").isEmpty = (label.comment.getD "").isEmpty := by
      show ((label.comment.map String.toLower).getD "").isEmpty = _
      cases label.comment with
      | none => rfl
      | some comment =>
        rw [Bool.eq_iff_iff, String.isEmpty_iff, String.isEmpty_iff]
        exact toLower_eq_empty
    have hplace : hasPlace (label.seen .caseless).text.toList = hasPlace label.text.toList := by
      rw [← hasPlace_toLower label.text.toList, ← toList_toLower]
      rfl
    simp only [Option.map_some, hcomment, hplace, show (label.seen .caseless).locked = label.locked from rfl]
    split <;> rfl

/-- **The rules that come with the program do not see case**, but for the one about names. -/
theorem caseless_of_mem_rules {r : Rule} (hr : r ∈ rules) (hnaming : r.id ≠ naming.id) : Caseless r.check := by
  simp only [rules, mem_cons, not_mem_nil, or_false] at hr
  rcases hr with rfl | rfl | rfl | rfl | rfl | rfl | rfl | rfl | rfl | rfl | rfl | rfl | rfl
  · exact caseless_onCall fun _ _ call h => userCallInTable_seen h call
  · exact caseless_onStmtWith fun _ _ s h => logicInAction_seen h s
  · exact caseless_onCall fun _ _ call h => repeatedLookup_seen h call
  · exact caseless_onCall fun _ _ call h => repeatedCalculation_seen h call
  · exact caseless_onCall fun _ _ call h => unguardedChange_seen h call
  · exact caseless_onCall fun _ _ call h => partialWrite_seen h call
  · exact caseless_countForExistence
  · exact caseless_onProcedure undocumented_seen
  · exact absurd rfl hnaming
  · exact caseless_onVariable fun _ _ x => unexplainedLabel_seen x
  · exact caseless_onStmtWith fun _ _ s h => deepCondition_seen h s
  · exact caseless_onField optionField_seen
  · exact caseless_onCall fun _ _ call h => splittingCommit_seen h call

end Catalog

end AlLint
