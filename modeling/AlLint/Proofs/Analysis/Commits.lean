import AlLint.Proofs.Analysis.Findings

/-!
# Commits that split a transaction

A commit in a loop, or in a trigger of a table or of one of its fields, splits the transaction that is under
way. Here is what these commits are, by the syntax alone (`SourceFile.splittingCommits`): the calls of the plain
name `Commit`, in whatever letters, that stand somewhere in the routines of a file with a loop around, or in a
trigger of a table with anything around. The report has one complaint for each of them, at the place where the
call starts, and no other of that rule (`commits_reported_exactly`).

There are two things to it. Rules look at each call once, with the loops around it counted, though the walk
comes upon it many times. And no two such calls start at one place, so none is lost when complaints about one
place are put together.
-/

namespace AlLint

open List AlLint.Expr Diagnostic

variable {e : Expr} {c : Context} {p : Int × Int} {f : Finding} {ds : List Diagnostic} {id : String}

/-- Whether a call is one of `Commit` by its plain name. -/
def Call.isCommit (c : Call) : Bool :=
  match c.callee with
  | .name n _ _ => Text.lower n == "commit"
  | _ => false

/-- The calls in a body, each with the parts of statements that it stands in, innermost first. -/
def Stmt.placedCalls (body : List Stmt) : List (Call × List Frame) :=
  (placedAll [] body).flatMap fun x =>
    ((x.1.exprs.flatMap Expr.subexpressions).filterMap Expr.asCall?).map (·, ⟨x.1, .head⟩ :: x.2)

namespace Declaration

/-- Whether the routines at a place of a declaration are triggers of a table or of its fields. -/
def isTableTrigger (d : Declaration) (place : Place) : Bool :=
  match d.contents with
  | .table .. => place == .trigger || place == .fieldTrigger
  | _ => false

/-- Whether a call in a routine at a place, with some parts of statements around it, is a commit that splits a
transaction. -/
def isSplitting (d : Declaration) (place : Place) (x : Call × List Frame) : Bool :=
  x.1.isCommit && (x.2.any Frame.isLoop || d.isTableTrigger place)

/-- The commits in the routines of a declaration that split a transaction. -/
def splittingCommits (d : Declaration) : List Call :=
  d.routines.flatMap fun r => ((Stmt.placedCalls r.routine.body).filter (d.isSplitting r.place)).map Prod.fst

end Declaration

/-- The commits in a file that split a transaction. -/
def SourceFile.splittingCommits (file : SourceFile) : List Call :=
  file.declarations.flatMap Declaration.splittingCommits

def Diagnostic.position (d : Diagnostic) : Int × Int := (d.line, d.column)

def Span.position (s : Span) : Int × Int := (s.line, s.column)

/-! ## No two start at one place -/

theorem Call.isGlobal_of_isCommit {c : Call} (h : c.isCommit = true) : c.isGlobal = true := by
  obtain ⟨callee, args, implicit, span⟩ := c
  cases callee with
  | name n quoted s => rfl
  | _ => cases h

/-- The nodes of commits among some expressions are nodes of calls of plain names. -/
theorem Expr.commits_sublist {around : List Frame} {p : Call × List Frame → Bool}
    (hp : ∀ x, p x = true → x.1.isCommit = true) (es : List Expr) :
    (((((es.filterMap asCall?).map (·, around)).filter p).map Prod.fst).map fun c => c.toExpr.outline).Sublist
      ((es.filter isPlainCall).map outline) := by
  induction es with
  | nil => exact .slnil
  | cons e es ih =>
    cases hcall : e.asCall? with
    | none =>
      have hplain : e.isPlainCall = false := by rw [isPlainCall, hcall]; rfl
      rw [filterMap_cons_none hcall, filter_cons_of_neg (by simp [hplain])]
      exact ih
    | some c =>
      obtain rfl := eq_toExpr_of_asCall? hcall
      rw [filterMap_cons_some hcall, map_cons, filter_cons, filter_cons]
      by_cases hc : p (c, around) = true
      · have hplain : c.toExpr.isPlainCall = true := by
          rw [isPlainCall, hcall]
          exact Call.isGlobal_of_isCommit (hp _ hc)
        rw [if_pos hc, if_pos hplain]
        exact ih.cons_cons _
      · rw [if_neg hc]
        split
        · exact ih.cons _
        · exact ih

theorem Stmt.callNodes_eq_placed (body : List Stmt) :
    callNodes body = (placedAll [] body).flatMap fun x => Expr.callNodes x.1.exprs := by
  rw [callNodes, ← map_placedAll body [], flatMap_map]

theorem Declaration.splittingCommits_sublist (d : Declaration) :
    (d.splittingCommits.map fun c => c.toExpr.outline).Sublist (PlacedRoutine.callNodes d.routines) := by
  rw [splittingCommits, map_flatMap, PlacedRoutine.callNodes]
  refine List.Sublist.flatMap_right _ fun r _ => ?_
  have hcommit : ∀ x, d.isSplitting r.place x = true → x.1.isCommit = true := fun x hx =>
    (Bool.and_eq_true_iff.1 hx).1
  rw [Stmt.callNodes_eq_placed, Stmt.placedCalls, filter_flatMap, map_flatMap, map_flatMap]
  exact List.Sublist.flatMap_right _ fun x _ => commits_sublist hcommit _

theorem SourceFile.nodup_splittingCommits {path text : String} {file : SourceFile} {issues : List Issue}
    (h : SourceFile.ofText path text = .ok (file, issues)) :
    (file.splittingCommits.map fun c => c.span.position).Nodup := by
  have hsub : (file.splittingCommits.map fun c => c.toExpr.outline).Sublist
      (file.declarations.flatMap fun d => PlacedRoutine.callNodes d.routines) := by
    rw [splittingCommits, map_flatMap]
    exact List.Sublist.flatMap_right _ fun d _ => d.splittingCommits_sublist
  have hspan : ∀ c : Call, c.toExpr.outline.span = c.span := by
    intro c
    rw [outline_eq]
    rfl
  have hfirst : (file.splittingCommits.map fun c => c.span.first).Nodup := by
    have hstarts := (SourceFile.nodup_starts h).sublist (hsub.map fun o => o.span.first)
    rw [map_map] at hstarts
    rwa [map_congr_left fun c _ => (congrArg Span.first (hspan c)).symm]
  -- a place in the text is a line and a column, which the report has as whole numbers
  let cast : ℕ ×ₗ ℕ → Int × Int := fun p => ((ofLex p).1, (ofLex p).2)
  have hcast : Function.Injective cast := by
    intro p q hpq
    obtain ⟨hline, hcolumn⟩ := Prod.mk.inj hpq
    exact ofLex.injective (Prod.ext (Int.ofNat.inj hline) (Int.ofNat.inj hcolumn))
  have hpositions := hfirst.map hcast
  rwa [map_map] at hpositions

/-! ## What rules are told of a call -/

theorem Frame.any_isLoop (around : List Frame) : around.any isLoop = decide ((loops around : Int) > 0) := by
  rw [Bool.eq_iff_iff, decide_eq_true_iff, any_eq_true, loops]
  rw [← countP_pos_iff]
  omega

theorem Node.eq_expr_of_operation? {n : Node} (h : n.operation? = some e) : n = .expr e := by
  cases n with
  | expr e' =>
    rw [operation?] at h
    split at h
    · rw [Option.some.inj h]
    · cases h
  | _ => cases h

/-- Rules look at the calls in a body and at no others, and are told whether a loop is around. -/
theorem Stmt.exists_active_iff {body : List Stmt} (hs : c.silent = 0) (hl : c.loopDepth = 0) (hi : c.ifDepth = 0)
    {k : Call} {looping : Bool} :
    (∃ s ∈ (walkAll body c).2, s.active = true ∧ s.node = .expr k.toExpr ∧ s.context.inLoop = looping) ↔
      ∃ around, (k, around) ∈ placedCalls body ∧ around.any Frame.isLoop = looping := by
  constructor
  · -- what is looked at, with the numbers of loops and conditions around, is what is written, in some order
    rintro ⟨s, hmem, hactive, hnode, rfl⟩
    have hdepths : operationAt? s.depths = some (k.toExpr, s.context.loopDepth, s.context.ifDepth) := by
      rw [Sight.depths, hnode]
      rfl
    have hseen := mem_filterMap.2 ⟨s.depths, mem_map_of_mem (mem_filter.2 ⟨hmem, hactive⟩), hdepths⟩
    obtain ⟨x, hx, hplaced⟩ := mem_flatMap.1 ((operations_actives hs hl hi).mem_iff.1 hseen)
    obtain ⟨e, he, heq⟩ := mem_map.1 hplaced
    obtain ⟨rfl, hdepth⟩ := Prod.mk.inj heq
    have hsub := (mem_filter.1 he).1
    rw [allSubexpressions_eq] at hsub
    refine ⟨⟨x.1, .head⟩ :: x.2, mem_flatMap.2 ⟨x, hx, mem_map_of_mem (mem_filterMap.2 ⟨_, hsub, rfl⟩)⟩, ?_⟩
    rw [Frame.any_isLoop, Context.inLoop, ← (Prod.mk.inj hdepth).1]
  · rintro ⟨around, hplaced, rfl⟩
    obtain ⟨x, hx, hplaced⟩ := mem_flatMap.1 hplaced
    obtain ⟨k', hk, heq⟩ := mem_map.1 hplaced
    obtain ⟨rfl, rfl⟩ := Prod.mk.inj heq
    obtain ⟨e, he, hcall⟩ := mem_filterMap.1 hk
    obtain rfl := eq_toExpr_of_asCall? hcall
    rw [← allSubexpressions_eq] at he
    have hdepths : (k'.toExpr, Frame.headDepth x.1 x.2) ∈ (placedAll [] body).flatMap fun x =>
        ((Expr.allSubexpressions x.1.exprs).filter Expr.isOperation).map (·, Frame.headDepth x.1 x.2) :=
      mem_flatMap.2 ⟨x, hx, mem_map_of_mem (mem_filter.2 ⟨he, rfl⟩)⟩
    obtain ⟨_, hseen, hat⟩ := mem_filterMap.1 ((operations_actives hs hl hi).mem_iff.2 hdepths)
    obtain ⟨s, hactive, rfl⟩ := mem_map.1 hseen
    obtain ⟨hmem, hactive⟩ := mem_filter.1 hactive
    obtain ⟨e, hnode, heq⟩ := Option.map_eq_some_iff.1 hat
    obtain ⟨rfl, hdepth⟩ := Prod.mk.inj heq
    refine ⟨s, hmem, hactive, Node.eq_expr_of_operation? hnode, ?_⟩
    rw [Frame.any_isLoop, Context.inLoop, (Prod.mk.inj hdepth).1]

/-- Whether a commit is in a trigger of a table does not depend on where in the body it stands. -/
theorem Context.inTableTrigger_eq {settings : Settings} {options : Options} {d : Declaration} {r : PlacedRoutine}
    (h : c.setting = (Analysis.contextFor settings options d r.place (some r.routine) r.owner).setting) :
    c.inTableTrigger = d.isTableTrigger r.place := by
  have hdeclaration : c.declaration = d := congrArg Context.declaration h
  have hplace : c.place = r.place := congrArg Context.place h
  rw [inTableTrigger, objectKind, hdeclaration, hplace, Declaration.kind, Declaration.isTableTrigger]
  cases d.contents <;> simp [Contents.kind]

/-! ## What is reported -/

namespace Analysis

open Catalog (commitInLoop splittingCommit)

variable {settings : Settings} {reg : Registry} {path text : String} {file : SourceFile}
  {issues : List Issue} {k : Call}

/-- The commits that split a transaction are those at which a rule is told of a loop or a trigger of a table
around. -/
theorem mem_splittingCommits_iff :
    k ∈ file.splittingCommits ↔ ∃ s ∈ sights reg settings file, s.active = true ∧ s.node = .expr k.toExpr ∧
      (k.isCommit && (s.context.inLoop || s.context.inTableTrigger)) = true := by
  constructor
  · intro hk
    obtain ⟨d, hd, hk⟩ := mem_flatMap.1 hk
    obtain ⟨r, hr, hk⟩ := mem_flatMap.1 hk
    obtain ⟨⟨k, around⟩, hplaced, rfl⟩ := mem_map.1 hk
    obtain ⟨hplaced, hsplitting⟩ := mem_filter.1 hplaced
    let c := contextFor settings (settings.optionsOf reg) d r.place (some r.routine) r.owner
    obtain ⟨s, hs, hactive, hnode, hloop⟩ := (Stmt.exists_active_iff (c := c) rfl rfl rfl).2 ⟨around, hplaced, rfl⟩
    refine ⟨s, (mem_sights_iff hnode).2 ⟨d, hd, r, hr, hs⟩, hactive, hnode, ?_⟩
    rw [hloop, Context.inTableTrigger_eq (Stmt.setting_of_mem_walkAll hs)]
    exact hsplitting
  · rintro ⟨s, hs, hactive, hnode, hsplitting⟩
    obtain ⟨d, hd, r, hr, hs⟩ := (mem_sights_iff hnode).1 hs
    obtain ⟨around, hplaced, hloop⟩ := (Stmt.exists_active_iff rfl rfl rfl).1 ⟨s, hs, hactive, hnode, rfl⟩
    rw [← hloop, Context.inTableTrigger_eq (Stmt.setting_of_mem_walkAll hs)] at hsplitting
    refine mem_flatMap.2 ⟨d, hd, mem_flatMap.2 ⟨r, hr, ?_⟩⟩
    exact mem_map.2 ⟨(k, around), mem_filter.2 ⟨hplaced, hsplitting⟩, rfl⟩

theorem isCommit_eq (k : Call) : k.isCommit = (k.isGlobal && k.method == "commit") := by
  obtain ⟨callee, args, implicit, span⟩ := k
  cases callee <;> rfl

theorem mem_splittingCommit (h : f ∈ splittingCommit c k) :
    f.span = k.span ∧ (k.isCommit && (c.inLoop || c.inTableTrigger)) = true := by
  rw [splittingCommit, ← isCommit_eq] at h
  split at h
  · next hcommit =>
    split at h
    · next hloop =>
      obtain rfl := mem_singleton.1 h
      exact ⟨rfl, by rw [hcommit, hloop]; rfl⟩
    · split at h
      · next htable =>
        obtain rfl := mem_singleton.1 h
        exact ⟨rfl, by rw [hcommit, htable, Bool.or_true]; rfl⟩
      · cases h
  · cases h

theorem exists_mem_splittingCommit (h : (k.isCommit && (c.inLoop || c.inTableTrigger)) = true) :
    ∃ f, f ∈ splittingCommit c k := by
  obtain ⟨hcommit, hplace⟩ := Bool.and_eq_true_iff.1 h
  rw [splittingCommit, ← isCommit_eq, if_pos hcommit]
  by_cases hloop : c.inLoop = true
  · rw [if_pos hloop]
    exact ⟨_, mem_singleton_self _⟩
  · have htable : c.inTableTrigger = true := (Bool.or_eq_true_iff.1 hplace).resolve_left hloop
    rw [if_neg hloop, if_pos htable]
    exact ⟨_, mem_singleton_self _⟩

theorem commitInLoop_mem : commitInLoop ∈ Catalog.rules := by simp [Catalog.rules]

theorem mem_findings_iff {s : Sight} :
    s.node.kind ∈ commitInLoop.kinds ∧ f ∈ (commitInLoop.check file s).findings ↔
      ∃ k : Call, s.node = .expr k.toExpr ∧ f ∈ splittingCommit s.context k := by
  show s.node.kind ∈ ["call"] ∧ f ∈ (Catalog.onCall splittingCommit file s).findings ↔ _
  constructor
  · rintro ⟨-, hf⟩
    rw [Catalog.onCall] at hf
    split at hf
    · next e hnode =>
      cases hcall : e.asCall? with
      | none =>
        rw [hcall] at hf
        cases hf
      | some k =>
        rw [hcall] at hf
        exact ⟨k, by rw [hnode, eq_toExpr_of_asCall? hcall], hf⟩
    · cases hf
  · rintro ⟨k, hnode, hf⟩
    rw [Catalog.onCall, hnode]
    exact ⟨mem_singleton_self _, hf⟩

/-- The complaints of the rule, before the report is made, point to the starts of the commits that split a
transaction. -/
theorem mem_complaints_iff (hfile : SourceFile.ofText path text = .ok (file, issues)) :
    (∃ d ∈ (ofText Catalog.registry {} path text).diagnostics, d.ruleId = commitInLoop.id ∧ d.position = p) ↔
      ∃ k ∈ file.splittingCommits, k.span.position = p := by
  constructor
  · rintro ⟨d, hd, hid, rfl⟩
    obtain ⟨s, hs, hactive, hkind, -, f, hf, message, -, rfl⟩ := (mem_diagnostics_iff commitInLoop_mem hfile hid).1 hd
    obtain ⟨k, hnode, hf⟩ := mem_findings_iff.1 ⟨hkind, hf⟩
    obtain ⟨hspan, hsplitting⟩ := mem_splittingCommit hf
    refine ⟨k, mem_splittingCommits_iff.2 ⟨s, hs, hactive, hnode, hsplitting⟩, ?_⟩
    rw [← hspan]
    rfl
  · rintro ⟨k, hk, rfl⟩
    obtain ⟨s, hs, hactive, hnode, hsplitting⟩ := mem_splittingCommits_iff.1 hk
    obtain ⟨f, hf⟩ := exists_mem_splittingCommit hsplitting
    obtain ⟨hkind, hfound⟩ := mem_findings_iff.2 ⟨k, hnode, hf⟩
    obtain ⟨message, hmessage⟩ := Catalog.exists_message commitInLoop_mem _ _ hfound
    refine ⟨f.diagnostic {} file.path commitInLoop message, ?_, rfl, ?_⟩
    · exact (mem_diagnostics_iff commitInLoop_mem hfile rfl).2
        ⟨s, hs, hactive, hkind, rfl, f, hfound, message, hmessage, rfl⟩
    · rw [← (mem_splittingCommit hf).1]
      rfl

theorem path_ofText (hfile : SourceFile.ofText path text = .ok (file, issues)) : file.path = path := by
  obtain ⟨tree, -, h⟩ := exists_of_bind_eq_ok hfile
  obtain ⟨built, -, h⟩ := exists_of_bind_eq_ok h
  obtain ⟨rfl, -⟩ := Prod.mk.inj (Except.ok.inj h)
  rfl

/-- Complaints of one rule about one file that a report keeps point to different places. -/
theorem nodup_positions (hpath : ∀ d ∈ ds, d.ruleId = id → d.path = path) :
    (((Diagnostic.finalize ds).filter (·.ruleId == id)).map Diagnostic.position).Nodup := by
  -- the keys are different, and among the complaints of one rule about one file a key is a place
  have hkeys : (((Diagnostic.finalize ds).filter (·.ruleId == id)).map Diagnostic.key).Nodup :=
    (nodup_keys_firstOfEach [] _).sublist (filter_sublist.map _)
  have hkey : ((Diagnostic.finalize ds).filter (·.ruleId == id)).map Diagnostic.key =
      (((Diagnostic.finalize ds).filter (·.ruleId == id)).map Diagnostic.position).map fun p =>
        ⟨path, p.1, p.2, id⟩ := by
    rw [map_map]
    refine map_congr_left fun d hd => ?_
    obtain ⟨hmem, hid⟩ := mem_filter.1 hd
    have hd := hpath d (mem_of_mem_finalize hmem) (eq_of_beq hid)
    rw [Diagnostic.key, hd, eq_of_beq hid]
    rfl
  rw [hkey] at hkeys
  exact hkeys.of_map _

/-- Complaints of one rule that a report keeps point to the same places as all of them. -/
theorem mem_positions_iff :
    p ∈ ((Diagnostic.finalize ds).filter (·.ruleId == id)).map Diagnostic.position ↔
      ∃ d ∈ ds, d.ruleId = id ∧ d.position = p := by
  constructor
  · intro hp
    obtain ⟨d, hd, rfl⟩ := mem_map.1 hp
    obtain ⟨hmem, hid⟩ := mem_filter.1 hd
    exact ⟨d, mem_of_mem_finalize hmem, eq_of_beq hid, rfl⟩
  · -- the complaint itself may be gone, but one with its key is kept
    rintro ⟨d, hd, rfl, rfl⟩
    obtain ⟨kept, hkept, hkey⟩ := mem_map.1 (mem_keys_finalize.2 (mem_map_of_mem hd))
    obtain ⟨-, hline, hcolumn, hid⟩ := Diagnostic.Key.mk.inj hkey
    refine mem_map.2 ⟨kept, mem_filter.2 ⟨hkept, beq_iff_eq.2 hid⟩, ?_⟩
    rw [Diagnostic.position, hline, hcolumn, Diagnostic.position]

/-- **The commits that split a transaction are reported, each once, and nothing else is.** The complaints of the
rule in the report on a text point to the places where these commits start, which are all different, and all of
them are errors. -/
theorem commits_reported_exactly (hfile : SourceFile.ofText path text = .ok (file, issues)) :
    let found := (Diagnostic.finalize (ofText Catalog.registry {} path text).diagnostics).filter
      (·.ruleId == "commit-in-loop")
    (found.map Diagnostic.position).Perm (file.splittingCommits.map fun k => k.span.position) ∧
      (found.map Diagnostic.position).Nodup ∧ ∀ d ∈ found, d.severity = "error" ∧ d.path = path := by
  intro found
  have hcomplaint : ∀ d ∈ (ofText Catalog.registry {} path text).diagnostics, d.ruleId = "commit-in-loop" →
      d.severity = "error" ∧ d.path = path := by
    intro d hd hid
    obtain ⟨s, -, -, -, -, f, -, message, -, rfl⟩ := (mem_diagnostics_iff commitInLoop_mem hfile hid).1 hd
    exact ⟨rfl, path_ofText hfile⟩
  have hnodup := nodup_positions fun d hd hid => (hcomplaint d hd hid).2
  refine ⟨?_, hnodup, fun d hd => ?_⟩
  · -- both lists name every place once, so it is enough that they name the same places
    rw [perm_ext_iff_of_nodup hnodup (SourceFile.nodup_splittingCommits hfile)]
    intro p
    rw [mem_positions_iff, mem_map]
    exact mem_complaints_iff hfile
  · obtain ⟨hmem, hid⟩ := mem_filter.1 hd
    exact hcomplaint d (mem_of_mem_finalize hmem) (eq_of_beq hid)

/-- Commits in a condition and an argument inside two loops, in a change of a field, and in a trigger of the
table itself. -/
theorem commits_reported_in_loops :
    let text := "tableextension 5 T extends S \x7b fields \x7b modify(A) \x7b trigger OnValidate() begin COMMIT() end; \x7d \x7d " ++
      "trigger OnInsert() begin Commit; end; \x7d codeunit 6 C \x7b procedure P() begin " ++
      "repeat while Go(Commit()) do commit; until Commit() end; \x7d"
    ∃ file issues, SourceFile.ofText "t.al" text = .ok (file, issues) ∧
      let found := (Diagnostic.finalize (ofText Catalog.registry {} "t.al" text).diagnostics).filter
        (·.ruleId == "commit-in-loop")
      (found.map Diagnostic.position).Perm (file.splittingCommits.map fun k => k.span.position) ∧
        (found.map Diagnostic.position).Nodup ∧ ∀ d ∈ found, d.severity = "error" ∧ d.path = "t.al" := by
  intro text
  have hlength : text.toList.length ≤ maxDigits := by
    simp only [text, String.toList_append, length_append]
    decide
  have hdigits : ∀ t ∈ (Scan.ofText text).tokens, t.kind = .number → t.digits ≤ maxDigits :=
    fun t ht _ => Nat.le_trans (Scan.digits_le_length ht) hlength
  obtain ⟨file, issues, hfile⟩ := SourceFile.exists_ofText hdigits "t.al"
  exact ⟨file, issues, hfile, commits_reported_exactly hfile⟩

end Analysis

end AlLint
