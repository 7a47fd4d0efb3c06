import AlLint.Proofs.Analysis.Faultless
import AlLint.Proofs.Rule.Caseless

/-!
# Analysis without regard to case

Two texts that differ in the case of ASCII letters only, wherever the letters stand, are complained about in the
same way: by the same rules, in the same places, with the same severities and categories. Only the wording may
differ, since messages repeat names as they are written. The rule about the case of names must be off, of
course.

The argument follows the analysis. The declarations of both texts look the same (`SourceFile.ofText_caseless`).
What there is to see in a declaration is seen alike in what is seen of it (`declarationSights_seenAs`). A rule
finds the same places in what is seen alike (`keys_runRule_eq`). So both analyses give diagnostics with the same
keys (`keys_ofText_eq`). The keys decide what stays in a report and in which order, and with the key of a
diagnostic goes all of it but its wording.
-/

namespace AlLint

open Text List

/-! ## Contexts -/

theorem TypeRef.traits_seen (v : View) (t : TypeRef) : (t.seen v).traits = t.traits := by
  have htemporary : (t.seen v).temporary = t.temporary := by
    obtain ⟨_, _, _, _, _, _ | _, _⟩ := t <;> rfl
  rw [traits, t.key_seen v, htemporary, traits]

namespace Declaration

theorem unquote_toLower (s : String) : unquote s.toLower = (unquote s).toLower := by
  -- a quotation mark is no letter, so a text is between two of them in any case
  have hquoted : ∀ c last : Char, (decide (c.toLower = last.toLower) && Doc.isQuote c.toLower) =
      (decide (c = last) && Doc.isQuote c) := by
    intro c last
    rw [Doc.isQuote_toLower]
    by_cases hquote : Doc.isQuote c = true
    · have hletter : c.isAlpha = false := by
        rw [Doc.isQuote, Bool.or_eq_true, beq_iff_eq, beq_iff_eq] at hquote
        rcases hquote with rfl | rfl <;> rfl
      have hlast : c = last.toLower ↔ c = last := eq_comm.trans ((toLower_eq_iff hletter last).trans eq_comm)
      rw [(toLower_eq_iff hletter c).2 rfl, decide_eq_decide.2 hlast]
    · rw [Bool.eq_false_iff.2 hquote, Bool.and_false, Bool.and_false]
  rw [unquote, unquote, ← strip_toLower, toList_toLower]
  rcases (strip s).toList with _ | ⟨c, _ | ⟨d, cs⟩⟩
  · exact (toLower_ofList []).symm
  · exact (toLower_ofList [c]).symm
  · obtain ⟨last, hlast⟩ : ∃ last, (c :: d :: cs).getLast? = some last :=
      ⟨_, getLast?_eq_some_getLast (cons_ne_nil _ _)⟩
    rw [getLast?_map, hlast]
    simp only [map_cons, Option.map_some, hquoted c last]
    split
    · rw [toLower_ofList, map_dropLast]
      rfl
    · rw [toLower_ofList]
      rfl

theorem value?_seen (v : View) (ps : Properties) (name : String) :
    (ps.seen v).value? name = (ps.value? name).map v.raw := by
  rw [Properties.value?, Properties.seen, Keyed.get?_map_values, Option.map_map, Properties.value?, Option.map_map]
  rfl

theorem sourceTable_seen (d : Declaration) : (d.seen .caseless).sourceTable = d.sourceTable.map String.toLower := by
  show ((d.properties.seen .caseless).value? "SourceTable").map unquote = _
  rw [value?_seen, sourceTable]
  cases d.properties.value? "SourceTable" with
  | none => simp only [Option.map_none]
  | some s => exact congrArg some (unquote_toLower s)

/-- The record that code works on without declaring it is there in any case. -/
theorem implicitRecord?_seen (d : Declaration) :
    (d.seen .caseless).implicitRecord?.map TypeRef.traits = d.implicitRecord?.map TypeRef.traits := by
  have hsource := d.sourceTable_seen
  rw [implicitRecord?, implicitRecord?, hsource, show (d.seen .caseless).contents =
    d.contents.seen .caseless from rfl,
    show (d.seen .caseless).objectType = d.objectType from rfl]
  cases d.contents with
  | table fields keys modifications => rfl
  | page fields actions =>
    simp only [Contents.seen]
    cases d.sourceTable with
    | none => rfl
    | some table =>
      simp only [Option.map_some, Option.filter_some, ne_eq, toLower_eq_empty]
      cases decide (¬table = "") <;> rfl
  | _ => rfl

end Declaration

theorem Symbols.ofScope_seen (d : Declaration) (parameters : List Parameter) (vars : List Variable) :
    (Symbols.ofScope (d.seen .caseless) (parameters.map (Parameter.seen .caseless))
      (vars.map (Variable.seen .caseless))).map
        (Prod.map id TypeRef.traits) =
      (Symbols.ofScope d parameters vars).map (Prod.map id TypeRef.traits) := by
  have hvars : ∀ vars : List Variable,
      ((vars.map (Variable.seen .caseless)).map fun x => (x.key, x.type)).map (Prod.map id TypeRef.traits) =
        (vars.map fun x => (x.key, x.type)).map (Prod.map id TypeRef.traits) := by
    intro vars
    rw [map_map, map_map, map_map]
    refine map_congr_left fun x _ => ?_
    exact Prod.ext (View.caseless.lower_see x.name) (x.type.traits_seen .caseless)
  have hparameters :
      ((parameters.map (Parameter.seen .caseless)).map fun p => (p.key, p.type)).map (Prod.map id TypeRef.traits) =
        (parameters.map fun p => (p.key, p.type)).map (Prod.map id TypeRef.traits) := by
    rw [map_map, map_map, map_map]
    refine map_congr_left fun p _ => ?_
    exact Prod.ext (View.caseless.lower_see p.name) (p.type.traits_seen .caseless)
  have hdeclared : ((d.seen .caseless).vars.map fun x => (x.key, x.type)).map (Prod.map id TypeRef.traits) =
      (d.vars.map fun x => (x.key, x.type)).map (Prod.map id TypeRef.traits) := hvars d.vars
  simp only [ofScope, Keyed.map_ofList, map_append, hvars vars, hparameters, hdeclared]
  rcases cases_of_option_map_eq d.implicitRecord?_seen with ⟨hnone, hnone'⟩ | ⟨t, t', hsome, hsome', htraits⟩
  · rw [hnone, hnone']
  · rw [hsome, hsome']
    simp only [map_cons, map_nil, Prod.map_apply, htraits]

namespace Analysis

variable {settings : Settings} {options : Options}

theorem contextFor_seenAs (d : Declaration) (place : Place) (routine : Option Routine)
    (owner owner' : Option String) : (contextFor settings options d place routine owner).SeenAs .caseless
      (contextFor settings options (d.seen .caseless) place (routine.map (Routine.seen .caseless)) owner') where
  objectKind := by
    obtain ⟨_, _, _, _, _, _, _, _, _, contents⟩ := d
    cases contents <;> rfl
  place := rfl
  routine := rfl
  symbols := by
    rcases routine with _ | _ | _
    · exact Symbols.ofScope_seen d [] []
    · exact Symbols.ofScope_seen d _ _
    · exact Symbols.ofScope_seen d _ _
  state := rfl
  loopDepth := rfl
  loopEntries := rfl
  ifDepth := rfl
  silent := rfl
  options := rfl

/-! ## What there is to see -/

section Lists

variable {α β : Type} {R : β → β → Prop} {f : α → α} {xs : List α}

theorem forall₂_map {g g' : α → β} (h : ∀ x, R (g x) (g' (f x))) : List.Forall₂ R (xs.map g) ((xs.map f).map g') := by
  rw [map_map, forall₂_map_left_iff, forall₂_map_right_iff, forall₂_same]
  exact fun x _ => h x

theorem forall₂_flatMap {g g' : α → List β} (h : ∀ x, List.Forall₂ R (g x) (g' (f x))) :
    List.Forall₂ R (xs.flatMap g) ((xs.map f).flatMap g') := by
  induction xs with
  | nil => exact .nil
  | cons x xs ih => exact rel_append (h x) ih

end Lists

theorem routineSights_seenAs (d : Declaration) (place : Place) (owner owner' : Option String) (r : Routine) :
    List.Forall₂ (Sight.SeenAs .caseless) (routineSights (contextFor settings options d) place owner r)
      (routineSights (contextFor settings options (d.seen .caseless)) place owner' (r.seen .caseless)) := by
  have hc := @contextFor_seenAs settings options d place (some r) owner owner'
  have hvars : (r.seen .caseless).vars = r.vars.map (Variable.seen .caseless) := by cases r <;> rfl
  have hbody : (r.seen .caseless).body = Stmt.seenAll .caseless r.body := by cases r <;> rfl
  rw [routineSights, routineSights, hvars, hbody]
  refine rel_append (.cons ⟨rfl, hc⟩ ?_) (Stmt.walkAll_alike r.body _ _ hc).2
  exact forall₂_map fun _ => ⟨rfl, hc⟩

/-- What there is in a declaration, with its texts seen. -/
def seenItem : Node ⊕ PlacedRoutine → Node ⊕ PlacedRoutine :=
  Sum.map (Node.seen .caseless) fun r => ⟨r.place, r.owner.map View.caseless.see, r.routine.seen .caseless⟩

theorem items_seen (d : Declaration) : (d.seen .caseless).items = d.items.map seenItem := by
  have htriggers : ∀ place owner (triggers : Triggers),
      (Declaration.triggerRoutines place (owner.map View.caseless.see) (triggers.seen .caseless)).map Sum.inr =
        (Declaration.triggerRoutines place owner triggers).map fun r => seenItem (.inr r) := by
    intro place owner triggers
    simp only [Declaration.triggerRoutines, Triggers.seen, Keyed.values, map_map]
    rfl
  obtain ⟨_, _, _, _, _, _, _, _, _, contents⟩ := d
  cases contents <;>
    simp only [Declaration.items, Declaration.contentItems, Declaration.seen, Contents.seen, map_append,
      map_cons, map_nil, map_map,
      map_flatMap, flatMap_map, flatMap_append, Function.comp_def, ← htriggers] <;> rfl

/-- What there is to see in a declaration is seen alike in what is seen of it. -/
theorem declarationSights_seenAs (d : Declaration) : List.Forall₂ (Sight.SeenAs .caseless)
    (declarationSights settings options d) (declarationSights settings options (d.seen .caseless)) := by
  rw [declarationSights_eq, declarationSights_eq, items_seen]
  refine forall₂_flatMap fun item => ?_
  cases item with
  | inl n => exact .cons ⟨rfl, contextFor_seenAs d .declaration none none none⟩ .nil
  | inr r => exact routineSights_seenAs d r.place r.owner _ r.routine

/-! ## What the rules say -/

theorem key_engineDiagnostic? (rule : EngineRule) (path : String) (line column : Nat) (message message' : String) :
    (engineDiagnostic? settings rule path line column message).map Diagnostic.key =
      (engineDiagnostic? settings rule path line column message').map Diagnostic.key := by
  rw [engineDiagnostic?, engineDiagnostic?]
  split <;> rfl

theorem keys_issueDiagnostics_eq (path : String) {issues issues' : List Issue}
    (h : issues.map Issue.span = issues'.map Issue.span) :
    (issueDiagnostics settings path issues).map Diagnostic.key =
      (issueDiagnostics settings path issues').map Diagnostic.key := by
  have hspans : ∀ issues : List Issue, (issueDiagnostics settings path issues).map Diagnostic.key =
      (issues.map Issue.span).filterMap fun span =>
        (engineDiagnostic? settings .syntaxError path span.line span.column "").map Diagnostic.key := by
    intro issues
    rw [issueDiagnostics, map_filterMap, filterMap_map]
    exact filterMap_congr fun _ _ => key_engineDiagnostic? ..
  rw [hspans, hspans, h]

/-- If every message can be made, there is a diagnostic at the place of every finding. -/
theorem keys_report (path : String) {r : Rule} {findings : List Finding}
    (h : ∀ f ∈ findings, ∃ message, r.render f = .ok message) :
    (report settings path r findings).1.map Diagnostic.key =
      (findings.map Finding.span).map fun span => ⟨path, span.line, span.column, r.id⟩ := by
  induction findings with
  | nil => rfl
  | cons f rest ih =>
    obtain ⟨message, hmessage⟩ := h f mem_cons_self
    rw [report, hmessage, map_cons, map_cons, map_cons, ← ih fun g hg => h g (mem_cons_of_mem _ hg)]
    rfl

variable {file file' : SourceFile} {s s' : Sight}

/-- A rule that does not see case complains in the same places, and fails on the same nodes. -/
theorem keys_runRule_eq {r : Rule} (hr : r ∈ Catalog.rules) (hnaming : r.id ≠ Catalog.naming.id)
    (hpath : file'.path = file.path) (h : s.SeenAs .caseless s') :
    (runRule settings file' s' r).diagnostics.map Diagnostic.key =
      (runRule settings file s r).diagnostics.map Diagnostic.key := by
  have hmessage := fun file s f (hf : f ∈ (r.check file s).findings) => Catalog.exists_message hr file s hf
  obtain ⟨hspans, hfault⟩ := Prod.mk.inj (Catalog.caseless_of_mem_rules hr hnaming file file' s s' h)
  have hkeys : (report settings file.path r (r.check file' s').findings).1.map Diagnostic.key =
      (report settings file.path r (r.check file s).findings).1.map Diagnostic.key := by
    rw [keys_report _ (hmessage file' s'), keys_report _ (hmessage file s), hspans]
  simp only [runRule, report_fault _ _ (hmessage file' s'), report_fault _ _ (hmessage file s),
    Option.none_or, hfault, hpath]
  cases (r.check file s).fault with
  | none => exact hkeys
  | some fault =>
    simp only [Result.append, map_append, hkeys, ruleFault, h.node, Node.span_seen View.place_caseless,
      ← Option.toList_map]
    rw [key_engineDiagnostic?]

theorem keys_dispatch_eq (hnaming : settings.isEnabled Catalog.naming.id = false) (hpath : file'.path = file.path)
    (h : s.SeenAs .caseless s') :
    (dispatch Catalog.registry settings file' s').diagnostics.map Diagnostic.key =
      (dispatch Catalog.registry settings file s).diagnostics.map Diagnostic.key := by
  have hactive : s'.active = s.active := by
    rw [Sight.active, Sight.active, h.context.silent]
  rw [dispatch, dispatch, hactive, h.node, Node.kind_seen]
  split
  · rw [diagnostics_foldl, diagnostics_foldl, nil_append, nil_append, map_flatMap, map_flatMap]
    refine flatMap_congr fun r hr => ?_
    obtain ⟨hkind, henabled⟩ := mem_filter.1 hr
    refine keys_runRule_eq ((Registry.holds_ofRules Catalog.ofRules_rules).mem_of_mem_forKind hkind) ?_ hpath h
    intro hid
    rw [hid, hnaming] at henabled
    cases henabled
  · rfl

/-- The rules complain about the same places in what is seen of a file. -/
theorem keys_check_seen (hnaming : settings.isEnabled Catalog.naming.id = false) (hpath : file'.path = file.path)
    (hdeclarations : file'.declarations = file.declarations.map (Declaration.seen .caseless)) :
    (check Catalog.registry settings file').diagnostics.map Diagnostic.key =
      (check Catalog.registry settings file).diagnostics.map Diagnostic.key := by
  have hsights : List.Forall₂ (Sight.SeenAs .caseless) (sights Catalog.registry settings file)
      (sights Catalog.registry settings file') := by
    rw [sights, sights, hdeclarations]
    exact forall₂_flatMap declarationSights_seenAs
  have hdispatch : ∀ s s' : Sight, s.SeenAs .caseless s' →
      (dispatch Catalog.registry settings file s).diagnostics.map Diagnostic.key =
        (dispatch Catalog.registry settings file' s').diagnostics.map Diagnostic.key :=
    fun s s' h => (keys_dispatch_eq hnaming hpath h).symm
  rw [check, check, diagnostics_foldl, diagnostics_foldl, nil_append, nil_append, map_flatMap, map_flatMap,
    flatMap_def, flatMap_def]
  exact congrArg List.flatten (map_eq_of_forall₂ hdispatch hsights).symm

/-- The rules complain about the same places in two files of which the same is seen. -/
theorem keys_check_eq (hnaming : settings.isEnabled Catalog.naming.id = false) (hpath : file.path = file'.path)
    (h : file.declarations.map (Declaration.seen .caseless) = file'.declarations.map (Declaration.seen .caseless)) :
    (check Catalog.registry settings file).diagnostics.map Diagnostic.key =
      (check Catalog.registry settings file').diagnostics.map Diagnostic.key := by
  let common : SourceFile := { file with declarations := file.declarations.map (Declaration.seen .caseless) }
  have hcommon : common.path = file.path := rfl
  calc (check Catalog.registry settings file).diagnostics.map Diagnostic.key
      = (check Catalog.registry settings common).diagnostics.map Diagnostic.key :=
        (keys_check_seen hnaming hcommon rfl).symm
    _ = (check Catalog.registry settings file').diagnostics.map Diagnostic.key := keys_check_seen hnaming hpath h

/-- Texts that differ in case get diagnostics of the same rules in the same places, in the same order. -/
theorem keys_ofText_eq (hnaming : settings.isEnabled Catalog.naming.id = false) (path : String) {text text' : String}
    (h : text.toLower = text'.toLower) :
    (ofText Catalog.registry settings path text).diagnostics.map Diagnostic.key =
      (ofText Catalog.registry settings path text').diagnostics.map Diagnostic.key := by
  have hread := SourceFile.ofText_caseless h path
  rw [ofText, ofText]
  cases hfound : SourceFile.ofText path text with
  | error e =>
    cases hfound' : SourceFile.ofText path text' with
    | error e' =>
      rw [hfound, hfound'] at hread
      obtain rfl := Except.error.inj hread
      rfl
    | ok found' =>
      rw [hfound, hfound'] at hread
      cases hread
  | ok found =>
    cases hfound' : SourceFile.ofText path text' with
    | error e' =>
      rw [hfound, hfound'] at hread
      cases hread
    | ok found' =>
      rw [hfound, hfound'] at hread
      obtain ⟨hpath, hrest⟩ := Prod.mk.inj (Except.ok.inj hread)
      obtain ⟨hdeclarations, hissues⟩ := Prod.mk.inj hrest
      simp only [Result.append, map_append, keys_issueDiagnostics_eq path hissues,
        keys_check_eq hnaming hpath hdeclarations]

end Analysis

/-! ## Reports -/

namespace Diagnostic

def unworded (d : Diagnostic) : Diagnostic := { d with message := "" }

variable {reg : Registry} {settings : Settings}

theorem unworded_eq {a b : Diagnostic} (ha : a.IsGraded reg settings) (hb : b.IsGraded reg settings)
    (h : a.key = b.key) :
    a.unworded = b.unworded := by
  obtain ⟨hpath, hline, hcolumn, hid⟩ := Key.mk.inj h
  obtain ⟨hseverity, hcategory⟩ := grade_eq ha hb hid
  simp only [unworded, hpath, hline, hcolumn, hid, hseverity, hcategory]

/-- Graded diagnostics with the same keys differ in their wording only. -/
theorem map_unworded_eq {ds ds' : List Diagnostic} (hds : ∀ d ∈ ds, d.IsGraded reg settings)
    (hds' : ∀ d ∈ ds', d.IsGraded reg settings) (h : ds.map key = ds'.map key) :
    ds.map unworded = ds'.map unworded := by
  induction forall₂_of_map_eq h with
  | nil => rfl
  | cons hkey hrest ih =>
    rw [map_cons, map_cons, unworded_eq (hds _ mem_cons_self) (hds' _ mem_cons_self) hkey]
    rw [ih (fun d hd => hds d (mem_cons_of_mem _ hd)) (fun d hd => hds' d (mem_cons_of_mem _ hd))
      (List.cons.inj h).2]

end Diagnostic

namespace Analysis

/-- **A report does not depend on the case of letters.** Two texts that differ in the case of ASCII letters, in
names, keywords or anywhere else, get the same diagnostics in the same order, but for the wording, if the rule
about the case of names is off. -/
theorem report_caseless {settings : Settings} (hnaming : settings.isEnabled Catalog.naming.id = false) (path : String)
    {text text' : String} (h : text.toLower = text'.toLower) :
    (Diagnostic.finalize (ofText Catalog.registry settings path text).diagnostics).map Diagnostic.unworded =
      (Diagnostic.finalize (ofText Catalog.registry settings path text').diagnostics).map Diagnostic.unworded := by
  have hgraded : ∀ text, ∀ d ∈ Diagnostic.finalize (ofText Catalog.registry settings path text).diagnostics,
      d.IsGraded Catalog.registry settings := fun text d hd =>
    isGraded_of_mem_ofText (Registry.holds_ofRules Catalog.ofRules_rules) (Diagnostic.mem_of_mem_finalize hd)
  refine Diagnostic.map_unworded_eq (hgraded text) (hgraded text') (Diagnostic.keys_finalize_eq fun k => ?_)
  rw [keys_ofText_eq hnaming path h]

/-- A table in two spellings, with a field of a type that a rule complains about. -/
theorem report_of_shouted_table :
    let settings : Settings := { rules := [("naming", { enabled := false })] }
    let text := "table 1 Job { fields { field(1; Kind; Option) { } } }"
    let text' := "TABLE 1 JOB { FIELDS { FIELD(1; kind; oPTION) { } } }"
    text ≠ text' ∧ settings.isEnabled Catalog.naming.id = false ∧ text.toLower = text'.toLower ∧
      (Diagnostic.finalize (ofText Catalog.registry settings "job.al" text).diagnostics).map Diagnostic.unworded =
        (Diagnostic.finalize (ofText Catalog.registry settings "job.al" text').diagnostics).map
          Diagnostic.unworded := by
  intro settings text text'
  have hnaming : settings.isEnabled Catalog.naming.id = false := by decide
  have hlower : text.toLower = text'.toLower := by
    rw [← String.toList_inj, toList_toLower, toList_toLower]
    decide
  exact ⟨by decide, hnaming, hlower, report_caseless hnaming "job.al" hlower⟩

end Analysis

end AlLint
