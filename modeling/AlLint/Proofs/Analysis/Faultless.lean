import AlLint.Proofs.Analysis.Grade
import AlLint.Proofs.Reading.Arguments
import AlLint.Proofs.Rule.Filling
import AlLint.Proofs.Settings.Accepted

/-!
# Accepted settings cause no faults

A rule that comes with the program fails in two ways only: if it cannot use the value of an option, or if a
place in its message cannot be read. The messages are short, and accepted settings give every option a value of
the type of its default. So with accepted settings no rule fails on any node by itself, and a text whose numbers
can be read is analysed without a fault, as long as the stack does not overflow.
-/

namespace AlLint

open List Catalog

variable {r : Rule} {default : Document} {sight : Sight}

/-! ## Messages -/

namespace Message

theorem length_of_mem_cut {cs digits : List Char} (h : .place digits ∈ cut cs) : digits.length ≤ cs.length := by
  fun_induction cut cs with
  | case1 => cases h
  | case2 c cs taken hplace ih =>
    have htaken : taken.length ≤ cs.length := (takeWhile_sublist _).length_le
    have hdropped : (cs.dropWhile Text.isDecimal).length ≤ cs.length := (dropWhile_sublist _).length_le
    rw [length_cons]
    rcases mem_cons.1 h with h | h
    · obtain rfl := Part.place.inj h
      omega
    · have := ih h
      omega
  | case3 c cs taken hplain ih =>
    have := ih ((mem_cons.1 h).resolve_left Part.noConfusion)
    rw [length_cons]
    omega

/-- A short template can be filled with values that can be written, since no number in it has too many digits. -/
theorem exists_render {template : String} (h : template.toList.length ≤ maxDigits) {args : List Document}
    (hargs : ∀ arg ∈ args, arg.isWritable = true) : ∃ message, render template args = .ok message := by
  have hvalues : ∀ part ∈ cut template.toList, ∀ arg ∈ part.value? args, arg.isWritable = true := by
    intro part _ arg harg
    cases part with
    | plain c => cases harg
    | place digits =>
      rw [Part.value?, value?] at harg
      split at harg
      · obtain rfl := Option.some.inj harg
        exact hargs _ (get_mem ..)
      · cases harg
  rw [render, mapM_fill_eq _ fun digits hplace => Nat.le_trans (length_of_mem_cut hplace) h, if_pos hvalues]
  exact ⟨_, rfl⟩

end Message

/-! ## What rules pass on to their messages -/

/-- A finding that passes on texts only. -/
def Finding.HasTexts (f : Finding) : Prop := ∀ arg ∈ f.args, ∃ text, arg = .text text

/-- All that a rule finds passes on texts only. -/
def Verdict.HasTexts (v : Verdict) : Prop := ∀ f ∈ v.findings, f.HasTexts

namespace Catalog

@[grind .]
theorem hasTexts_found (span : Span) (texts : List String) : (found span texts).HasTexts := by
  intro arg harg
  obtain ⟨text, -, rfl⟩ := mem_map.1 harg
  exact ⟨text, rfl⟩

theorem hasTexts_none (fault : Option Fault) : Verdict.HasTexts { fault } :=
  fun _ hf => absurd hf not_mem_nil

theorem hasTexts_onCall {f : Context → Call → List Finding} (h : ∀ c call, ∀ x ∈ f c call, x.HasTexts)
    (file : SourceFile) (sight : Sight) : (onCall f file sight).HasTexts := by
  unfold onCall
  split
  · next e _ =>
    cases e.asCall? with
    | none => exact hasTexts_none none
    | some call => exact h _ call
  · exact hasTexts_none none

theorem hasTexts_ofExcept {α : Type} {x : Except Misfit α} {g : α → Except Misfit (List Finding)}
    (h : ∀ a, (Verdict.ofExcept (g a)).HasTexts) : (Verdict.ofExcept (x >>= g)).HasTexts := by
  cases x with
  | error m => exact hasTexts_none _
  | ok a => exact h a

theorem hasTexts_map {α : Type} {x : Except Misfit α} {g : α → List Finding} (h : ∀ a, ∀ f ∈ g a, f.HasTexts) :
    (Verdict.ofExcept (x.map g)).HasTexts := by
  cases x with
  | error m => exact hasTexts_none _
  | ok a => exact h a

theorem hasTexts_onStmtWith {f : Context → Stmt → Except Misfit (List Finding)}
    (h : ∀ c s, (Verdict.ofExcept (f c s)).HasTexts) (file : SourceFile) (sight : Sight) :
    (onStmtWith f file sight).HasTexts := by
  unfold onStmtWith
  split
  · exact h _ _
  · exact hasTexts_none none

theorem hasTexts_undocumented (p : Procedure) : ∀ f ∈ undocumented p, f.HasTexts := by
  have hown : ∀ message, Finding.HasTexts { span := p.span, message := some message } :=
    fun _ _ harg => absurd harg not_mem_nil
  unfold undocumented
  grind

theorem hasTexts_countComparison (c : Context) (e : Expr) : ∀ f ∈ countComparison c e, f.HasTexts := by
  unfold countComparison
  split
  · next op left right span =>
    cases countBesideZero? c left right <;> grind
  · simp

theorem hasTexts_naming (file : SourceFile) (sight : Sight) : (naming.check file sight).HasTexts := by
  have hlabel : ∀ c v, (Verdict.ofExcept (labelEnding c v)).HasTexts := by
    intro c v
    unfold labelEnding
    split
    · refine hasTexts_ofExcept fun endings => hasTexts_ofExcept fun ends => ?_
      cases ends with
      | false => exact fun f hf => mem_singleton.1 hf ▸ hasTexts_found _ _
      | true => exact hasTexts_none none
    · exact hasTexts_none none
  have hpassed : ∀ c call, (Verdict.ofExcept (passedLabel c call)).HasTexts := by
    intro c call
    unfold passedLabel
    split
    · split
      · exact hasTexts_map (by grind)
      · exact hasTexts_none none
    · exact hasTexts_none none
  unfold naming
  dsimp only
  split
  · intro f hf
    rcases mem_append.1 hf with hf | hf
    · unfold variableCasing at hf
      grind
    · exact hlabel _ _ f hf
  · unfold fieldName
    grind [Verdict.HasTexts]
  · unfold objectName
    grind [Verdict.HasTexts]
  · next e _ =>
    cases e.asCall? with
    | none => exact hasTexts_none none
    | some call => exact hpassed _ call
  · exact hasTexts_none none

/-- The rules that come with the program pass on texts only. -/
theorem hasTexts_check {r : Rule} (hr : r ∈ rules) (file : SourceFile) (sight : Sight) :
    (r.check file sight).HasTexts := by
  simp only [rules, mem_cons, not_mem_nil, or_false] at hr
  rcases hr with rfl | rfl | rfl | rfl | rfl | rfl | rfl | rfl | rfl | rfl | rfl | rfl | rfl
  · exact hasTexts_onCall (by unfold userCallInTable; grind) file sight
  · refine hasTexts_onStmtWith (fun c s => ?_) file sight
    unfold logicInAction
    split
    · exact hasTexts_map (by grind)
    · exact hasTexts_none none
  · exact hasTexts_onCall (by unfold repeatedLookup; grind) file sight
  · exact hasTexts_onCall (by unfold repeatedCalculation; grind) file sight
  · exact hasTexts_onCall (by unfold unguardedChange; grind) file sight
  · exact hasTexts_onCall (by unfold partialWrite; grind) file sight
  · unfold countForExistence Verdict.HasTexts
    grind [hasTexts_countComparison]
  · unfold missingDoc onProcedure Verdict.HasTexts
    grind [hasTexts_undocumented]
  · exact hasTexts_naming file sight
  · unfold labelPlaceholderComment onVariable Verdict.HasTexts
    grind [unexplainedLabel]
  · exact hasTexts_onStmtWith (fun c s => hasTexts_map (by grind)) file sight
  · unfold enumPreference onField Verdict.HasTexts
    grind [optionField]
  · exact hasTexts_onCall (by unfold splittingCommit; grind) file sight

end Catalog

/-! ## Options -/

namespace Settings

theorem exists_int_of_accepts {i : Int} {value : Document} (h : optionAccepts (.int i) value = true) :
    ∃ j, value = .int j := by
  cases value <;> first | exact ⟨_, rfl⟩ | cases h

theorem exists_text_of_accepts {s : String} {value : Document} (h : optionAccepts (.text s) value = true) :
    ∃ s', value = .text s' := by
  cases value <;> first | exact ⟨_, rfl⟩ | cases h

theorem exists_texts_of_accepts {items : List Document} {value : Document}
    (h : optionAccepts (.list items) value = true) :
    ∃ items', value = .list items' ∧ ∀ item ∈ items', ∃ s, item = .text s := by
  cases value with
  | list items' =>
    refine ⟨items', rfl, fun item hitem => ?_⟩
    have htext : isText item = true := all_eq_true.1 h item hitem
    cases item <;> first | exact ⟨_, rfl⟩ | cases htext
  | _ => cases h

end Settings

namespace Catalog

open Settings

theorem fault_onCall (f : Context → Call → List Finding) (file : SourceFile) (sight : Sight) :
    (onCall f file sight).fault = none := by
  unfold onCall
  split <;> rfl

theorem fault_onField (f : Field → List Finding) (file : SourceFile) (sight : Sight) :
    (onField f file sight).fault = none := by
  unfold onField
  split <;> rfl

theorem fault_onVariable (f : Context → Variable → List Finding) (file : SourceFile) (sight : Sight) :
    (onVariable f file sight).fault = none := by
  unfold onVariable
  split <;> rfl

theorem fault_onProcedure (f : Procedure → List Finding) (file : SourceFile) (sight : Sight) :
    (onProcedure f file sight).fault = none := by
  unfold onProcedure
  split <;> rfl

theorem fault_countForExistence (file : SourceFile) (sight : Sight) :
    (countForExistence.check file sight).fault = none := by
  unfold countForExistence
  dsimp only
  split <;> rfl

theorem rule_cases (hr : r ∈ rules) :
    r = ruleInPage ∨ r = naming ∨ r = nestedConditionals ∨
      r.options = [] ∧ ∀ file sight, (r.check file sight).fault = none := by
  by_cases hpage : r = ruleInPage
  · exact .inl hpage
  by_cases hnaming : r = naming
  · exact .inr (.inl hnaming)
  by_cases hnested : r = nestedConditionals
  · exact .inr (.inr (.inl hnested))
  refine .inr (.inr (.inr ?_))
  simp only [rules, mem_cons, not_mem_nil, hpage, hnaming, hnested, false_or, or_false] at hr
  rcases hr with rfl | rfl | rfl | rfl | rfl | rfl | rfl | rfl | rfl | rfl
  · exact ⟨rfl, fault_onCall _⟩
  · exact ⟨rfl, fault_onCall _⟩
  · exact ⟨rfl, fault_onCall _⟩
  · exact ⟨rfl, fault_onCall _⟩
  · exact ⟨rfl, fault_onCall _⟩
  · exact ⟨rfl, fault_countForExistence⟩
  · exact ⟨rfl, fault_onProcedure _⟩
  · exact ⟨rfl, fault_onVariable _⟩
  · exact ⟨rfl, fault_onField _⟩
  · exact ⟨rfl, fault_onCall _⟩

/-- The defaults of options are whole numbers, texts and lists of texts. -/
theorem default_cases (hr : r ∈ rules) {name : String}
    (h : r.options.get? name = some default) :
    (∃ i, default = .int i) ∨ (∃ s, default = .text s) ∨
      ∃ texts : List String, default = .list (texts.map .text) := by
  have hmem := Keyed.mem_of_get? h
  rcases rule_cases hr with rfl | rfl | rfl | ⟨hnone, -⟩
  · exact .inl ⟨0, (Prod.mk.inj (mem_singleton.1 hmem)).2⟩
  · rcases mem_cons.1 hmem with hlist | htext
    · exact .inr (.inr ⟨labelSuffixes, (Prod.mk.inj hlist).2⟩)
    · obtain ⟨entry, -, hentry⟩ := mem_map.1 htext
      exact .inr (.inl ⟨entry.2.2, (Prod.mk.inj hentry).2.symm⟩)
  · exact .inl ⟨3, (Prod.mk.inj (mem_singleton.1 hmem)).2⟩
  · rw [hnone] at h
    cases h

theorem default_accepted (hr : r ∈ rules) {name : String}
    (h : r.options.get? name = some default) : optionAccepts default default = true := by
  rcases default_cases hr h with ⟨i, rfl⟩ | ⟨s, rfl⟩ | ⟨texts, rfl⟩
  · rfl
  · rfl
  · rw [optionAccepts, all_map, all_eq_true]
    exact fun _ _ => rfl

theorem hasTypeOf_of_accepts (hr : r ∈ rules) {name : String} {value : Document}
    (h : r.options.get? name = some default) (haccepts : optionAccepts default value = true) :
    value.HasTypeOf default := by
  rcases default_cases hr h with ⟨i, rfl⟩ | ⟨s, rfl⟩ | ⟨texts, rfl⟩
  · obtain ⟨j, rfl⟩ := exists_int_of_accepts haccepts
    exact ⟨rfl, by rintro _ ⟨⟩⟩
  · obtain ⟨s', rfl⟩ := exists_text_of_accepts haccepts
    exact ⟨rfl, by rintro _ ⟨⟩⟩
  · obtain ⟨items, rfl, hitems⟩ := exists_texts_of_accepts haccepts
    refine ⟨rfl, fun items' h => ?_⟩
    obtain rfl := Document.list.inj h
    exact hitems

/-- The options of all rules in a context are values that their defaults allow. -/
def Fits (c : Context) : Prop :=
  ∀ r ∈ rules, ∀ name default, r.options.get? name = some default →
    ∃ value, c.option? r.id name = some value ∧ optionAccepts default value = true

variable {c : Context}

theorem Fits.option (h : Fits c) (hr : r ∈ rules) {name : String}
    (hdefault : r.options.get? name = some default) (given : Document) :
    optionAccepts default (c.option r.id name given) = true := by
  obtain ⟨value, hvalue, haccepts⟩ := h r hr name default hdefault
  rwa [Context.option, hvalue]

theorem fault_ofExcept {x : Except Misfit (List Finding)} (h : ∃ findings, x = .ok findings) :
    (Verdict.ofExcept x).fault = none := by
  obtain ⟨findings, rfl⟩ := h
  rfl

theorem exists_logicInAction (h : Fits c) (s : Stmt) : ∃ findings, logicInAction c s = .ok findings := by
  unfold logicInAction
  split
  · next routine _ _ _ =>
    have haccepts : optionAccepts (.int 0) (c.option "rule-in-page" "max_logic_statements" (.int 0)) = true :=
      h.option (r := ruleInPage) (by simp [rules]) rfl _
    obtain ⟨limit, hlimit⟩ := exists_int_of_accepts haccepts
    dsimp only
    rw [hlimit]
    exact ⟨_, rfl⟩
  · exact ⟨_, rfl⟩

theorem exists_deepCondition (h : Fits c) (s : Stmt) : ∃ findings, deepCondition c s = .ok findings := by
  have haccepts : optionAccepts (.int 3) (c.option "nested-conditionals" "max_depth" (.int 3)) = true :=
    h.option (r := nestedConditionals) (by simp [rules]) rfl _
  obtain ⟨limit, hlimit⟩ := exists_int_of_accepts haccepts
  unfold deepCondition
  dsimp only
  rw [hlimit]
  exact ⟨_, rfl⟩

theorem exists_endsWithOne (name : String) {items : List Document} (h : ∀ item ∈ items, ∃ s, item = .text s) :
    ∃ ends, endsWithOne name items = .ok ends := by
  induction items with
  | nil => exact ⟨_, rfl⟩
  | cons item items ih =>
    obtain ⟨s, rfl⟩ := h item mem_cons_self
    rw [endsWithOne]
    split
    · exact ⟨_, rfl⟩
    · exact ih fun i hi => h i (mem_cons_of_mem _ hi)

theorem exists_labelEnding (h : Fits c) (v : Variable) : ∃ findings, labelEnding c v = .ok findings := by
  unfold labelEnding
  split
  · have haccepts : optionAccepts (.list (labelSuffixes.map .text))
        (c.option "naming" "label_suffixes" (.list (labelSuffixes.map .text))) = true :=
      h.option (r := naming) (by simp [rules]) rfl _
    obtain ⟨items, hitems, htexts⟩ := exists_texts_of_accepts haccepts
    obtain ⟨ends, hends⟩ := exists_endsWithOne v.name htexts
    rw [hitems]
    simp only [listed, bind, Except.bind, hends]
    exact ⟨_, rfl⟩
  · exact ⟨_, rfl⟩

theorem exists_passedLabel (h : Fits c) (call : Call) : ∃ findings, passedLabel c call = .ok findings := by
  unfold passedLabel
  split
  · next entry option default n _ span _ hfind _ _ =>
    split
    · have hmem : (entry, option, default) ∈ suffixOptions := mem_of_find?_eq_some hfind
      have hdefault : naming.options.get? option = some (.text default) := by
        simp only [suffixOptions, mem_cons, Prod.mk.injEq, not_mem_nil, or_false] at hmem
        rcases hmem with ⟨-, rfl, rfl⟩ | ⟨-, rfl, rfl⟩ | ⟨-, rfl, rfl⟩ <;> rfl
      have haccepts : optionAccepts (.text default) (c.option "naming" option (.text default)) = true :=
        h.option (r := naming) (by simp [rules]) hdefault _
      obtain ⟨ending, hending⟩ := exists_text_of_accepts haccepts
      dsimp only
      rw [hending]
      exact ⟨_, rfl⟩
    · exact ⟨_, rfl⟩
  · exact ⟨_, rfl⟩

/-- **With options that fit, no rule fails.** -/
theorem fault_eq_none (hr : r ∈ rules) (file : SourceFile) (sight : Sight) (h : Fits sight.context) :
    (r.check file sight).fault = none := by
  rcases rule_cases hr with rfl | rfl | rfl | ⟨-, hnone⟩
  · show (onStmtWith logicInAction file sight).fault = none
    unfold onStmtWith
    split
    · exact fault_ofExcept (exists_logicInAction h _)
    · rfl
  · unfold naming
    dsimp only
    split
    · exact fault_ofExcept (exists_labelEnding h _)
    · rfl
    · rfl
    · next e _ =>
      refine fault_ofExcept ?_
      cases e.asCall? with
      | none => exact ⟨_, rfl⟩
      | some call => exact exists_passedLabel h call
    · rfl
  · show (onStmtWith deepCondition file sight).fault = none
    unfold onStmtWith
    split
    · exact fault_ofExcept (exists_deepCondition h _)
    · rfl
  · exact hnone file sight

theorem length_message (hr : r ∈ rules) : r.message.toList.length ≤ maxDigits := by
  -- the lists of characters are taken as written, since running through the bytes of a text takes long
  have hchars : ∃ cs, r.message = String.ofList cs ∧ cs.length ≤ maxDigits := by
    simp only [rules, mem_cons, not_mem_nil, or_false] at hr
    rcases hr with rfl | rfl | rfl | rfl | rfl | rfl | rfl | rfl | rfl | rfl | rfl | rfl | rfl <;>
      exact ⟨_, rfl, by decide⟩
  obtain ⟨cs, hcs, hlength⟩ := hchars
  rwa [hcs, String.toList_ofList]

theorem exists_message (hr : r ∈ rules) (file : SourceFile) (sight : Sight) {f : Finding}
    (hf : f ∈ (r.check file sight).findings) : ∃ message, r.render f = .ok message := by
  unfold Rule.render
  split
  · exact ⟨_, rfl⟩
  · have hargs : ∀ arg ∈ f.args, arg.isWritable = true := by
      intro arg harg
      obtain ⟨text, rfl⟩ := hasTexts_check hr file sight f hf arg harg
      rfl
    obtain ⟨message, hmessage⟩ := Message.exists_render (length_message hr) hargs
    rw [hmessage]
    exact ⟨message, rfl⟩

theorem fits_of_accepted {doc : Document} {settings : Settings} (h : Settings.ofDocument registry doc = .ok settings)
    (hc : c.options = settings.optionsOf registry) : Fits c := by
  intro r hr name default hdefault
  have hholds := Registry.holds_ofRules ofRules_rules
  obtain ⟨value, hvalue, hfits⟩ := (fitsOptions_of_accepted h (hholds.get?_of_mem hr)).values name default hdefault
  refine ⟨value, ?_, ?_⟩
  · rw [Context.option?, hc, hholds.get?_optionsOf settings hr]
    exact hvalue
  · rcases hfits with rfl | haccepts
    · exact default_accepted hr hdefault
    · exact haccepts

end Catalog

namespace Analysis

open Catalog (Fits)

/-- A notice that tells of a fault. -/
inductive TellsOf (fault : Fault) : Notice → Prop where
  | rule (rule kind path : String) (span : Span) : TellsOf fault (.ruleFault rule kind path span fault)
  | file (path : String) : TellsOf fault (.fileFault path fault)

/-- All notices tell of faults that satisfy `p`, and without a notice no diagnostic is about a failure of the
program. -/
structure Result.FailsBy (p : Fault → Prop) (x : Result) : Prop where
  notices : ∀ n ∈ x.notices, ∃ fault, TellsOf fault n ∧ p fault
  diagnostics : x.notices = [] → ∀ d ∈ x.diagnostics, d.ruleId ≠ EngineRule.internalError.id

variable {p : Fault → Prop} {x y : Result}

theorem Result.FailsBy.append (hx : x.FailsBy p) (hy : y.FailsBy p) : (x.append y).FailsBy p where
  notices n hn := (mem_append.1 hn).elim (hx.notices n) (hy.notices n)
  diagnostics hnone d hd :=
    have hnone := append_eq_nil_iff.1 hnone
    (mem_append.1 hd).elim (hx.diagnostics hnone.1 d) (hy.diagnostics hnone.2 d)

theorem Result.FailsBy.notices_eq (hx : x.FailsBy p) (hp : ∀ fault, ¬p fault) : x.notices = [] := by
  refine eq_nil_iff_forall_not_mem.2 fun n hn => ?_
  obtain ⟨fault, -, hfault⟩ := hx.notices n hn
  exact hp fault hfault

theorem failsBy_foldl {α : Type} {f : α → Result} {xs : List α} (h : ∀ x ∈ xs, (f x).FailsBy p) {start : Result}
    (hstart : start.FailsBy p) : (xs.foldl (fun acc x => acc.append (f x)) start).FailsBy p := by
  induction xs generalizing start with
  | nil => exact hstart
  | cons x rest ih =>
    exact ih (fun y hy => h y (mem_cons_of_mem _ hy)) (hstart.append (h x mem_cons_self))

theorem failsBy_empty : ({} : Result).FailsBy p := ⟨by simp, by simp⟩

theorem failsBy_fileFault (settings : Settings) (path : String) {fault : Fault} (h : p fault) :
    (fileFault settings path fault).FailsBy p where
  notices n hn := ⟨fault, by rw [mem_singleton.1 hn]; exact .file path, h⟩
  diagnostics hnone := absurd hnone (cons_ne_nil _ _)

theorem report_fault (settings : Settings) (path : String) {findings : List Finding}
    (h : ∀ f ∈ findings, ∃ message, r.render f = .ok message) : (report settings path r findings).2 = none := by
  induction findings with
  | nil => rfl
  | cons f rest ih =>
    obtain ⟨message, hmessage⟩ := h f mem_cons_self
    rw [report, hmessage]
    exact ih fun g hg => h g (mem_cons_of_mem _ hg)

/-- A rule fails with a fault of its check and in no other way, if all its findings can be told. -/
theorem failsBy_runRule {rule : Rule} (settings : Settings) (file : SourceFile)
    (hid : EngineRule.has rule.id = false)
    (hrender : ∀ f ∈ (rule.check file sight).findings, ∃ message, rule.render f = .ok message)
    (hfault : ∀ fault ∈ (rule.check file sight).fault, p fault) : (runRule settings file sight rule).FailsBy p := by
  have hown : Result.FailsBy p { diagnostics :=
    (report settings file.path rule (rule.check file sight).findings).1 } := by
    refine ⟨by simp, fun _ d hd heq => ?_⟩
    rw [← ruleId_of_mem_report hd, heq] at hid
    cases hid
  simp only [runRule, report_fault settings file.path hrender, Option.none_or]
  cases hcheck : (rule.check file sight).fault with
  | none => exact hown
  | some fault =>
    refine hown.append ⟨fun n hn => ⟨fault, ?_, hfault fault hcheck⟩, fun hnone => absurd hnone (cons_ne_nil _ _)⟩
    rw [mem_singleton.1 hn]
    exact .rule ..

/-- On a stack, a rule that comes with the program gives diagnostics of its own and nothing else, or overflows. -/
theorem failsBy_limit {stack : Stack} {text : String} (settings : Settings) (file : SourceFile)
    (hr : r ∈ Catalog.rules) (h : Fits sight.context) (hoverflow : stack.checks text r sight ≠ none → p stack.fault) :
    (runRule settings file sight (stack.limit text r)).FailsBy p := by
  have hid := (Registry.holds_ofRules ofRules_rules).notEngine r hr
  cases hchecks : stack.checks text r sight with
  | none =>
    refine failsBy_runRule settings file hid (fun f hf => ?_) fun fault hfault => ?_
    · simp only [Stack.limit, hchecks] at hf
      exact exists_message hr file sight hf
    · simp only [Stack.limit, hchecks, fault_eq_none hr file sight h] at hfault
      cases hfault
  | some n =>
    -- what was found before the overflow is told as well
    refine failsBy_runRule settings file hid (fun f hf => ?_) fun fault hfault => ?_
    · simp only [Stack.limit, hchecks] at hf
      exact exists_message hr file sight (mem_of_mem_take hf)
    · simp only [Stack.limit, hchecks, Option.mem_some] at hfault
      exact hfault ▸ hoverflow (by simp [hchecks])

theorem failsBy_checkWithin {stack : Stack} {reg : Registry} {settings : Settings} {file : SourceFile} {text : String}
    (hvisits : ∀ v ∈ visits reg settings file, (runRule settings file v.1 (stack.limit text v.2)).FailsBy p)
    (hwalks : stack.walks text ≠ none → p stack.fault) : (checkWithin stack reg settings file text).FailsBy p := by
  rw [checkWithin]
  cases hn : stack.walks text with
  | none => exact failsBy_foldl hvisits failsBy_empty
  | some n =>
    have hfault := failsBy_fileFault settings file.path (hwalks (by simp [hn]))
    exact (failsBy_foldl (fun v hv => hvisits v (mem_of_mem_take hv)) failsBy_empty).append hfault

theorem failsBy_issues (settings : Settings) (path : String) (issues : List Issue) :
    Result.FailsBy p { diagnostics := issueDiagnostics settings path issues } := by
  refine ⟨by simp, fun _ d hd => ?_⟩
  obtain ⟨i, -, hi⟩ := mem_filterMap.1 hd
  rw [engineDiagnostic?] at hi
  split at hi
  · obtain rfl := Option.some.inj hi
    show EngineRule.syntaxError.id ≠ EngineRule.internalError.id
    decide
  · cases hi

/-! ### A stack that suffices -/

/-- The stack is deep enough for a text and for what the rules that come with the program do with it. -/
structure Suffices (stack : Stack) (text : String) : Prop where
  reads : stack.reads text = true
  walks : stack.walks text = none
  checks : ∀ r ∈ Catalog.rules, ∀ sight, stack.checks text r sight = none

theorem foldl_append_eq {α : Type} (f : α → Result) (xs : List α) (start : Result) :
    xs.foldl (fun acc x => acc.append (f x)) start = start.append (xs.foldl (fun acc x => acc.append (f x)) {}) := by
  induction xs generalizing start with
  | nil => simp [Result.append]
  | cons x rest ih =>
    rw [foldl_cons, foldl_cons, ih, ih (Result.append {} _)]
    simp [Result.append]

/-- A file is checked by visiting its nodes with the rules in turn. -/
theorem check_eq_foldl_visits (reg : Registry) (settings : Settings) (file : SourceFile) :
    check reg settings file =
      (visits reg settings file).foldl (fun acc v => acc.append (runRule settings file v.1 v.2)) {} := by
  rw [check, visits, foldl_flatMap, foldl_filter]
  congr 1
  funext acc s
  rw [dispatch]
  split
  · rw [foldl_map, foldl_append_eq _ _ acc]
  · simp [Result.append]

theorem mem_rules_of_mem_visits {settings : Settings} {file : SourceFile} {v : Sight × Rule}
    (hv : v ∈ visits Catalog.registry settings file) :
    v.1 ∈ sights Catalog.registry settings file ∧ v.2 ∈ Catalog.rules := by
  obtain ⟨s, hs, hv⟩ := mem_flatMap.1 hv
  obtain ⟨r, hr, rfl⟩ := mem_map.1 hv
  exact ⟨(mem_filter.1 hs).1, (Registry.holds_ofRules ofRules_rules).mem_of_mem_forKind (mem_filter.1 hr).1⟩

theorem limit_eq {stack : Stack} {text : String} (h : ∀ sight, stack.checks text r sight = none) :
    stack.limit text r = r := by
  have hcheck : (stack.limit text r).check = r.check := by
    funext file sight
    simp only [Stack.limit, h sight]
  calc stack.limit text r = { r with check := (stack.limit text r).check } := rfl
    _ = r := by rw [hcheck]

/-- **On a stack that suffices a text is analysed as if there were no limit.** -/
theorem within_eq_ofText {stack : Stack} (settings : Settings) (path : String) {text : String}
    (h : Suffices stack text) :
    within stack Catalog.registry settings path text = ofText Catalog.registry settings path text := by
  rw [within, ofText, Stack.read, if_pos h.reads]
  cases SourceFile.ofText path text with
  | error o => rfl
  | ok found =>
    simp only [Except.mapError, checkWithin, h.walks, check_eq_foldl_visits]
    congr 1
    refine foldl_ext _ _ _ fun acc v hv => ?_
    rw [limit_eq (h.checks v.2 (mem_rules_of_mem_visits hv).2)]

end Analysis

end AlLint
