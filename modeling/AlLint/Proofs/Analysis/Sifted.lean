import AlLint.Proofs.Analysis.Visits
import AlLint.Proofs.Reading.Arguments

/-!
# Nothing is dropped without an issue

Of the elements of an object that stand for something, each is kept as one part of the declaration, in the order
of the source, or it does not say enough, and is dropped with one issue at its place.
-/

namespace AlLint

open List

variable {es : List Element} {drops : List Issue}

/-- Whether it says that an element was dropped. -/
def Complaint.isDrop : Complaint → Bool
  | .incompleteField | .namelessModification | .namelessKey | .emptyKey _ | .incompleteEnumValue | .namelessPageField
  | .namelessAction => true
  | _ => false

namespace Declaration

/-! ## What elements have to say -/

def KeepsField (e : Element) (f : Field) : Prop :=
  f.span = e.span ∧ f.type.isSome ∧ ∃ id name type more, e.args = id :: name :: type :: more ∧ type ≠ [] ∧
    (∃ n, number? id = .ok (some n) ∧ f.fieldId = some n) ∧ name? name = some f.name

def KeepsNamed {α : Type} (name : α → String) (span : α → Span) (e : Element) (a : α) : Prop :=
  span a = e.span ∧ name? (e.args.headD []) = some (name a)

def KeepsPart (e : Element) : Field ⊕ Field → Prop
  | .inl f => e.keyword = "field" ∧ KeepsField e f
  | .inr f => e.keyword = "modify" ∧ KeepsNamed Field.name Field.span e f

def KeepsKey (e : Element) (k : TableKey) : Prop :=
  KeepsNamed TableKey.name TableKey.span e k ∧ k.fields ≠ [] ∧
    k.fields.length = (commaParts (e.args.getD 1 [])).length

def KeepsValue (e : Element) (v : EnumValue) : Prop :=
  v.span = e.span ∧ number? (e.args.headD []) = .ok (some v.ordinal) ∧ name? (e.args.getD 1 []) = some v.name

/-- Each of the elements is kept as one part, or there is nothing that it could be kept as and there is one
issue at its place. Parts and issues are in the order of the elements. -/
inductive Sifted {α : Type} (keeps : Element → α → Prop) : List Element → List α → List Issue → Prop where
  | nil : Sifted keeps [] [] []
  | keep {e : Element} {a : α} {es : List Element} {parts : List α} {drops : List Issue} :
      keeps e a → Sifted keeps es parts drops → Sifted keeps (e :: es) (a :: parts) drops
  | drop {e : Element} {complaint : Complaint} {es : List Element} {parts : List α} {drops : List Issue} :
      (∀ a, ¬keeps e a) → Sifted keeps es parts drops → Sifted keeps (e :: es) parts (⟨complaint, e.span⟩ :: drops)

/-- How the contents of an object come from its elements, with the issues about those that were dropped. -/
inductive Filled (e : Element) : Contents → List Issue → Prop where
  | table {parts : List (Field ⊕ Field)} {keys : List TableKey} {drops keyDrops : List Issue} :
      e.keyword = "table" ∨ e.keyword = "tableextension" →
      Sifted KeepsPart ((inSections "fields" e).filter fun x => x.keyword == "field" || x.keyword == "modify")
        parts drops →
      Sifted KeepsKey ((inSections "keys" e).filter (·.keyword == "key")) keys keyDrops →
      Filled e (.table (parts.filterMap Sum.getLeft?) keys (parts.filterMap Sum.getRight?)) (drops ++ keyDrops)
  | page {fields : List PageField} {actions : List PageAction} {drops actionDrops : List Issue} :
      e.keyword = "page" ∨ e.keyword = "pageextension" →
      Sifted (KeepsNamed PageField.name PageField.span) (belowSections "layout" "field" e) fields drops →
      Sifted (KeepsNamed PageAction.name PageAction.span) (belowSections "actions" "action" e) actions actionDrops →
      Filled e (.page fields actions) (drops ++ actionDrops)
  | enumeration {values : List EnumValue} {drops : List Issue} : e.keyword = "enum" ∨ e.keyword = "enumextension" →
      Sifted KeepsValue (e.children.filter (·.keyword == "value")) values drops → Filled e (.enumeration values) drops
  | processUnit : e.keyword = "codeunit" → Filled e .processUnit []

/-! ## One element -/

/-- What becomes of one element. -/
inductive Settles {α : Type} (keeps : Element → α → Prop) (e : Element) : Built α → Prop where
  | keep {a : α} {issues : List Issue} : keeps e a → (issues.filter (·.complaint.isDrop) = []) →
      Settles keeps e ⟨some a, issues⟩
  | drop {complaint : Complaint} : (∀ a, ¬keeps e a) → complaint.isDrop = true →
      Settles keeps e (.drop complaint e.span)

theorem misplaced_no_drop (owner : String) (codes : List CodeMember) :
    (misplaced owner codes).filter (·.complaint.isDrop) = [] := by
  rw [misplaced, filter_map, map_eq_nil_iff, filter_eq_nil_iff]
  exact fun _ _ => Bool.false_ne_true

theorem settles_field {inp : Reading.Input} {e : Element} {b : Built Field} (h : field inp e = .ok b) :
    Settles KeepsField e b := by
  unfold field at h
  split at h
  · next id name first rest more hargs =>
    obtain ⟨n, hn, h⟩ := exists_of_bind_eq_ok h
    split at h
    · next n name' hname =>
      obtain rfl := Except.ok.inj h
      exact .keep ⟨rfl, rfl, _, _, _, _, hargs, by simp, ⟨_, hn, rfl⟩, hname⟩ (misplaced_no_drop _ _)
    · next hnone =>
      obtain rfl := Except.ok.inj h
      refine .drop ?_ rfl
      rintro f ⟨-, -, id', name', _, _, hargs', -, ⟨m, hm, -⟩, hname⟩
      rw [hargs] at hargs'
      obtain ⟨rfl, rfl, -⟩ : id = id' ∧ name = name' ∧ _ := by simpa using hargs'
      rw [hn] at hm
      exact hnone m f.name (Except.ok.inj hm) hname
  · next hargs =>
    obtain rfl := Except.ok.inj h
    refine .drop ?_ rfl
    rintro f ⟨-, -, id, name, type, more, hargs', htype, -⟩
    obtain ⟨first, rest, rfl⟩ := exists_cons_of_ne_nil htype
    exact hargs _ _ _ _ _ hargs'

section

variable {inp : Reading.Input} {e : Element}

theorem settles_named {α : Type} {name : α → String} {span : α → Span} {b : Built α} {complaint : Complaint}
    (hdrop : complaint.isDrop = true) (hnone : name? (e.args.headD []) = none → b = .drop complaint e.span)
    (hsome : ∀ n, name? (e.args.headD []) = some n →
      ∃ a, name a = n ∧ span a = e.span ∧ b = ⟨some a, misplaced n e.codes⟩) :
    Settles (KeepsNamed name span) e b := by
  cases h : name? (e.args.headD []) with
  | none =>
    rw [hnone h]
    refine .drop (fun a ha => ?_) hdrop
    rw [ha.2] at h
    cases h
  | some n =>
    obtain ⟨a, rfl, hspan, rfl⟩ := hsome n h
    exact .keep ⟨hspan, h⟩ (misplaced_no_drop _ _)

theorem settles_modification : Settles (KeepsNamed Field.name Field.span) e (modification e) :=
  settles_named rfl (fun h => by rw [modification, h]) fun n h => ⟨_, rfl, rfl, by rw [modification, h]⟩

theorem settles_pageField : Settles (KeepsNamed PageField.name PageField.span) e (pageField inp e) :=
  settles_named rfl (fun h => by rw [pageField, h]) fun n h => ⟨_, rfl, rfl, by rw [pageField, h]⟩

theorem settles_pageAction : Settles (KeepsNamed PageAction.name PageAction.span) e (pageAction e) :=
  settles_named rfl (fun h => by rw [pageAction, h]) fun n h => ⟨_, rfl, rfl, by rw [pageAction, h]⟩

theorem settles_key : Settles KeepsKey e (key inp e) := by
  unfold key
  split
  · next hname =>
    refine .drop (fun k hk => ?_) rfl
    rw [hk.1.2] at hname
    cases hname
  · next name hname =>
    split
    · next hfields =>
      refine .drop (fun k hk => hk.2.1 (eq_nil_of_length_eq_zero ?_)) rfl
      rw [hk.2.2, map_eq_nil_iff.1 hfields, length_nil]
    · next fields hfields =>
      exact .keep ⟨⟨rfl, hname⟩, hfields, length_map _⟩ rfl

theorem settles_enumValue {b : Built EnumValue} (h : enumValue e = .ok b) : Settles KeepsValue e b := by
  obtain ⟨n, hn, h⟩ := exists_of_bind_eq_ok h
  split at h
  · next name hname =>
    obtain rfl := Except.ok.inj h
    exact .keep ⟨rfl, hn, hname⟩ rfl
  · next hnone =>
    obtain rfl := Except.ok.inj h
    refine .drop (fun v hv => ?_) rfl
    rw [hv.2.1] at hn
    exact hnone _ _ (Except.ok.inj hn).symm hv.2.2

theorem Settles.map {α β : Type} {keeps : Element → α → Prop} {keeps' : Element → β → Prop} {b : Built α} {f : α → β}
    (h : Settles keeps e b) (hf : ∀ a, keeps e a → keeps' e (f a)) (hkeeps : ∀ a', keeps' e a' → ∃ a, keeps e a) :
    Settles keeps' e (b.map f) := by
  cases h with
  | keep ha hissues => exact .keep (hf _ ha) hissues
  | drop hnone hdrop => exact .drop (fun a' ha' => (hkeeps a' ha').elim hnone) hdrop

theorem settles_fieldOrChange {b : Built (Field ⊕ Field)} (h : fieldOrChange inp e = .ok b) :
    if e.keyword == "field" || e.keyword == "modify" then Settles KeepsPart e b else b = ⟨none, []⟩ := by
  unfold fieldOrChange at h
  split at h
  · next hkeyword =>
    obtain ⟨made, hmade, rfl⟩ := exists_of_map_eq_ok h
    rw [if_pos (by simp [hkeyword])]
    refine (settles_field hmade).map (fun f hf => ⟨hkeyword, hf⟩) fun part hpart => ?_
    cases part with
    | inl f => exact ⟨f, hpart.2⟩
    | inr f => exact absurd (hkeyword.symm.trans hpart.1) (by decide)
  · next hkeyword =>
    obtain rfl := Except.ok.inj h
    rw [if_pos (by simp [hkeyword])]
    refine settles_modification.map (fun f hf => ⟨hkeyword, hf⟩) fun part hpart => ?_
    cases part with
    | inl f => exact absurd (hkeyword.symm.trans hpart.1) (by decide)
    | inr f => exact ⟨f, hpart.2⟩
  · next hfield hmodify =>
    obtain rfl := Except.ok.inj h
    rw [if_neg (by simpa using ⟨hfield, hmodify⟩)]

end

/-! ## All elements -/

theorem sifted_collect {α : Type} {keeps : Element → α → Prop} {seat : Element → Bool} {es : List Element}
    {bs : List (Built α)}
    (h : List.Forall₂ (fun e b => if seat e then Settles keeps e b else b = ⟨none, []⟩) es bs) :
    Sifted keeps (es.filter seat) (collect bs).1 ((collect bs).2.filter (·.complaint.isDrop)) := by
  induction h with
  | nil => exact .nil
  | @cons e b es bs hb _ ih =>
    rw [collect, filter_append]
    cases hseat : seat e with
    | false =>
      rw [filter_cons_of_neg (by simp [hseat])]
      rw [if_neg (by simp [hseat])] at hb
      subst hb
      exact ih
    | true =>
      rw [filter_cons_of_pos hseat]
      rw [if_pos hseat] at hb
      cases hb with
      | keep ha hissues => rw [hissues]; exact .keep ha ih
      | @drop complaint hnone hdrop =>
        have hissue : (Built.drop complaint e.span : Built α).issues.filter (·.complaint.isDrop) =
          [⟨complaint, e.span⟩] := by
          simp [Built.drop, hdrop]
        rw [hissue]
        exact .drop hnone ih

theorem sifted_all {α : Type} {keeps : Element → α → Prop} {bs : List (Built α)}
    (h : List.Forall₂ (Settles keeps) es bs) :
    Sifted keeps es (collect bs).1 ((collect bs).2.filter (·.complaint.isDrop)) := by
  have hsifted := @sifted_collect α keeps (fun _ => true) es bs (h.imp fun _ _ hb => hb)
  rwa [filter_true] at hsifted

theorem sifted_map {α : Type} {keeps : Element → α → Prop} {f : Element → Built α} (h : ∀ e, Settles keeps e (f e))
    (es : List Element) : Sifted keeps es (collect (es.map f)).1
    ((collect (es.map f)).2.filter (·.complaint.isDrop)) :=
  sifted_all (forall₂_map_right_iff.2 (forall₂_same.2 fun e _ => h e))

theorem filled_of_contents {inp : Reading.Input} {e : Element} {contents : Contents} {issues : List Issue}
    (h : contents? inp e = .ok (some (contents, issues))) :
    Filled e contents (issues.filter (·.complaint.isDrop)) := by
  rcases contents_cases h with ⟨htype, h⟩ | ⟨htype, h⟩ | ⟨htype, h⟩ | ⟨htype, h⟩
  · obtain ⟨built, hbuilt, h⟩ := exists_of_bind_eq_ok h
    obtain ⟨rfl, rfl⟩ := Prod.mk.inj (Except.ok.inj h)
    rw [filter_append]
    exact .table htype (sifted_collect ((forall₂_of_mapM hbuilt).imp fun _ _ hb => settles_fieldOrChange hb))
      (sifted_map (fun _ => settles_key) _)
  · obtain ⟨rfl, rfl⟩ := Prod.mk.inj h
    rw [filter_append]
    exact .page htype (sifted_map (fun _ => settles_pageField) _) (sifted_map (fun _ => settles_pageAction) _)
  · obtain ⟨built, hbuilt, h⟩ := exists_of_bind_eq_ok h
    obtain ⟨rfl, rfl⟩ := Prod.mk.inj (Except.ok.inj h)
    exact .enumeration htype (sifted_all ((forall₂_of_mapM hbuilt).imp fun _ _ hb => settles_enumValue hb))
  · obtain ⟨rfl, rfl⟩ := Prod.mk.inj h
    exact .processUnit htype

/-- Every field of a table has a number and a type besides its name, and every key has fields. -/
def Complete : Contents → Prop
  | .table fields keys _ => (∀ f ∈ fields, f.fieldId.isSome ∧ f.type.isSome) ∧ ∀ k ∈ keys, k.fields ≠ []
  | _ => True

theorem Sifted.exists_of_mem {α : Type} {keeps : Element → α → Prop} {parts : List α}
    (h : Sifted keeps es parts drops) {a : α} (ha : a ∈ parts) : ∃ e, keeps e a := by
  induction h with
  | nil => cases ha
  | keep hkeep _ ih =>
    rcases mem_cons.1 ha with rfl | ha
    · exact ⟨_, hkeep⟩
    · exact ih ha
  | drop _ _ ih => exact ih ha

theorem Filled.complete {e : Element} {contents : Contents} (h : Filled e contents drops) :
    Complete contents := by
  cases h with
  | table _ hparts hkeys =>
    refine ⟨fun f hf => ?_, fun k hk => ?_⟩
    · obtain ⟨part, hpart, hleft⟩ := mem_filterMap.1 hf
      obtain ⟨x, hx⟩ := hparts.exists_of_mem hpart
      cases part with
      | inl g =>
        obtain rfl := Option.some.inj hleft
        obtain ⟨-, -, htype, -, -, -, -, -, -, ⟨n, -, hn⟩, -⟩ := hx
        exact ⟨by rw [hn]; rfl, htype⟩
      | inr g => cases hleft
    · obtain ⟨x, hx⟩ := hkeys.exists_of_mem hk
      exact hx.2.1
  | page | enumeration | processUnit => trivial

theorem Filled.declared {e : Element} {contents : Contents} (h : Filled e contents drops) :
    e.keyword ∈ declaredTypes := by
  cases h with
  | table h | page h | enumeration h => rcases h with h | h <;> rw [h] <;> decide
  | processUnit h => rw [h]; decide

theorem inside_of_mem_below {e x : Element} (h : x ∈ below e) : Inside e x := by
  induction e using Element.induct with
  | step e ih =>
    rw [below_eq] at h
    obtain ⟨child, hchild, hx⟩ := mem_flatMap.1 h
    rcases mem_cons.1 hx with rfl | hx
    · exact .child hchild
    · exact .deeper hchild (ih child hchild hx)

end Declaration

open Declaration

/-- What a file says about a text: a declaration for every object of a known type, with everything in it that
the elements of the object say, and an issue about every element that says too little. -/
structure Accounts (text : String) (tree : SyntaxTree) (file : SourceFile) (issues : List Issue)
    (built : List (Built Declaration)) :
    Prop where
  read : SyntaxTree.ofText text = .ok tree
  declarations : file.declarations = built.flatMap (·.value.toList)
  issues : issues = tree.issues ++ built.flatMap Built.issues
  filled : List.Forall₂ (fun o b => if o.body.keyword ∈ declaredTypes then
      ∃ d, b.value = some d ∧ d.span = o.body.span ∧ Filled o.body d.contents (b.issues.filter (·.complaint.isDrop))
    else b = ⟨none, []⟩) tree.objects built
  complete : ∀ d ∈ file.declarations, Complete d.contents

/-- A text without overlong numbers is built, and of every text that is built each element is kept or reported,
however deep it is. -/
theorem elements_kept_or_reported (path text : String) :
    ((∀ t ∈ (Scan.ofText text).tokens, t.kind = .number → t.digits ≤ maxDigits) →
      ∃ file issues, SourceFile.ofText path text = .ok (file, issues)) ∧
    (∀ file issues, SourceFile.ofText path text = .ok (file, issues) →
      ∃ tree built, Accounts text tree file issues built) ∧
    ∀ e x, x ∈ below e ↔ Inside e x := by
  refine ⟨fun h => SourceFile.exists_ofText h path, fun file issues hfile => ?_,
    fun e x => ⟨inside_of_mem_below, mem_below_of_inside⟩⟩
  obtain ⟨tree, htree, hfile⟩ := exists_of_bind_eq_ok hfile
  obtain ⟨built, hbuilt, hfile⟩ := exists_of_bind_eq_ok hfile
  obtain ⟨rfl, rfl⟩ := Prod.mk.inj (Except.ok.inj hfile)
  refine ⟨tree, built, htree, by rw [collect_eq], by rw [collect_eq], ?_, ?_⟩
  · refine (forall₂_of_mapM hbuilt).imp fun o b hb => ?_
    obtain ⟨made, hmade, hb⟩ := exists_of_bind_eq_ok hb
    cases made with
    | none =>
      rw [if_neg (not_declared hmade)]
      exact (Except.ok.inj hb).symm
    | some made =>
      obtain rfl := Except.ok.inj hb
      have hfilled := filled_of_contents hmade
      rw [if_pos hfilled.declared]
      exact ⟨_, rfl, rfl, hfilled⟩
  · intro d hd
    rw [collect_eq] at hd
    obtain ⟨b, hb, hd⟩ := mem_flatMap.1 hd
    obtain ⟨o, -, ho⟩ := exists_of_mem_mapM hbuilt hb
    exact (filled_of_contents (ofObject_eq_ok ho (Option.mem_toList.1 hd)).1).complete

theorem elements_kept_or_reported_sample :
    let text := "table 1 A \x7b fields \x7b field(1; B; Code) \x7b \x7d field(C) \x7b \x7d \x7d \x7d"
    ∃ file issues tree built, SourceFile.ofText "a.al" text = .ok (file, issues) ∧
      Accounts text tree file issues built := by
  intro text
  obtain ⟨hbuilt, haccounts, -⟩ := elements_kept_or_reported "a.al" text
  obtain ⟨file, issues, hfile⟩ := hbuilt (by decide +kernel)
  obtain ⟨tree, built, h⟩ := haccounts file issues hfile
  exact ⟨file, issues, tree, built, hfile, h⟩

end AlLint
