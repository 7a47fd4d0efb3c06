import AlLint.Proofs.Reading.Nested
import AlLint.Proofs.Reading.Starts

/-!
# The routines of a declaration

A declaration has code in its own triggers and procedures, and in the triggers of fields, changes of fields,
controls and actions. `Declaration.routines` lists them all, with their places. Not all code of an object is in
the list: of two triggers of one name the last one counts, elements that do not say enough are dropped, and so
are procedures inside elements. But no code is in it twice: as code does not overlap in the text, no two
routines of a file start at one place (`nodup_routines`), and no two calls of plain names in them do
(`nodup_starts`).
-/

namespace AlLint

open List Outline

variable {inp : Reading.Input} {es : List Element} {issues : List Issue} {o : ObjectSyntax} {d : Declaration}
  {path : String}

/-- A routine with its place and the name of the field, control or action that it belongs to. -/
structure PlacedRoutine where
  place : Place
  owner : Option String
  routine : Routine

/-- The nodes of the calls of plain names in some routines. -/
def PlacedRoutine.callNodes (rs : List PlacedRoutine) : List Outline :=
  rs.flatMap fun r => Stmt.callNodes r.routine.body

/-- Where a routine stands, and what it does. -/
def PlacedRoutine.written (r : PlacedRoutine) : Span × List Stmt := ((Node.routine r.routine).span, r.routine.body)

/-- Where code stands, and what it does. -/
def CodeMember.written (c : CodeMember) : Span × List Stmt := (c.span, c.body)

namespace Declaration

def triggerRoutines (place : Place) (owner : Option String) (triggers : Triggers) : List PlacedRoutine :=
  triggers.values.map fun t => ⟨place, owner, .trigger t⟩

/-- The routines in what is particular to a kind of declaration. -/
def contentRoutines : Contents → List PlacedRoutine
  | .table fields _ modifications =>
    (fields ++ modifications).flatMap fun f => triggerRoutines .fieldTrigger (some f.name) f.triggers
  | .processUnit => []
  | .page fields actions =>
    fields.flatMap (fun f => triggerRoutines .controlTrigger (some f.name) f.triggers) ++
      actions.flatMap fun a => triggerRoutines .actionTrigger (some a.name) a.triggers
  | .enumeration _ => []

/-- The routines of a declaration, in the order in which they are analysed. -/
def routines (d : Declaration) : List PlacedRoutine :=
  contentRoutines d.contents ++ triggerRoutines .trigger none d.triggers ++
    d.procedures.map fun p => ⟨.procedure, none, .procedure p⟩

/-- All code in an element: its own, and that of the elements below it. -/
def allCodes (e : Element) : List CodeMember := (e :: below e).flatMap Element.codes

end Declaration

/-! ## Triggers -/

theorem Keyed.values_insert_subperm {α : Type} (entries : Keyed α) (key : String) (value : α) :
    (entries.insert key value).values.Subperm (entries.values ++ [value]) := by
  induction entries with
  | nil => exact .refl _
  | cons e rest ih =>
    rw [insert]
    split
    · -- the old value is gone
      have hcons : (value :: values rest).Perm (values rest ++ [value]) := (perm_append_singleton ..).symm
      exact hcons.subperm.trans (sublist_cons_self ..).subperm
    · exact (subperm_cons _).2 ih

theorem Keyed.values_ofList_subperm {α : Type} (entries : List (String × α)) :
    (ofList entries).values.Subperm (entries.map Prod.snd) := by
  have hall : ∀ (more : List (String × α)) (start : Keyed α),
      (start.insertAll more).values.Subperm (start.values ++ more.map Prod.snd) := by
    intro more
    induction more with
    | nil => intro start; rw [map_nil, append_nil]; exact .refl _
    | cons e more ih =>
      intro start
      have hrest := (ih (start.insert e.1 e.2)).trans
        ((values_insert_subperm start e.1 e.2).append (List.Subperm.refl (more.map Prod.snd)))
      rwa [append_assoc, singleton_append] at hrest
  exact hall entries []

namespace Declaration

open Outline

theorem written_triggers_subperm (place : Place) (owner owner' : Option String) (codes : List CodeMember) :
    ((triggerRoutines place owner (triggersOf owner' codes)).map PlacedRoutine.written).Subperm
      ((codes.filter (·.kind == .trigger)).map CodeMember.written) := by
  have hvalues := Keyed.values_ofList_subperm
    ((codes.filter (·.kind == .trigger)).map fun c => (Text.lower c.name, trigger owner' c))
  rw [map_map] at hvalues
  have hwritten := subperm_map hvalues fun t => PlacedRoutine.written ⟨place, owner, .trigger t⟩
  rw [map_map] at hwritten
  rw [triggerRoutines, map_map]
  exact hwritten

/-! ## What is kept of some elements -/

/-- What becomes of an element with code in it: it is dropped with an issue, or its triggers are kept and there
is an issue with every procedure. -/
inductive Hosts {α : Type} (name : α → String) (triggers : α → Triggers) (e : Element) : Built α → Prop where
  | drop (complaint : Complaint) : Hosts name triggers e (.drop complaint e.span)
  | keep (a : α) : triggers a = triggersOf (some (name a)) e.codes →
      Hosts name triggers e ⟨some a, misplaced (name a) e.codes⟩

section Hosts

variable {α β : Type} {name : α → String} {triggers : α → Triggers} {e : Element} {b : Built α}

theorem Hosts.map {name' : β → String} {triggers' : β → Triggers} {f : α → β} (h : Hosts name triggers e b)
    (hname : ∀ a, name' (f a) = name a) (htriggers : ∀ a, triggers' (f a) = triggers a) :
    Hosts name' triggers' e (b.map f) := by
  cases h with
  | drop complaint => exact .drop complaint
  | keep a ha =>
    have hkeep := @Hosts.keep _ name' triggers' e (f a) (by rw [hname, htriggers, ha])
    rwa [hname] at hkeep

theorem Hosts.triggers_eq (h : Hosts name triggers e b) {a : α} (ha : a ∈ b.value) :
    triggers a = triggersOf (some (name a)) e.codes := by
  cases h with
  | drop complaint => cases ha
  | keep a' ha' =>
    obtain rfl := Option.some.inj ha
    exact ha'

end Hosts

theorem hosts_field {e : Element} {b : Built Field} (h : field inp e = .ok b) :
    Hosts Field.name Field.triggers e b := by
  unfold field at h
  split at h
  · obtain ⟨id, -, h⟩ := exists_of_bind_eq_ok h
    split at h
    · obtain rfl := Except.ok.inj h
      exact .keep _ rfl
    · obtain rfl := Except.ok.inj h
      exact .drop _
  · obtain rfl := Except.ok.inj h
    exact .drop _

theorem hosts_modification (e : Element) : Hosts Field.name Field.triggers e (modification e) := by
  unfold modification
  split
  · exact .drop _
  · exact .keep _ rfl

theorem hosts_pageField (inp : Reading.Input) (e : Element) :
    Hosts PageField.name PageField.triggers e (pageField inp e) := by
  unfold pageField
  split
  · exact .drop _
  · exact .keep _ rfl

theorem hosts_pageAction (e : Element) : Hosts PageAction.name PageAction.triggers e (pageAction e) := by
  unfold pageAction
  split
  · exact .drop _
  · exact .keep _ rfl

/-- In a section of fields, elements other than fields and changes of fields are passed over. -/
theorem hosts_fieldOrChange {e : Element} {b : Built (Field ⊕ Field)} (h : fieldOrChange inp e = .ok b) :
    Hosts (fun x => (x.elim id id).name) (fun x => (x.elim id id).triggers) e b ∨
      b = ⟨none, []⟩ ∧ e.keyword ≠ "field" ∧ e.keyword ≠ "modify" := by
  unfold fieldOrChange at h
  split at h
  · obtain ⟨made, hmade, rfl⟩ := exists_of_map_eq_ok h
    exact .inl ((hosts_field hmade).map (fun _ => rfl) fun _ => rfl)
  · obtain rfl := Except.ok.inj h
    exact .inl ((hosts_modification e).map (fun _ => rfl) fun _ => rfl)
  · next hfield hmodify =>
    obtain rfl := Except.ok.inj h
    exact .inr ⟨rfl, hfield, hmodify⟩

theorem collect_eq {α : Type} (bs : List (Built α)) :
    collect bs = (bs.flatMap fun b => b.value.toList, bs.flatMap Built.issues) := by
  induction bs with
  | nil => rfl
  | cons b bs ih => rw [collect, flatMap_cons, flatMap_cons, ih]

/-- If what is kept of each thing is among something that belongs to it, then so is all that is kept. -/
theorem collect_subperm {α β γ : Type} {f : α → List γ} {g : β → List γ} {xs : List β} {bs : List (Built α)}
    (h : List.Forall₂ (fun x b => ∀ a ∈ b.value, (f a).Subperm (g x)) xs bs) :
    ((collect bs).1.flatMap f).Subperm (xs.flatMap g) := by
  rw [collect_eq]
  induction h with
  | nil => exact .refl _
  | @cons x b xs bs hb _ ih =>
    rw [flatMap_cons, flatMap_append, flatMap_cons]
    refine List.Subperm.append ?_ ih
    cases hvalue : b.value with
    | none => exact nil_subperm
    | some a =>
      rw [Option.toList, flatMap_singleton]
      exact hb a hvalue

/-- The triggers of what is kept of some elements are among the code of the elements. -/
theorem collect_triggers_subperm {α : Type} {name : α → String} {triggers : α → Triggers}
    {bs : List (Built α)} (place : Place)
    (h : List.Forall₂ (fun e b => ∀ a ∈ b.value, triggers a = triggersOf (some (name a)) e.codes) es bs) :
    (((collect bs).1.flatMap fun a => triggerRoutines place (some (name a)) (triggers a)).map
      PlacedRoutine.written).Subperm
      ((es.flatMap Element.codes).map CodeMember.written) := by
  rw [map_flatMap, map_flatMap]
  refine collect_subperm (h.imp fun e b hb a ha => ?_)
  rw [hb a ha]
  exact (written_triggers_subperm place _ _ e.codes).trans (filter_sublist.map _).subperm

/-! ## Elements inside elements -/

theorem allBelow_eq (es : List Element) : allBelow es = es.flatMap fun e => e :: below e := by
  induction es with
  | nil => rw [allBelow, flatMap_nil]
  | cons e es ih => rw [allBelow, flatMap_cons, cons_append, ih]

theorem below_eq (e : Element) : below e = e.children.flatMap fun x => x :: below x := by
  obtain ⟨keyword, span, args, properties, children, codes, vars, doc⟩ := e
  rw [below, allBelow_eq]

theorem children_sublist_below (e : Element) : e.children.Sublist (below e) := by
  rw [below_eq]
  nth_rewrite 1 [← flatMap_singleton' e.children]
  exact List.Sublist.flatMap_right _ fun x _ => singleton_sublist.2 mem_cons_self

/-- The elements below some children of an element are below the element. -/
theorem below_sublist {e : Element} (h : es.Sublist e.children) : (es.flatMap below).Sublist (below e) := by
  rw [below_eq e]
  exact (List.Sublist.flatMap_right _ fun x _ => sublist_cons_self x (below x)).trans (h.flatMap _)

theorem inSections_sublist (keyword : String) (e : Element) : (inSections keyword e).Sublist (below e) :=
  (List.Sublist.flatMap_right _ fun x _ => children_sublist_below x).trans (below_sublist filter_sublist)

/-- Elements with one keyword and elements with another are different elements. -/
theorem two_keywords_subperm {k k' : String} (h : k ≠ k') (es : List Element) :
    (es.filter (·.keyword == k) ++ es.filter (·.keyword == k')).Subperm es := by
  have hrest : (es.filter (·.keyword == k')).Sublist (es.filter fun x => !(x.keyword == k)) := by
    refine monotone_filter_right es fun x hx => ?_
    rw [eq_of_beq hx]
    simpa using h.symm
  exact ((List.Subperm.refl _).append hrest.subperm).trans (filter_append_perm _ es).subperm

theorem belowSections_subperm (e : Element) :
    (belowSections "layout" "field" e ++ belowSections "actions" "action" e).Subperm (below e) := by
  have hsections := subperm_flatMap_right
    (two_keywords_subperm (show "layout" ≠ "actions" by decide) e.children) fun x => x :: below x
  have hbelow := (List.Sublist.flatMap_right _ fun x _ => sublist_cons_self x (below x)).subperm.trans hsections
  rw [← below_eq, flatMap_append] at hbelow
  exact (filter_sublist.append filter_sublist).subperm.trans hbelow

/-! ## Contents -/

/-- Fields and changes of fields, taken apart, are all there were. -/
theorem sides_perm {α : Type} (xs : List (α ⊕ α)) :
    (xs.filterMap Sum.getLeft? ++ xs.filterMap Sum.getRight?).Perm (xs.map (Sum.elim id id)) := by
  induction xs with
  | nil => exact .refl _
  | cons x xs ih =>
    cases x with
    | inl a => exact ih.cons a
    | inr b => exact perm_middle.trans (ih.cons b)

/-- The routines of a table are those of the parts that its sections of fields are made into. -/
theorem tableRoutines_perm (parts : List (Field ⊕ Field)) (keys : List TableKey) :
    (contentRoutines (.table (parts.filterMap Sum.getLeft?) keys (parts.filterMap Sum.getRight?))).Perm
      (parts.flatMap fun x => triggerRoutines .fieldTrigger (some (x.elim id id).name) (x.elim id id).triggers) := by
  have hperm := (sides_perm parts).flatMap_right fun f => triggerRoutines .fieldTrigger (some f.name) f.triggers
  rwa [flatMap_map] at hperm

theorem tableContents_subperm {e : Element} {contents : Contents}
    (h : tableContents inp e = .ok (contents, issues)) :
    ((contentRoutines contents).map PlacedRoutine.written).Subperm
      (((below e).flatMap Element.codes).map CodeMember.written) := by
  obtain ⟨built, hbuilt, h⟩ := exists_of_bind_eq_ok h
  obtain ⟨rfl, -⟩ := Prod.mk.inj (Except.ok.inj h)
  have hkept : List.Forall₂ (fun x b => ∀ part ∈ b.value, (part.elim id id : Field).triggers =
      triggersOf (some (part.elim id id : Field).name) x.codes) (inSections "fields" e) built := by
    refine (forall₂_of_mapM hbuilt).imp fun x b hb part hpart => ?_
    rcases hosts_fieldOrChange hb with hhosts | ⟨rfl, -⟩
    · exact hhosts.triggers_eq hpart
    · cases hpart
  refine ((tableRoutines_perm _ _).map _).subperm.trans ((collect_triggers_subperm .fieldTrigger hkept).trans ?_)
  exact subperm_map (((inSections_sublist "fields" e).flatMap _).subperm) _

theorem pageContents_subperm (inp : Reading.Input) (e : Element) :
    ((contentRoutines (pageContents inp e).1).map PlacedRoutine.written).Subperm
      (((below e).flatMap Element.codes).map CodeMember.written) := by
  have hfields := collect_triggers_subperm .controlTrigger (forall₂_map_right_iff.2
    (forall₂_same.2 fun x (_ : x ∈ belowSections "layout" "field" e) _ => (hosts_pageField inp x).triggers_eq))
  have hactions := collect_triggers_subperm .actionTrigger (forall₂_map_right_iff.2
    (forall₂_same.2 fun x (_ : x ∈ belowSections "actions" "action" e) _ => (hosts_pageAction x).triggers_eq))
  have hboth := hfields.append hactions
  rw [← map_append, ← map_append, ← flatMap_append] at hboth
  exact hboth.trans (subperm_map (subperm_flatMap_right (belowSections_subperm e) _) _)

theorem contents_cases {e : Element} {contents : Contents}
    (h : contents? inp e = .ok (some (contents, issues))) :
    (e.keyword = "table" ∨ e.keyword = "tableextension") ∧ tableContents inp e = .ok (contents, issues) ∨
    (e.keyword = "page" ∨ e.keyword = "pageextension") ∧ pageContents inp e = (contents, issues) ∨
    (e.keyword = "enum" ∨ e.keyword = "enumextension") ∧ enumContents e = .ok (contents, issues) ∨
    e.keyword = "codeunit" ∧ (.processUnit, []) = (contents, issues) := by
  unfold contents? at h
  split at h
  · obtain ⟨made, hmade, heq⟩ := exists_of_map_eq_ok h
    exact .inl ⟨.inl ‹_›, Option.some.inj heq ▸ hmade⟩
  · obtain ⟨made, hmade, heq⟩ := exists_of_map_eq_ok h
    exact .inl ⟨.inr ‹_›, Option.some.inj heq ▸ hmade⟩
  · exact .inr (.inr (.inr ⟨‹_›, Option.some.inj (Except.ok.inj h)⟩))
  · exact .inr (.inl ⟨.inl ‹_›, Option.some.inj (Except.ok.inj h)⟩)
  · exact .inr (.inl ⟨.inr ‹_›, Option.some.inj (Except.ok.inj h)⟩)
  · obtain ⟨made, hmade, heq⟩ := exists_of_map_eq_ok h
    exact .inr (.inr (.inl ⟨.inl ‹_›, Option.some.inj heq ▸ hmade⟩))
  · obtain ⟨made, hmade, heq⟩ := exists_of_map_eq_ok h
    exact .inr (.inr (.inl ⟨.inr ‹_›, Option.some.inj heq ▸ hmade⟩))
  · cases h

theorem contents_subperm {e : Element} {contents : Contents}
    (h : contents? inp e = .ok (some (contents, issues))) :
    ((contentRoutines contents).map PlacedRoutine.written).Subperm
      (((below e).flatMap Element.codes).map CodeMember.written) := by
  rcases contents_cases h with ⟨-, h⟩ | ⟨-, h⟩ | ⟨-, h⟩ | ⟨-, h⟩
  · exact tableContents_subperm h
  · obtain rfl := congrArg Prod.fst h
    exact pageContents_subperm inp e
  · obtain ⟨built, -, h⟩ := exists_of_bind_eq_ok h
    obtain ⟨rfl, -⟩ := Prod.mk.inj (Except.ok.inj h)
    exact nil_subperm
  · obtain rfl := congrArg Prod.fst h
    exact nil_subperm

/-! ## Objects and files -/

/-- What becomes of an object whose type is that of a declaration. -/
theorem ofObject_eq_ok {b : Built Declaration}
    (h : ofObject inp o = .ok b) (hd : d ∈ b.value) :
    contents? inp o.body = .ok (some (d.contents, b.issues)) ∧ d.triggers = triggersOf none o.body.codes ∧
      d.procedures = (o.body.codes.filter (·.kind == .procedure)).map procedure := by
  obtain ⟨made, hmade, h⟩ := exists_of_bind_eq_ok h
  cases made with
  | none =>
    obtain rfl := Except.ok.inj h
    cases hd
  | some made =>
    obtain rfl := Except.ok.inj h
    obtain rfl := Option.some.inj hd
    exact ⟨hmade, rfl, rfl⟩

theorem routines_subperm {b : Built Declaration}
    (h : ofObject inp o = .ok b) (hd : d ∈ b.value) :
    (d.routines.map PlacedRoutine.written).Subperm ((allCodes o.body).map CodeMember.written) := by
  obtain ⟨hcontents, htriggers, hprocedures⟩ := ofObject_eq_ok h hd
  -- the members with code are either triggers or not, so no code is taken for both
  have hown := written_triggers_subperm .trigger none none o.body.codes
  rw [← htriggers] at hown
  have hothers : ((d.procedures.map fun p => ⟨.procedure, none, .procedure p⟩).map PlacedRoutine.written).Subperm
      ((o.body.codes.filter fun c => !(c.kind == .trigger)).map CodeMember.written) := by
    rw [hprocedures, map_map, map_map]
    refine ((monotone_filter_right _ fun c hc => ?_).map CodeMember.written).subperm
    rw [eq_of_beq hc]
    rfl
  have hcodes := ((filter_append_perm (·.kind == CodeKind.trigger) o.body.codes).map CodeMember.written).subperm
  rw [map_append] at hcodes
  rw [routines, append_assoc, map_append, map_append, allCodes, flatMap_cons, map_append]
  refine perm_append_comm.subperm.trans (((hown.append hothers).trans hcodes).append (contents_subperm hcontents))

end Declaration

open Declaration

/-- The code of the declarations of a file is among the code of its objects. -/
theorem SourceFile.routines_subperm {text : String} {file : SourceFile}
    (h : SourceFile.ofText path text = .ok (file, issues)) :
    ∃ tree, SyntaxTree.ofText text = .ok tree ∧
      ((file.declarations.flatMap routines).map PlacedRoutine.written).Subperm
        ((tree.objects.flatMap fun o => allCodes o.body).map CodeMember.written) := by
  obtain ⟨tree, htree, h⟩ := exists_of_bind_eq_ok h
  obtain ⟨built, hbuilt, h⟩ := exists_of_bind_eq_ok h
  obtain ⟨rfl, -⟩ := Prod.mk.inj (Except.ok.inj h)
  refine ⟨tree, htree, ?_⟩
  rw [map_flatMap, map_flatMap]
  exact collect_subperm ((forall₂_of_mapM hbuilt).imp fun _ _ hb _ hd => Declaration.routines_subperm hb hd)

/-! ## No two start at one place -/

theorem Declaration.allCodes_eq (e : Element) : allCodes e = e.codes ++ e.children.flatMap allCodes := by
  rw [allCodes, flatMap_cons, below_eq, flatMap_assoc]
  rfl

/-- The calls in all code of an element are nodes of its outline. -/
theorem Element.allCodes_subperm_led (e : Element) : (CodeMember.callNodes (allCodes e)).Subperm e.outline.led := by
  induction e using Element.induct with
  | step e ih =>
    rw [allCodes_eq, CodeMember.callNodes, flatMap_append]
    refine perm_append_comm.subperm.trans (.trans ?_ e.subperm_led)
    rw [flatMap_assoc]
    exact (subperm_flatMap ih).append (.refl _)

/-- All code in an element starts inside it, and no two pieces of it at one place. -/
theorem Element.nodup_allCodes {tokens : List Token} {e : Element} (h : ∀ n ∈ e.outline.nodes, n.WellNested tokens) :
    ((allCodes e).map (·.span.first)).Nodup ∧
      ∀ p ∈ (allCodes e).map (·.span.first), e.outline.span.first ≤ p ∧ p < e.outline.span.past := by
  induction e using Element.induct with
  | step e ih =>
    -- the elements and the code right inside, as they stand in the outline
    let parts : List (Element ⊕ CodeMember) := e.children.map .inl ++ e.codes.map .inr
    let outline : Element ⊕ CodeMember → Outline := Sum.elim Element.outline CodeMember.outline
    let starts : Element ⊕ CodeMember → List (Lex (Nat × Nat)) :=
      Sum.elim (fun x => (allCodes x).map (·.span.first)) fun c => [c.span.first]
    have hall : (parts.flatMap starts).Perm ((allCodes e).map (·.span.first)) := by
      rw [allCodes_eq, map_append, flatMap_append, flatMap_map, flatMap_map, map_flatMap]
      refine perm_append_comm.trans (.of_eq ?_)
      rw [map_eq_flatMap]
      rfl
    have hsub : (parts.map outline).Sublist e.outline.rows.flatten := by
      obtain ⟨keyword, span, args, properties, children, codes, vars, doc⟩ := e
      rw [Element.outline, Element.outlines_eq]
      simp [parts, outline, Outline.rows]
    have he := h _ (mem_nodes.2 (.inl rfl))
    have hchild : ∀ x ∈ parts, outline x ∈ e.outline.children :=
      fun x hx => mem_append_left _ (hsub.subset (mem_map_of_mem hx))
    have hinside : ∀ x ∈ parts, (starts x).Nodup ∧
        ∀ p ∈ starts x, (outline x).span.first ≤ p ∧ p < (outline x).span.past := by
      intro x hx
      have hnodes : ∀ n ∈ (outline x).nodes, n.WellNested tokens :=
        fun n hn => h n (mem_nodes.2 (.inr ⟨outline x, hchild x hx, hn⟩))
      cases x with
      | inl child =>
        refine ih child ?_ hnodes
        simpa [parts] using hx
      | inr c =>
        refine ⟨nodup_singleton _, fun p hp => ?_⟩
        rw [mem_singleton.1 hp]
        exact ⟨le_rfl, (hnodes _ (mem_nodes.2 (.inl rfl))).proper⟩
    have hapart := he.apart.sublist hsub
    rw [pairwise_map] at hapart
    refine ⟨hall.nodup_iff.1 (nodup_flatMap_of_apart hinside hapart), fun p hp => ?_⟩
    obtain ⟨x, hx, hp⟩ := mem_flatMap.1 (hall.mem_iff.2 hp)
    have hwithin := he.within _ (hchild x hx)
    have hp := (hinside x hx).2 p hp
    exact ⟨hwithin.1.trans hp.1, hp.2.trans_le hwithin.2⟩

/-- **No two routines of a file start at one place.** -/
theorem SourceFile.nodup_routines {text : String} {file : SourceFile}
    (h : SourceFile.ofText path text = .ok (file, issues)) :
    ((file.declarations.flatMap routines).map fun r => r.written.1.first).Nodup := by
  obtain ⟨tree, htree, hroutines⟩ := SourceFile.routines_subperm h
  obtain ⟨hbefore, hnested⟩ := (SyntaxTree.laid_outlines htree).nested (Scan.ordered_tokens text)
  have hcodes : (tree.objects.flatMap fun o => (allCodes o.body).map (·.span.first)).Nodup :=
    nodup_flatMap_of_apart (fun o ho => Element.nodup_allCodes (hnested _ (mem_map_of_mem ho)))
      ((pairwise_map.1 hbefore).imp fun hxy => .inl hxy)
  rw [← map_flatMap] at hcodes
  have hstarts := subperm_map hroutines fun w => w.1.first
  rw [map_map, map_map] at hstarts
  obtain ⟨found, hperm, hsub⟩ := hstarts
  exact hperm.nodup_iff.1 (hcodes.sublist hsub)

/-- **No two calls of plain names in the routines of a file start at one place.** -/
theorem SourceFile.nodup_starts {text : String} {file : SourceFile}
    (h : SourceFile.ofText path text = .ok (file, issues)) :
    ((file.declarations.flatMap fun d => PlacedRoutine.callNodes d.routines).map (·.span.first)).Nodup := by
  obtain ⟨tree, htree, hroutines⟩ := SourceFile.routines_subperm h
  have hcalls := subperm_flatMap_right hroutines fun w => Stmt.callNodes w.2
  rw [flatMap_map, flatMap_map, flatMap_assoc, flatMap_assoc] at hcalls
  obtain ⟨hbefore, hnested⟩ := (SyntaxTree.laid_outlines htree).nested (Scan.ordered_tokens text)
  have hstarts := nodup_flatMap_led (fun o ho => Outline.started (hnested o ho)) (hbefore.imp fun hxy => .inl hxy)
  rw [SyntaxTree.outlines, flatMap_map] at hstarts
  obtain ⟨found, hperm, hsub⟩ := hcalls.trans (subperm_flatMap fun o _ => o.body.allCodes_subperm_led)
  exact (hperm.map _).nodup_iff.1 (hstarts.sublist (hsub.map _))

end AlLint
