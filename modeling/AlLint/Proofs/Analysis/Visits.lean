import AlLint.Proofs.Analysis.Sights
import AlLint.Proofs.Flow.Related
import AlLint.Proofs.Reading.Damage
import AlLint.Proofs.Reading.MemberInverse

/-!
# Which code is looked at

The code of an object is looked at in its own triggers and procedures, in the triggers of the fields and
changes of fields in its sections of fields, if it is a table, and in those of the controls and actions
anywhere in its layout and among its actions, if it is a page (`Declaration.Seat`). Every piece of code there
is looked at exactly once, or there is an issue with it or with the element that it is in, or a trigger of the
same name comes after it in the same element and takes its place (`visited_or_reported`).

Elsewhere code may be lost without a word, and so may the first of two triggers of one name
(`skipped_in_silence`).
-/

namespace AlLint

open List

namespace Keyed

variable {α : Type}

theorem get?_insertAll_of_ne {key : String} (more : List (String × α)) (entries : Keyed α)
    (h : ∀ e ∈ more, e.1 ≠ key) : (entries.insertAll more).get? key = entries.get? key := by
  induction more generalizing entries with
  | nil => rfl
  | cons e more ih =>
    have hne : key ≠ e.1 := (h e mem_cons_self).symm
    rw [insertAll, foldl_cons, ← insertAll, ih _ fun x hx => h x (mem_cons_of_mem _ hx),
      get?_insert_of_ne _ _ hne]

theorem get?_ofList_append {key : String} {value : α} (before after : List (String × α))
    (h : ∀ e ∈ after, e.1 ≠ key) : (ofList (before ++ (key, value) :: after)).get? key = some value := by
  have hrest := get?_insertAll_of_ne after ((insertAll [] before).insert key value) h
  rw [get?_insert_self] at hrest
  rw [ofList, insertAll, foldl_append]
  exact hrest

theorem mem_values_of_get? {entries : Keyed α} {key : String} {value : α}
    (h : entries.get? key = some value) :
    value ∈ entries.values := by
  induction entries with
  | nil => cases h
  | cons e rest ih =>
    rw [get?] at h
    split at h
    · exact Option.some.inj h ▸ mem_cons_self
    · exact mem_cons_of_mem _ (ih h)

end Keyed

namespace Declaration

/-! ## Where code counts -/

/-- An element somewhere inside another. -/
inductive Inside : Element → Element → Prop where
  | child {e x : Element} : x ∈ e.children → Inside e x
  | deeper {e y x : Element} : y ∈ e.children → Inside y x → Inside e x

/-- The elements of an object in which code counts. -/
inductive Seat (o : Element) : Element → Prop where
  | self : Seat o o
  | field {part x : Element} : o.keyword = "table" ∨ o.keyword = "tableextension" → part ∈ o.children →
      part.keyword = "fields" →
      x ∈ part.children → x.keyword = "field" ∨ x.keyword = "modify" → Seat o x
  | control {part x : Element} : o.keyword = "page" ∨ o.keyword = "pageextension" → part ∈ o.children →
      part.keyword = "layout" →
      Inside part x → x.keyword = "field" → Seat o x
  | action {part x : Element} : o.keyword = "page" ∨ o.keyword = "pageextension" → part ∈ o.children →
      part.keyword = "actions" →
      Inside part x → x.keyword = "action" → Seat o x

theorem mem_below_of_inside {e x : Element} (h : Inside e x) : x ∈ below e := by
  induction h with
  | child hx =>
    rw [below_eq]
    exact mem_flatMap.2 ⟨_, hx, mem_cons_self⟩
  | deeper hy _ ih =>
    rw [below_eq]
    exact mem_flatMap.2 ⟨_, hy, mem_cons_of_mem _ ih⟩

theorem mem_belowSections {keyword inner : String} {e part x : Element} (hpart : part ∈ e.children)
    (hkeyword : part.keyword = keyword)
    (hx : Inside part x) (hinner : x.keyword = inner) : x ∈ belowSections keyword inner e :=
  mem_filter.2 ⟨mem_flatMap.2 ⟨part, mem_filter.2 ⟨hpart, beq_iff_eq.2 hkeyword⟩, mem_below_of_inside hx⟩,
    beq_iff_eq.2 hinner⟩

/-! ## What becomes of code -/

/-- Code, and the routine that it is. -/
inductive Written (c : CodeMember) : Routine → Prop where
  | trigger (owner : Option String) : c.kind = .trigger → Written c (.trigger (trigger owner c))
  | procedure : c.kind = .procedure → Written c (.procedure (procedure c))

theorem Written.span {c : CodeMember} {r : Routine} (h : Written c r) : (Node.routine r).span = c.span := by
  cases h <;> rfl

theorem Written.trigger_name {c : CodeMember} {t : Trigger} (h : Written c (.trigger t)) :
    t.name = c.name := by
  cases h
  rfl

/-- What can become of code in an element with more code behind it, if these routines and issues come of it
all. -/
inductive Accounted (rs : List PlacedRoutine) (issues : List Issue) (e : Element) (c : CodeMember)
    (after : List CodeMember) : Prop where
  | taken {r : PlacedRoutine} : r ∈ rs → Written c r.routine → Accounted rs issues e c after
  | dropped {i : Issue} : i ∈ issues → i.span = e.span → Accounted rs issues e c after
  | misplaced {i : Issue} : c.kind = .procedure → i ∈ issues → i.span = c.span → Accounted rs issues e c after
  | superseded {later : CodeMember} : c.kind = .trigger → later ∈ after → later.kind = .trigger →
      Text.lower later.name = Text.lower c.name → Accounted rs issues e c after

section Codes

variable {rs : List PlacedRoutine} {issues : List Issue} {e : Element} {before after : List CodeMember}
  {c : CodeMember}

theorem Accounted.mono {rs' : List PlacedRoutine} {issues' : List Issue} (h : Accounted rs issues e c after)
    (hrs : rs ⊆ rs') (hissues : issues ⊆ issues') : Accounted rs' issues' e c after := by
  cases h with
  | taken hr hwritten => exact .taken (hrs hr) hwritten
  | dropped hi hspan => exact .dropped (hissues hi) hspan
  | misplaced hkind hi hspan => exact .misplaced hkind (hissues hi) hspan
  | superseded hkind hlater hlater' hname => exact .superseded hkind hlater hlater' hname

theorem accounted_trigger (place : Place) (owner owner' : Option String) (hc : e.codes = before ++ c :: after)
    (hkind : c.kind = .trigger)
    (hrs : triggerRoutines place owner (triggersOf owner' e.codes) ⊆ rs) : Accounted rs issues e c after := by
  by_cases hlater : ∃ later ∈ after, later.kind = .trigger ∧ Text.lower later.name = Text.lower c.name
  · obtain ⟨later, hmem, hkind', hname⟩ := hlater
    exact .superseded hkind hmem hkind' hname
  · have hget : (triggersOf owner' e.codes).get? (Text.lower c.name) = some (trigger owner' c) := by
      rw [triggersOf, hc, filter_append, filter_cons_of_pos (by simp [hkind]), map_append, map_cons]
      refine Keyed.get?_ofList_append _ _ fun x hx hname => hlater ?_
      obtain ⟨later, hmem, rfl⟩ := mem_map.1 hx
      obtain ⟨hmem, hkind'⟩ := mem_filter.1 hmem
      exact ⟨later, hmem, eq_of_beq hkind', hname⟩
    exact .taken (hrs (mem_map.2 ⟨_, Keyed.mem_values_of_get? hget, rfl⟩)) (.trigger owner' hkind)

theorem Hosts.accounted {α : Type} {name : α → String} {triggers : α → Triggers} {b : Built α}
    (h : Hosts name triggers e b) (place : Place) (hc : e.codes = before ++ c :: after)
    (hrs : ∀ a ∈ b.value, triggerRoutines place (some (name a)) (triggers a) ⊆ rs)
    (hissues : b.issues ⊆ issues) :
    Accounted rs issues e c after := by
  cases h with
  | drop complaint => exact .dropped (hissues mem_cons_self) rfl
  | keep a ha =>
    have hrs := hrs a rfl
    rw [ha] at hrs
    cases hkind : c.kind with
    | trigger => exact accounted_trigger place _ _ hc hkind hrs
    | procedure =>
      have hmem : c ∈ e.codes.filter (·.kind == .procedure) :=
        mem_filter.2 ⟨hc ▸ mem_append_right _ mem_cons_self, by simp [hkind]⟩
      exact .misplaced hkind (hissues (mem_map_of_mem hmem)) rfl

theorem Hosts.accounted_collect {α : Type} {name : α → String} {triggers : α → Triggers} {b : Built α}
    (h : Hosts name triggers e b)
    (place : Place) (hc : e.codes = before ++ c :: after) {bs : List (Built α)} (hb : b ∈ bs) :
    Accounted ((collect bs).1.flatMap fun a => triggerRoutines place (some (name a)) (triggers a))
      (collect bs).2 e c after := by
  rw [collect_eq]
  refine h.accounted place hc (fun a ha r hr => ?_) fun i hi => mem_flatMap.2 ⟨b, hb, hi⟩
  exact mem_flatMap.2 ⟨a, mem_flatMap.2 ⟨b, hb, Option.mem_toList.2 ha⟩, hr⟩

variable {inp : Reading.Input} {o : Element} {contents : Contents}

theorem accounted_table (h : tableContents inp o = .ok (contents, issues)) {part : Element}
    (hpart : part ∈ o.children)
    (hfields : part.keyword = "fields") (he : e ∈ part.children)
    (hkeyword : e.keyword = "field" ∨ e.keyword = "modify")
    (hc : e.codes = before ++ c :: after) : Accounted (contentRoutines contents) issues e c after := by
  obtain ⟨built, hbuilt, h⟩ := exists_of_bind_eq_ok h
  obtain ⟨rfl, rfl⟩ := Prod.mk.inj (Except.ok.inj h)
  have hmem : e ∈ inSections "fields" o :=
    mem_flatMap.2 ⟨part, mem_filter.2 ⟨hpart, beq_iff_eq.2 hfields⟩, he⟩
  obtain ⟨b, hb, hmade⟩ := exists_mem_of_mapM hbuilt hmem
  rcases hosts_fieldOrChange hmade with hhosts | ⟨-, hfield, hmodify⟩
  · refine (hhosts.accounted_collect .fieldTrigger hc hb).mono ?_ (subset_append_left _ _)
    exact (tableRoutines_perm _ _).symm.subset
  · exact absurd hkeyword (not_or.2 ⟨hfield, hmodify⟩)

end Codes

/-- The types of objects with code in them. -/
def codeTypes : List String := ["table", "tableextension", "codeunit", "page", "pageextension"]

/-- The types of objects that are made into declarations. -/
def declaredTypes : List String := ["enum", "enumextension"] ++ codeTypes

section Object

variable {inp : Reading.Input} {o : ObjectSyntax} {b : Built Declaration}

theorem contents?_of_table {e : Element} (h : e.keyword = "table" ∨ e.keyword = "tableextension") :
    contents? inp e = (tableContents inp e).map some := by
  rcases h with h | h <;> simp [contents?, h]

theorem contents?_of_page {e : Element} (h : e.keyword = "page" ∨ e.keyword = "pageextension") :
    contents? inp e = .ok (some (pageContents inp e)) := by
  rcases h with h | h <;> simp [contents?, h]

theorem not_declared {e : Element} (h : contents? inp e = .ok none) : e.keyword ∉ declaredTypes := by
  unfold contents? at h
  split at h
  case h_8 htable htableextension hcodeunit hpage hpageextension henum henumextension =>
    simp only [declaredTypes, codeTypes, mem_append, mem_cons, not_mem_nil, or_false]
    rintro ((h | h) | h | h | h | h | h)
    exacts [henum h, henumextension h, htable h, htableextension h, hcodeunit h, hpage h, hpageextension h]
  all_goals first
    | cases h
    | (obtain ⟨made, -, hnone⟩ := exists_of_map_eq_ok h; cases hnone)

theorem exists_declaration (h : ofObject inp o = .ok b) (ho : o.body.keyword ∈ codeTypes) :
    ∃ d, d ∈ b.value := by
  obtain ⟨made, hmade, h⟩ := exists_of_bind_eq_ok h
  cases made with
  | some made =>
    obtain rfl := Except.ok.inj h
    exact ⟨_, rfl⟩
  | none => exact absurd (mem_append_right _ ho) (not_declared hmade)

variable {d : Declaration} {e : Element} {before after : List CodeMember} {c : CodeMember}

theorem accounted_object (h : ofObject inp o = .ok b) (hd : d ∈ b.value) (he : Seat o.body e)
    (hc : e.codes = before ++ c :: after) :
    Accounted d.routines b.issues e c after := by
  obtain ⟨hcontents, htriggers, hprocedures⟩ := ofObject_eq_ok h hd
  have hinner : contentRoutines d.contents ⊆ d.routines :=
    List.Subset.trans (subset_append_left _ _) (subset_append_left _ _)
  cases he with
  | self =>
    cases hkind : c.kind with
    | trigger =>
      refine accounted_trigger .trigger none none hc hkind ?_
      rw [← htriggers]
      exact List.Subset.trans (subset_append_right _ _) (subset_append_left _ _)
    | procedure =>
      have hmem : procedure c ∈ d.procedures := by
        rw [hprocedures, hc]
        exact mem_map_of_mem (mem_filter.2 ⟨mem_append_right _ mem_cons_self, by simp [hkind]⟩)
      exact .taken (mem_append_right _ (mem_map_of_mem hmem)) (.procedure hkind)
  | field hkeyword hpart hfields he hinside =>
    rw [contents?_of_table hkeyword] at hcontents
    obtain ⟨made, hmade, heq⟩ := exists_of_map_eq_ok hcontents
    obtain rfl := Option.some.inj heq
    exact (accounted_table hmade hpart hfields he hinside hc).mono hinner (List.Subset.refl _)
  | control hkeyword hpart hlayout he hfield =>
    rw [contents?_of_page hkeyword] at hcontents
    obtain ⟨hroutines, hissues⟩ := Prod.mk.inj (Option.some.inj (Except.ok.inj hcontents))
    rw [← hissues]
    rw [← hroutines] at hinner
    have hmem := mem_map_of_mem (f := pageField inp) (mem_belowSections hpart hlayout he hfield)
    exact ((hosts_pageField inp e).accounted_collect .controlTrigger hc hmem).mono
      (List.Subset.trans (subset_append_left _ _) hinner) (subset_append_left _ _)
  | action hkeyword hpart hactions he haction =>
    rw [contents?_of_page hkeyword] at hcontents
    obtain ⟨hroutines, hissues⟩ := Prod.mk.inj (Option.some.inj (Except.ok.inj hcontents))
    rw [← hissues]
    rw [← hroutines] at hinner
    have hmem := mem_map_of_mem (f := pageAction) (mem_belowSections hpart hactions he haction)
    exact ((hosts_pageAction e).accounted_collect .actionTrigger hc hmem).mono
      (List.Subset.trans (subset_append_right _ _) hinner) (subset_append_right _ _)

end Object

end Declaration

/-- The routines of a file with their declarations, in the order in which they are analysed. -/
def SourceFile.visits (file : SourceFile) : List (Declaration × PlacedRoutine) :=
  file.declarations.flatMap fun d => d.routines.map (d, ·)

/-! ## What is looked at -/

/-- Whether a node is looked at as a part of some routine. -/
def Sight.inRoutine (s : Sight) : Bool := s.context.routine.isSome

namespace Analysis

open Declaration

section Sights

variable (settings : Settings) (options : Options) (d : Declaration)

/-- What there is to see in a routine of a declaration. -/
def placedSights (r : PlacedRoutine) : List Sight :=
  routineSights (contextFor settings options d) r.place r.owner r.routine

variable {settings options d}

/-- Whatever is looked at in a routine is looked at as a part of it. -/
theorem routine_of_mem_placedSights {r : PlacedRoutine} {s : Sight}
    (h : s ∈ placedSights settings options d r) :
    s.context.routine = some r.routine := by
  rw [placedSights, routineSights, cons_append] at h
  rcases mem_cons.1 h with rfl | h
  · rfl
  rcases mem_append.1 h with h | h
  · obtain ⟨v, -, rfl⟩ := mem_map.1 h
    rfl
  · exact congrArg Context.routine (Stmt.setting_of_mem_walkAll h)

theorem filter_declarationSights :
    (declarationSights settings options d).filter Sight.inRoutine = d.routines.flatMap
      (placedSights settings options d) := by
  rw [declarationSights_eq, filter_flatMap, flatMap_items fun _ => rfl]
  refine flatMap_congr fun r _ => filter_eq_self.2 fun s hs => ?_
  rw [Sight.inRoutine, routine_of_mem_placedSights hs]
  rfl

end Sights

/-- **What is looked at in routines is each routine of the file**, one after another. -/
theorem filter_sights (reg : Registry) (settings : Settings) (file : SourceFile) :
    (sights reg settings file).filter Sight.inRoutine =
      file.visits.flatMap fun v => placedSights settings (settings.optionsOf reg) v.1 v.2 := by
  rw [sights, filter_flatMap, SourceFile.visits, flatMap_assoc]
  refine flatMap_congr fun d _ => ?_
  rw [filter_declarationSights, flatMap_map]

/-- Code is looked at exactly once: among all that is looked at in routines there is one visit to it, and all
that comes before or after belongs to routines that stand elsewhere. -/
def VisitedOnce (reg : Registry) (settings : Settings) (file : SourceFile) (c : CodeMember) : Prop :=
  ∃ d ∈ file.declarations, ∃ r ∈ d.routines, Written c r.routine ∧ ∃ before after,
    (sights reg settings file).filter Sight.inRoutine = before ++ placedSights settings
      (settings.optionsOf reg) d r ++ after ∧
      ∀ s ∈ before ++ after, ∀ x ∈ s.context.routine, (Node.routine x).span ≠ c.span

theorem visitedOnce {path text : String} {file : SourceFile} {issues : List Issue}
    (h : SourceFile.ofText path text = .ok (file, issues))
    (reg : Registry) (settings : Settings) {d : Declaration} {r : PlacedRoutine} {c : CodeMember}
    (hd : d ∈ file.declarations)
    (hr : r ∈ d.routines) (hc : Written c r.routine) : VisitedOnce reg settings file c := by
  have hmem : (d, r) ∈ file.visits := mem_flatMap.2 ⟨d, hd, mem_map_of_mem hr⟩
  have hnodup : (file.visits.map fun v => v.2.written.1.first).Nodup := by
    have hroutines := SourceFile.nodup_routines h
    rw [map_flatMap] at hroutines
    simpa only [SourceFile.visits, map_flatMap, map_map, Function.comp_def] using hroutines
  obtain ⟨before, after, hsplit⟩ := append_of_mem hmem
  rw [hsplit, map_append, map_cons, nodup_middle, nodup_cons, ← map_append] at hnodup
  let block := fun v : Declaration × PlacedRoutine => placedSights settings (settings.optionsOf reg) v.1 v.2
  refine ⟨d, hd, r, hr, hc, before.flatMap block, after.flatMap block, ?_, fun s hs x hx hspan => hnodup.1 ?_⟩
  · rw [filter_sights, hsplit, flatMap_append, flatMap_cons, append_assoc]
  · rw [← flatMap_append] at hs
    obtain ⟨v, hv, hs⟩ := mem_flatMap.1 hs
    rw [routine_of_mem_placedSights hs] at hx
    obtain rfl := Option.some.inj hx
    refine mem_map.2 ⟨v, hv, ?_⟩
    rw [PlacedRoutine.written, PlacedRoutine.written, hspan, hc.span]

/-- **No code in a seat is skipped in silence.** A text without overlong numbers is built, and of every text
that is built, every piece of code in a seat of an object is looked at exactly once, or building reports an
issue with its element or with itself, or it is a trigger and another one of its name comes after it in its
element. -/
theorem visited_or_reported (reg : Registry) (settings : Settings) (path text : String) :
    ((∀ t ∈ (Scan.ofText text).tokens, t.kind = .number → t.digits ≤ maxDigits) →
      ∃ file issues, SourceFile.ofText path text = .ok (file, issues)) ∧
    ∀ file issues, SourceFile.ofText path text = .ok (file, issues) →
      ∃ tree found, SyntaxTree.ofText text = .ok tree ∧ issues = tree.issues ++ found ∧
        ∀ o ∈ tree.objects, o.body.keyword ∈ codeTypes → ∀ e, Seat o.body e → ∀ before c after,
          e.codes = before ++ c :: after →
          VisitedOnce reg settings file c ∨
          (∃ i ∈ found, i.span = e.span) ∨
          (c.kind = .procedure ∧ ∃ i ∈ found, i.span = c.span) ∨
          (c.kind = .trigger ∧ ∃ later ∈ after, later.kind = .trigger ∧
            Text.lower later.name = Text.lower c.name) := by
  refine ⟨fun h => SourceFile.exists_ofText h path, fun file issues hfile => ?_⟩
  have hvisit := fun d r c => visitedOnce (d := d) (r := r) (c := c) hfile reg settings
  obtain ⟨tree, htree, hrest⟩ := exists_of_bind_eq_ok hfile
  obtain ⟨built, hbuilt, heq⟩ := exists_of_bind_eq_ok hrest
  obtain ⟨rfl, rfl⟩ := Prod.mk.inj (Except.ok.inj heq)
  refine ⟨tree, _, htree, rfl, fun o ho hkeyword e he before c after hc => ?_⟩
  obtain ⟨b, hb, hmade⟩ := exists_mem_of_mapM hbuilt ho
  obtain ⟨d, hd⟩ := exists_declaration hmade hkeyword
  have hdeclared : d ∈ (collect built).1 := by
    rw [collect_eq]
    exact mem_flatMap.2 ⟨b, hb, Option.mem_toList.2 hd⟩
  have hissues : b.issues ⊆ (collect built).2 := by
    rw [collect_eq]
    exact fun i hi => mem_flatMap.2 ⟨b, hb, hi⟩
  cases accounted_object hmade hd he hc with
  | taken hr hwritten => exact .inl (hvisit d _ c hdeclared hr hwritten)
  | dropped hi hspan => exact .inr (.inl ⟨_, hissues hi, hspan⟩)
  | misplaced hkind hi hspan => exact .inr (.inr (.inl ⟨hkind, _, hissues hi, hspan⟩))
  | superseded hkind hlater hlater' hname => exact .inr (.inr (.inr ⟨hkind, _, hlater, hlater', hname⟩))

end Analysis

/-! ## Code that is lost -/

section Lossy

open Reading

/-- A text that holds one object, without a number, a name and clauses. -/
theorem exists_object_of_members {text keyword : String} {k o last : Token} {ts : List Token}
    {P : Members → Prop}
    (htokens : (Scan.ofText text).tokens = k :: o :: ts) (hissues : (Scan.ofText text).issues = [])
    (hk : k.isWord keyword = true) (htype : keyword ∈ objectTypes) (ho : o.isOp "\x7b" = true)
    (h : (members ⟨text, (Scan.ofText text).eof⟩ keyword {} ⟨o, ts, []⟩).Gives P ⟨last, [], []⟩) :
    ∃ tree obj ms, SyntaxTree.ofText text = .ok tree ∧ tree.objects = [obj] ∧ tree.issues = [] ∧
      obj.body.keyword = keyword ∧
      obj.body.codes = ms.codes ∧ obj.body.children = ms.children ∧ P ms := by
  obtain ⟨hkind, hlower⟩ := Token.isWord_iff.1 hk
  have hkeyword : k.lower = keyword := by rw [Token.lower, if_pos hkind, hlower]
  let c₀ : Cursor := ⟨k, k :: o :: ts, []⟩
  have hnext : (members ⟨text, (Scan.ofText text).eof⟩ keyword {} ((c₀.past k (o :: ts)).past o ts)).next =
    ⟨last, [], []⟩ := h.1
  obtain ⟨obj, _, hobj, htype', hcodes, hchildren⟩ := object_eq_of_brace ⟨text, (Scan.ofText text).eof⟩ k
    (c := c₀.past k (o :: ts)) rfl ho
  rw [hkeyword] at htype'
  simp only [hkeyword] at hobj hcodes hchildren
  have hread := objects_of_last _ (c := c₀) rfl (by simp [Token.isWordIn, hkind, hlower, htype]) hobj
    (congrArg Cursor.rest hnext)
  rw [congrArg Cursor.issues hnext] at hread
  refine ⟨⟨[obj], (Scan.ofText text).comments, []⟩, obj, _, ?_, rfl, rfl, htype', hcodes, hchildren, h.2⟩
  rw [SyntaxTree.ofText, Scan.open, htokens, hissues]
  exact congrArg (Except.map fun found => (⟨found.1, (Scan.ofText text).comments, found.2⟩ : SyntaxTree))
    hread

theorem SourceFile.ofText_of_object {text : String} {tree : SyntaxTree} {o : ObjectSyntax}
    {d : Declaration} (path : String)
    (htree : SyntaxTree.ofText text = .ok tree) (hobjects : tree.objects = [o]) (hissues : tree.issues = [])
    (hmade : Declaration.ofObject ⟨text, (Scan.ofText text).eof⟩ o = .ok ⟨some d, []⟩) :
    SourceFile.ofText path text = .ok (⟨path, text, [d], tree.comments⟩, []) := by
  have hbuilt : tree.objects.mapM (Declaration.ofObject ⟨text, (Scan.ofText text).eof⟩) =
    .ok [⟨some d, []⟩] := by
    rw [hobjects, List.mapM_cons, hmade]
    rfl
  rw [SourceFile.ofText, htree]
  show (tree.objects.mapM (Declaration.ofObject ⟨text, (Scan.ofText text).eof⟩) >>= _) = _
  rw [hbuilt]
  show Except.ok ((⟨path, text, [d], tree.comments⟩ : SourceFile), tree.issues ++ _) = _
  rw [hissues]
  rfl

/-- A codeunit with an empty trigger in an element, and two empty triggers of one name. -/
def lossyText : String :=
  "codeunit \x7b other \x7b trigger a begin end \x7d trigger b begin end trigger B begin end \x7d"

def lossyLexemes : List Lexeme :=
  .word "codeunit" :: .sign "\x7b" :: (([.name "other" false, .sign "\x7b"] : List Lexeme) ++
    (emptyTrigger "a" ++ (.sign "\x7d" ::
    (emptyTrigger "b" ++ (emptyTrigger "B" ++ ([.sign "\x7d"] : List Lexeme))))))

theorem lossy_checked : (Scan.ofText lossyText).issues.isEmpty = true ∧
    List.Forall₂ (fun x t => Lexeme.spelledBy x t = true) lossyLexemes (Scan.ofText lossyText).tokens := by
      decide +kernel

theorem lossy_read : ∃ (tree : SyntaxTree) (o : ObjectSyntax) (e : Element) (c₁ c₂ c₃ : CodeMember),
    SyntaxTree.ofText lossyText = .ok tree ∧ tree.objects = [o] ∧ tree.issues = [] ∧
      o.body.keyword = "codeunit" ∧ o.body.children = [e] ∧ e.codes = [c₁] ∧ o.body.codes = [c₂, c₃] ∧
      (∀ c ∈ [c₁, c₂, c₃], c.kind = .trigger ∧ c.hasBody = true) ∧ c₁.name = "a" ∧ c₂.name = "b" ∧
        c₃.name = "B" := by
  obtain ⟨hissues, hall⟩ := lossy_checked
  let scan := Scan.ofText lossyText
  let inp : Input := ⟨lossyText, scan.eof⟩
  obtain ⟨last, hspells⟩ := exists_spells_of_forall₂ (c := ⟨scan.eof, scan.tokens, []⟩) hall
  obtain ⟨k, ts, hc, hk, o, ts', rfl, ho, hspells⟩ := hspells
  obtain ⟨d₁, hopen, hspells⟩ := Cursor.spells_append.1 hspells
  obtain ⟨d₂, ha, r, rest, hd₂, hr, hspells⟩ := Cursor.spells_append.1 hspells
  obtain ⟨d₃, hb, hspells⟩ := Cursor.spells_append.1 hspells
  obtain ⟨d₄, hB, r', rest', hd₄, hr', hend⟩ := Cursor.spells_append.1 hspells
  -- a token that starts a trigger or closes a brace is no semicolon
  have hbrace : ∀ {d : Cursor} {t : Token} {ts : List Token}, d.rest = t :: ts → t.isOp "\x7d" = true →
      (d.head inp).isOp ";" = false := by
    intro d t ts hd ht
    rw [Cursor.head_eq hd]
    exact isOp_of_brace ht (by decide)
  have htrigger : ∀ {d e : Cursor} {name : String}, d.Spells (emptyTrigger name) e →
    (d.head inp).isOp ";" = false := by
    intro d e name h
    obtain ⟨t, ts, hd, ht, -⟩ := h
    rw [Cursor.head_eq hd]
    simp [Token.isOp, Token.isOpIn, (Token.isWord_iff.1 ht).1]
  -- from the last member to the first
  obtain ⟨hkind₃, hthird⟩ := gives_member_of_trigger "codeunit" hB (hbrace hd₄ hr')
  have hthird := members_cons hkind₃ hthird (members_end _ hd₄ hr')
  obtain ⟨hkind₂, hsecond⟩ := gives_member_of_trigger "codeunit" hb (htrigger hB)
  have hsecond := members_cons hkind₂ hsecond hthird
  obtain ⟨hkind₁, hfirst⟩ := gives_member_of_trigger "other" ha (hbrace hd₂ hr)
  have hinner := members_cons hkind₁ hfirst (members_end _ hd₂ hr)
  obtain ⟨x, _, hother, hx, _, _, rfl, hopen, rfl⟩ := hopen
  obtain ⟨hkind₀, helement⟩ := gives_member_of_element "codeunit" hother hx (by decide)
    (Token.isOpIn_of_isOp hopen (by simp))
    (elementArguments_none x rfl (isOp_of_isOpIn hopen (by decide))) rfl hopen hinner (htrigger hb)
  have hmembers := members_cons hkind₀ helement hsecond
  rw [show d₄.past r' rest' = _ from hend] at hmembers
  obtain ⟨tree, obj, ms, htree, hobjects, hnone, hkeyword, hcodes, hchildren, hgathered⟩ :=
    exists_object_of_members hc (List.isEmpty_iff.1 hissues) hk (by decide) ho hmembers
  obtain ⟨_, _, rfl, ⟨e, _, rfl, -, -, he, _, _, rfl, ⟨c₁, rfl, hc₁⟩, rfl⟩, hcode⟩ := hgathered
  obtain ⟨_, _, rfl, ⟨c₂, rfl, hc₂⟩, _, _, rfl, ⟨c₃, rfl, hc₃⟩, rfl⟩ := hcode
  exact ⟨tree, obj, e, c₁, c₂, c₃, htree, hobjects, hnone, hkeyword, hchildren, he, hcodes,
    by simp [hc₁, hc₂, hc₃]⟩

end Lossy

namespace Analysis

open Declaration

/-- **Code may be skipped in silence.** Nothing is wrong with the text, and neither the trigger in the element
nor the first of the two triggers of one name is looked at. -/
theorem skipped_in_silence :
    ∃ tree file, SyntaxTree.ofText lossyText = .ok tree ∧ SourceFile.ofText "" lossyText = .ok (file, []) ∧
      ∃ o ∈ tree.objects, o.body.keyword ∈ codeTypes ∧
        (∃ e ∈ o.body.children, ∃ c ∈ e.codes, c.hasBody = true ∧
          ∀ reg settings, ¬ VisitedOnce reg settings file c) ∧
        ∃ c ∈ o.body.codes, c.hasBody = true ∧ ∀ reg settings, ¬ VisitedOnce reg settings file c := by
  obtain ⟨tree, o, e, c₁, c₂, c₃, htree, hobjects, hissues, hkeyword, hchildren, he, hcodes, hall,
    hname₁, hname₂, hname₃⟩ :=
    lossy_read
  have hkind₂ := (hall c₂ (by simp)).1
  have hkind₃ := (hall c₃ (by simp)).1
  -- of the two triggers of one name, the last one is left
  have htriggers : triggersOf none o.body.codes = [(Text.lower c₂.name, trigger none c₃)] := by
    have hlower : Text.lower "B" = Text.lower "b" := by decide
    simp [triggersOf, hcodes, hkind₂, hkind₃, hname₂, hname₃, Keyed.ofList, Keyed.insertAll,
      Keyed.insert, hlower]
  let inp : Reading.Input := ⟨lossyText, (Scan.ofText lossyText).eof⟩
  have hmade : ∃ d, ofObject inp o = .ok ⟨some d, []⟩ := by
    simp only [ofObject, contents?, hkeyword]
    exact ⟨_, rfl⟩
  obtain ⟨d, hmade⟩ := hmade
  obtain ⟨hcontents, hd, hprocedures⟩ := ofObject_eq_ok hmade rfl
  have hroutines : d.routines = [⟨.trigger, none, .trigger (trigger none c₃)⟩] := by
    have hinner : contentRoutines d.contents = [] := by
      rcases contents_cases hcontents with ⟨h, -⟩ | ⟨h, -⟩ | ⟨h, -⟩ | ⟨-, h⟩
      · simp [hkeyword] at h
      · simp [hkeyword] at h
      · simp [hkeyword] at h
      · obtain ⟨h, -⟩ := Prod.mk.inj h
        rw [← h]
        rfl
    rw [routines, hinner, hd, htriggers, hprocedures, hcodes]
    simp [hkind₂, hkind₃, triggerRoutines, Keyed.values]
  let file : SourceFile := ⟨"", lossyText, [d], tree.comments⟩
  have hfile : SourceFile.ofText "" lossyText = .ok (file, []) :=
    SourceFile.ofText_of_object "" htree hobjects hissues hmade
  have hmissed : ∀ c : CodeMember, c.name ≠ "B" → ∀ reg settings, ¬ VisitedOnce reg settings file c := by
    rintro c hname reg settings ⟨d', hd', r, hr, hwritten, -⟩
    obtain rfl := mem_singleton.1 hd'
    rw [hroutines] at hr
    obtain rfl := mem_singleton.1 hr
    exact hname (hwritten.trigger_name.symm.trans hname₃)
  refine ⟨tree, file, htree, hfile, o, by rw [hobjects]; exact mem_cons_self,
    by rw [hkeyword]; decide, ?_, ?_⟩
  · exact ⟨e, by rw [hchildren]; exact mem_cons_self, c₁, by rw [he]; exact mem_cons_self,
      (hall c₁ (by simp)).2, hmissed c₁ (by rw [hname₁]; decide)⟩
  · exact ⟨c₂, by rw [hcodes]; exact mem_cons_self, (hall c₂ (by simp)).2,
      hmissed c₂ (by rw [hname₂]; decide)⟩

end Analysis

end AlLint
