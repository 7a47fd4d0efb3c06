import AlLint.Declaration.Build
import AlLint.Proofs.Checked
import AlLint.Proofs.Reading.ObjectsAlike
import AlLint.Proofs.Source.Caseless

/-!
# Declarations without regard to case

What objects mean does not depend on the case of the letters in which they are written. Objects that look the
same without case become declarations that look the same, and elements that mean nothing are dropped in the same
places. Together with what is known of scanning and reading: two texts that differ in case only hold
declarations that look the same.
-/

namespace AlLint

open Text List

variable {c : Char} {cs : List Char} {es es' : List Element} {text' : String}

/-! ## Documentation -/

def Doc.seen (v : View) (d : Doc) : Doc :=
  { d with text := v.see d.text, summary := d.summary.map v.see, params := d.params.map v.see, returns :=
    d.returns.map v.see }

namespace Text

theorem asciiFold_toLower : ∀ c : Char, asciiFold c.toLower = asciiFold c := toLower_invariant (by decide)

theorem dropFolded?_toLower (ps cs : List Char) :
    dropFolded? ps (cs.map Char.toLower) = (dropFolded? ps cs).map (List.map Char.toLower) := by
  fun_induction dropFolded? ps cs with
  | case1 cs => rfl
  | case2 p ps => rfl
  | case3 ps c cs ih => rw [map_cons, dropFolded?, asciiFold_toLower, if_pos rfl, ih]
  | case4 p ps c cs h => rw [map_cons, dropFolded?, asciiFold_toLower, if_neg h, Option.map_none]

theorem splitFolded?_toLower (ps cs : List Char) : splitFolded? ps (cs.map Char.toLower) =
    (splitFolded? ps cs).map (Prod.map (List.map Char.toLower) (List.map Char.toLower)) := by
  induction cs with
  | nil =>
    rw [map_nil, splitFolded?]
    cases hdrop : dropFolded? ps [] with
    | none => rfl
    | some rest =>
      have hrest := dropFolded?_toLower ps []
      rw [map_nil, hdrop, Option.map_some, Option.some.injEq] at hrest
      simp [← hrest]
  | cons c cs ih =>
    have hdrop := dropFolded?_toLower ps (c :: cs)
    rw [map_cons] at hdrop
    rw [map_cons, splitFolded?, splitFolded?, hdrop, ih]
    cases dropFolded? ps (c :: cs) with
    | some rest => rfl
    | none => cases splitFolded? ps cs <;> rfl

theorem between?_toLower (opening closing : String) (cs : List Char) :
    between? opening closing (cs.map Char.toLower) = (between? opening closing cs).map (List.map Char.toLower) := by
  rw [between?, between?, splitFolded?_toLower]
  cases splitFolded? opening.toList cs with
  | none => rfl
  | some parts =>
    show (splitFolded? closing.toList (parts.2.map Char.toLower) >>= fun x => some x.1) = _
    rw [splitFolded?_toLower]
    show _ = Option.map (List.map Char.toLower) (splitFolded? closing.toList parts.2 >>= fun x => some x.1)
    cases splitFolded? closing.toList parts.2 <;> rfl

theorem map_intercalate {α β : Type} (f : α → β) (sep : List α) (parts : List (List α)) :
    (sep.intercalate parts).map f = (sep.map f).intercalate (parts.map (List.map f)) := by
  induction parts with
  | nil => rfl
  | cons part parts ih =>
    cases parts with
    | nil => simp [List.intercalate]
    | cons next parts => simpa [List.intercalate] using ih

theorem toLower_lines (lines : List String) :
    ("\n".intercalate lines).toLower = "\n".intercalate (lines.map String.toLower) := by
  rw [← String.toList_inj, toList_toLower, String.toList_intercalate, String.toList_intercalate, map_intercalate,
    map_map, map_map, show "\n".toList.map Char.toLower = "\n".toList by decide]
  congr 1
  exact map_congr_left fun line _ => (toList_toLower line).symm

end Text

namespace Doc

theorem isQuote_toLower : ∀ c : Char, isQuote c.toLower = isQuote c := toLower_invariant (by decide)

theorem skipBlanks_toLower (cs : List Char) : skipBlanks (cs.map Char.toLower) = (skipBlanks cs).map Char.toLower :=
  dropWhile_toLower isBlank_toLower cs

theorem param?_toLower (cs : List Char) : param? (cs.map Char.toLower) =
    (param? cs).map (Prod.map (List.map Char.toLower) (List.map Char.toLower)) := by
  have hother : ∀ c : Char, (!isQuote c.toLower) = !isQuote c := fun c => by rw [isQuote_toLower]
  rw [param?, param?, dropFolded?_toLower]
  rcases dropFolded? "<param".toList cs with _ | _ | ⟨c, rest⟩
  · rfl
  · rfl
  simp only [Option.map_some, map_cons, isBlank_toLower, skipBlanks_toLower, dropFolded?_toLower]
  by_cases hblank : isBlank c = true
  · simp only [hblank, Bool.not_true, Bool.false_eq_true, if_false]
    rcases dropFolded? "name".toList (skipBlanks rest) with _ | rest
    · rfl
    simp only [Option.map_some, skipBlanks_toLower]
    rcases skipBlanks rest with _ | ⟨e, rest⟩
    · rfl
    by_cases he : e = '='
    · subst he
      simp only [map_cons, show '='.toLower = '=' by decide, skipBlanks_toLower]
      rcases skipBlanks rest with _ | ⟨q, rest⟩
      · rfl
      simp only [map_cons, isQuote_toLower, dropWhile_toLower (p := fun c => !isQuote c) hother,
        takeWhile_toLower (p := fun c => !isQuote c) hother]
      cases isQuote q with
      | false => rfl
      | true => cases rest.dropWhile fun c => !isQuote c <;> rfl
    · have he' : e.toLower ≠ '=' := fun h => he ((toLower_eq_iff (by decide) e).1 h)
      simp [he, he']
  · simp [hblank]

theorem paramNames_of_some {name after : List Char} (h : param? (c :: cs) = some (name, after)) :
    paramNames (c :: cs) = String.ofList name :: paramNames after := by
  rw [paramNames]
  split
  · next hparam =>
    obtain ⟨rfl, rfl⟩ := Prod.mk.inj (Option.some.inj (hparam.symm.trans h))
    rfl
  · next hparam => cases hparam.symm.trans h

theorem paramNames_of_none (h : param? (c :: cs) = none) :
    paramNames (c :: cs) = paramNames cs := by
  rw [paramNames]
  split
  · next hparam => cases hparam.symm.trans h
  · rfl

theorem paramNames_toLower (cs : List Char) :
    paramNames (cs.map Char.toLower) = (paramNames cs).map String.toLower := by
  fun_induction paramNames cs with
  | case1 => rw [map_nil, paramNames, map_nil]
  | case2 c cs name after h ih =>
    have hparam := param?_toLower (c :: cs)
    rw [h, map_cons] at hparam
    rw [map_cons, paramNames_of_some hparam, ih, map_cons, toLower_ofList]
  | case3 c cs h ih =>
    have hparam := param?_toLower (c :: cs)
    rw [h, map_cons] at hparam
    rw [map_cons, paramNames_of_none hparam, ih]

theorem line_toLower (c : Comment) : line c.toLower = (line c).toLower := by
  rw [line, line, strip_toLower, toLower_ofList, map_drop, ← toList_toLower]
  rfl

theorem tagText?_toLower (opening closing text : String) :
    tagText? opening closing text.toLower = (tagText? opening closing text).map String.toLower := by
  rw [tagText?, tagText?, toList_toLower, between?_toLower, Option.map_map, Option.map_map]
  refine Option.map_congr fun cs _ => ?_
  rw [Function.comp_apply, Function.comp_apply, strip_toLower, toLower_ofList]

theorem ofComments?_seen (cs : List Comment) :
    ofComments? (cs.map Comment.toLower) = (ofComments? cs).map (Doc.seen .caseless) := by
  cases cs with
  | nil => rfl
  | cons first rest =>
    have htext : "\n".intercalate (((first :: rest).map Comment.toLower).map line) =
        ("\n".intercalate ((first :: rest).map line)).toLower := by
      rw [toLower_lines, map_map, map_map]
      exact congrArg _ (map_congr_left fun c _ => line_toLower c)
    have hlast : ((rest.map Comment.toLower).getLastD first.toLower).span =
        (rest.getLastD first).span := by
      rw [getLastD_map]
      rfl
    simp only [map_cons] at htext
    simp only [map_cons, ofComments?, htext, hlast, tagText?_toLower, toList_toLower,
      paramNames_toLower, Option.map_some]
    rfl

end Doc

/-! ## Members -/

/-- Properties with their texts seen. Their names in lower case stay. -/
def Properties.seen (v : View) (ps : Properties) : Properties := ps.map (Prod.map id (Property.seen v))

def Trigger.seen (v : View) (t : Trigger) : Trigger :=
  { t with
    name := v.see t.name
    body := Stmt.seenAll v t.body
    vars := t.vars.map (Variable.seen v)
    parameters := t.parameters.map (Parameter.seen v)
    owner := t.owner.map v.see }

def Triggers.seen (v : View) (ts : Triggers) : Triggers := ts.map (Prod.map id (Trigger.seen v))

def Procedure.seen (v : View) (p : Procedure) : Procedure :=
  { p with
    name := v.see p.name
    parameters := p.parameters.map (Parameter.seen v)
    returnType := p.returnType.map (TypeRef.seen v)
    returnName := p.returnName.map v.see
    doc := p.doc.map (Doc.seen v)
    attributes := p.attributes.map v.see
    vars := p.vars.map (Variable.seen v)
    body := Stmt.seenAll v p.body }

/-- A field of a table with its texts seen. -/
def Field.seen (v : View) (f : Field) : Field :=
  { f with
    name := v.see f.name
    type := f.type.map (TypeRef.seen v)
    properties := f.properties.seen v
    triggers := f.triggers.seen v
    doc := f.doc.map (Doc.seen v) }

def TableKey.seen (v : View) (k : TableKey) : TableKey :=
  { k with name := v.see k.name, fields := k.fields.map v.see, properties := k.properties.seen v }

def PageField.seen (v : View) (f : PageField) : PageField :=
  { f with
    name := v.see f.name
    source := v.see f.source
    properties := f.properties.seen v
    triggers := f.triggers.seen v }

def PageAction.seen (v : View) (a : PageAction) : PageAction :=
  { a with name := v.see a.name, properties := a.properties.seen v, triggers := a.triggers.seen v }

def EnumValue.seen (v : View) (x : EnumValue) : EnumValue :=
  { x with name := v.see x.name, properties := x.properties.seen v }

/-- What is particular to a kind of declaration, with its texts seen. -/
def Contents.seen (v : View) : Contents → Contents
  | .table fields keys modifications =>
    .table (fields.map (Field.seen v)) (keys.map (TableKey.seen v)) (modifications.map (Field.seen v))
  | .processUnit => .processUnit
  | .page fields actions => .page (fields.map (PageField.seen v)) (actions.map (PageAction.seen v))
  | .enumeration values => .enumeration (values.map (EnumValue.seen v))

/-- A declaration with its texts seen. The keyword that starts it is in lower case already. -/
def Declaration.seen (v : View) (d : Declaration) : Declaration :=
  { d with
    name := v.see d.name
    extends? := d.extends?.map v.see
    properties := d.properties.seen v
    vars := d.vars.map (Variable.seen v)
    triggers := d.triggers.seen v
    procedures := d.procedures.map (Procedure.seen v)
    contents := d.contents.seen v }

namespace Declaration

theorem properties_seen {v : View} (ps : List Property) :
    (Properties.ofList ps).seen v = Properties.ofList (ps.map (Property.seen v)) := by
  rw [Properties.seen, Properties.ofList, Keyed.map_ofList, Properties.ofList, map_map, map_map]
  congr 1
  refine map_congr_left fun p _ => ?_
  show (Text.lower p.name, p.seen v) = (Text.lower (v.see p.name), p.seen v)
  rw [v.lower_see]

theorem triggersOf_seen (owner : Option String) (codes : List CodeMember) :
    (triggersOf owner codes).seen .caseless =
      triggersOf (owner.map View.caseless.see) (codes.map (CodeMember.seen .caseless)) := by
  rw [Triggers.seen, triggersOf, Keyed.map_ofList, triggersOf, filter_map, map_map, map_map]
  congr 1
  refine map_congr_left fun c _ => ?_
  show (Text.lower c.name, (trigger owner c).seen .caseless) =
    (Text.lower (View.caseless.see c.name), trigger (owner.map View.caseless.see) (c.seen .caseless))
  rw [View.lower_see]
  rfl

theorem procedure_seen (c : CodeMember) : (procedure c).seen .caseless = procedure (c.seen .caseless) := by
  rw [procedure, procedure, Procedure.seen]
  simp only [← Doc.ofComments?_seen]
  rfl

/-! ## Elements that look the same -/

/-- What is seen of two elements that look the same. -/
structure Alike (e e' : Element) : Prop where
  keyword : e.keyword = e'.keyword
  span : e.span = e'.span
  args : List.Forall₂ (Token.Likes .caseless) e.args e'.args
  properties : e.properties.map (Property.seen .caseless) = e'.properties.map (Property.seen .caseless)
  children : e.children.map (Element.seen .caseless) = e'.children.map (Element.seen .caseless)
  codes : e.codes.map (CodeMember.seen .caseless) = e'.codes.map (CodeMember.seen .caseless)
  vars : e.vars.map (Variable.seen .caseless) = e'.vars.map (Variable.seen .caseless)
  doc : e.doc.map Comment.toLower = e'.doc.map Comment.toLower

theorem alike_of_seen {e e' : Element} (h : e.seen .caseless = e'.seen .caseless) : Alike e e' := by
  obtain ⟨keyword, span, args, properties, children, codes, vars, doc⟩ := e
  obtain ⟨keyword', span', args', properties', children', codes', vars', doc'⟩ := e'
  simp only [Element.seen, Element.seenAll_eq_map, Element.mk.injEq] at h
  obtain ⟨hkeyword, hspan, hargs, hproperties, hchildren, hcodes, hvars, hdoc⟩ := h
  exact ⟨hkeyword, hspan, (forall₂_of_map_eq hargs).imp fun _ _ => Token.likes_caseless, hproperties, hchildren,
    hcodes, hvars, hdoc⟩

theorem forall₂_alike (h : es.map (Element.seen .caseless) = es'.map (Element.seen .caseless)) :
    List.Forall₂ Alike es es' :=
  (forall₂_of_map_eq h).imp fun _ _ => alike_of_seen

variable {ts ts' : List Token}

theorem name?_like (h : Token.Likes .caseless ts ts') :
    (name? ts).map View.caseless.see = (name? ts').map View.caseless.see := by
  rcases h with _ | ⟨ht, _ | _⟩
  · rfl
  · rw [name?, name?, ht.isName_eq]
    split
    · exact congrArg some ht.see_value
    · rfl
  · rfl

theorem number?_like (h : Token.Likes .caseless ts ts') : number? ts = number? ts' := by
  rcases h with _ | ⟨ht, _ | _⟩
  · rfl
  · rw [number?, number?, ht.kind_eq, View.wholeNumber?_eq ht.see_value]
  · rfl

theorem any_isQuoted_like (h : Token.Likes .caseless ts ts') : ts.any Token.isQuoted = ts'.any Token.isQuoted := by
  induction h with
  | nil => rfl
  | cons ht _ ih => rw [any_cons, any_cons, ht.isQuoted_eq, ih]

theorem commaParts_like (h : Token.Likes .caseless ts ts') :
    List.Forall₂ (Token.Likes .caseless) (commaParts ts) (commaParts ts') := by
  have hsplit : List.Forall₂ (Token.Likes .caseless) (ts.splitOnP (·.isOp ",")) (ts'.splitOnP (·.isOp ",")) := by
    induction h with
    | nil => exact .cons .nil .nil
    | cons ht _ ih =>
      rw [splitOnP_cons_eq_if_modifyHead, splitOnP_cons_eq_if_modifyHead, ht.isOp_eq]
      split
      · exact .cons .nil ih
      · generalize List.splitOnP _ _ = parts at ih ⊢
        generalize List.splitOnP _ _ = parts' at ih ⊢
        cases ih with
        | nil => exact .nil
        | cons hpart hparts => exact .cons (.cons ht hpart) hparts
  refine rel_filter ?_ hsplit
  intro part part' hpart
  cases hpart <;> simp

/-- What is seen of what became of an element: what was made of it, and the places of the issues. -/
def Built.seen {α β : Type} (f : α → β) (b : Built α) : Option β × List Span :=
  (b.value.map f, b.issues.map Issue.span)

namespace Alike

variable {e e' : Element} (h : Alike e e')

include h

theorem firstArg : Token.Likes .caseless (e.args.headD []) (e'.args.headD []) := by
  have hargs := h.args
  generalize e.args = args at hargs ⊢
  generalize e'.args = args' at hargs ⊢
  rcases hargs with _ | ⟨hts, _⟩
  · exact .nil
  · exact hts

theorem secondArg : Token.Likes .caseless (e.args.getD 1 []) (e'.args.getD 1 []) := by
  have hargs := h.args
  generalize e.args = args at hargs ⊢
  generalize e'.args = args' at hargs ⊢
  rcases hargs with _ | ⟨_, _ | ⟨hts, _⟩⟩
  · exact .nil
  · exact .nil
  · exact hts

theorem properties_eq : (Properties.ofList e.properties).seen .caseless =
    (Properties.ofList e'.properties).seen .caseless := by
  rw [properties_seen, h.properties, properties_seen]

theorem triggers_eq {owner owner' : String} (howner : View.caseless.see owner = View.caseless.see owner') :
    (triggersOf (some owner) e.codes).seen .caseless = (triggersOf (some owner') e'.codes).seen .caseless := by
  rw [triggersOf_seen, h.codes, Option.map_some, howner, triggersOf_seen, Option.map_some]

theorem doc_eq : (Doc.ofComments? e.doc).map (Doc.seen .caseless) = (Doc.ofComments? e'.doc).map
    (Doc.seen .caseless) := by
  rw [← Doc.ofComments?_seen, h.doc, Doc.ofComments?_seen]

theorem misplaced_eq (owner owner' : String) :
    (misplaced owner e.codes).map Issue.span = (misplaced owner' e'.codes).map Issue.span := by
  have hspans : ∀ (owner : String) (codes : List CodeMember), (misplaced owner codes).map Issue.span =
      ((codes.map (CodeMember.seen .caseless)).filter (·.kind == .procedure)).map CodeMember.span := by
    intro owner codes
    rw [misplaced, map_map, filter_map, map_map]
    rfl
  rw [hspans, h.codes, hspans]

theorem drop_eq {α β : Type} (f : α → β) (complaint complaint' : Complaint) :
    (Built.drop complaint e.span : Built α).seen f = (Built.drop complaint' e'.span).seen f := by
  rw [h.span]
  rfl

theorem modification_eq : (modification e).seen (Field.seen .caseless) = (modification e').seen
    (Field.seen .caseless) := by
  rw [modification, modification]
  rcases cases_of_option_map_eq (name?_like h.firstArg) with ⟨hnone, hnone'⟩ | ⟨name, name', hname, hname', hsee⟩
  · rw [hnone, hnone']
    exact h.drop_eq _ _ _
  · rw [hname, hname']
    simp only [Built.seen, Option.map_some, Field.seen, hsee, h.span, any_isQuoted_like h.firstArg, h.properties_eq,
      h.triggers_eq hsee, h.misplaced_eq name name', Option.map_none]

variable {inp inp' : Reading.Input} (hinp : inp.Like .caseless inp')

include hinp

theorem field_eq : (field inp e).map (Built.seen (Field.seen .caseless)) =
    (field inp' e').map (Built.seen (Field.seen .caseless)) := by
  have hdrop : Except.map (Built.seen (Field.seen .caseless))
    (.ok (.drop .incompleteField e.span) : Except Oversized _) =
      Except.map (Built.seen (Field.seen .caseless)) (.ok (.drop .incompleteField e'.span)) :=
    congrArg Except.ok (h.drop_eq _ _ _)
  have hargs := h.args
  rw [field, field]
  generalize e.args = args at hargs ⊢
  generalize e'.args = args' at hargs ⊢
  rcases hargs with _ | ⟨hid, _ | ⟨hnameArg, _ | ⟨_ | ⟨hfirst, hrest⟩, _⟩⟩⟩
  · exact hdrop
  · exact hdrop
  · exact hdrop
  · exact hdrop
  · dsimp only
    rw [number?_like hid]
    rcases number? _ with _ | _ | id
    · rfl
    · exact hdrop
    rcases cases_of_option_map_eq (name?_like hnameArg) with ⟨hnone, hnone'⟩ | ⟨name, name', hname, hname', hsee⟩
    · rw [hnone, hnone']
      exact hdrop
    · have htype := Reading.typeRef_like hinp hfirst hrest
      rw [Likeness.toView_caseless] at htype
      rw [hname, hname']
      refine congrArg Except.ok ?_
      simp only [Built.seen, Option.map_some, Field.seen, hsee, h.span, any_isQuoted_like hnameArg, h.properties_eq,
        h.triggers_eq hsee, h.misplaced_eq name name', h.doc_eq, htype]

omit h in
theorem keyField_like {part part' : List Token} (hpart : Token.Likes .caseless part part') :
    (keyField inp part).toLower = (keyField inp' part').toLower := by
  have htext := hinp.textOf hpart
  rw [keyField, keyField]
  rcases cases_of_option_map_eq (name?_like hpart) with ⟨hnone, hnone'⟩ | ⟨name, name', hname, hname', hsee⟩
  · rw [hnone, hnone']
    exact htext
  · have hempty : name = "" ↔ name' = "" := by
      rw [← toLower_eq_empty, show name.toLower = name'.toLower from hsee, toLower_eq_empty]
    rw [hname, hname']
    by_cases hn : name = ""
    · rw [hempty.1 hn, hn]
      exact htext
    · rw [Option.filter_some, Option.filter_some, if_pos (by simpa using hn), if_pos (by simpa using mt hempty.2 hn)]
      exact hsee

theorem key_eq : (key inp e).seen (TableKey.seen .caseless) = (key inp' e').seen (TableKey.seen .caseless) := by
  have hfields : ((commaParts (e.args.getD 1 [])).map (keyField inp)).map String.toLower =
      ((commaParts (e'.args.getD 1 [])).map (keyField inp')).map String.toLower := by
    rw [map_map, map_map]
    exact map_eq_of_forall₂ (fun _ _ hpart => keyField_like hinp hpart) (commaParts_like h.secondArg)
  rw [key, key]
  rcases cases_of_option_map_eq (name?_like h.firstArg) with ⟨hnone, hnone'⟩ | ⟨name, name', hname, hname', hsee⟩
  · rw [hnone, hnone']
    exact h.drop_eq _ _ _
  · rw [hname, hname']
    dsimp only
    generalize (commaParts (e.args.getD 1 [])).map (keyField inp) = fields at hfields ⊢
    generalize (commaParts (e'.args.getD 1 [])).map (keyField inp') = fields' at hfields ⊢
    rcases fields with _ | ⟨first, rest⟩ <;> rcases fields' with _ | ⟨first', rest'⟩
    · exact h.drop_eq _ _ _
    · cases hfields
    · cases hfields
    · simp only [Built.seen, Option.map_some, TableKey.seen, hsee, h.span, h.properties_eq,
        show View.caseless.see = String.toLower from rfl, hfields]

omit hinp in
theorem enumValue_eq : (enumValue e).map (Built.seen (EnumValue.seen .caseless)) =
    (enumValue e').map (Built.seen (EnumValue.seen .caseless)) := by
  have hdrop : Except.map (Built.seen (EnumValue.seen .caseless))
      (.ok (.drop .incompleteEnumValue e.span) : Except Oversized _) =
      Except.map (Built.seen (EnumValue.seen .caseless)) (.ok (.drop .incompleteEnumValue e'.span)) :=
    congrArg Except.ok (h.drop_eq _ _ _)
  rw [enumValue, enumValue, number?_like h.firstArg]
  rcases number? _ with _ | _ | ordinal
  · rfl
  · exact hdrop
  rcases cases_of_option_map_eq (name?_like h.secondArg) with ⟨hnone, hnone'⟩ | ⟨name, name', hname, hname', hsee⟩
  · rw [hnone, hnone']
    exact hdrop
  · rw [hname, hname']
    refine congrArg Except.ok ?_
    simp only [Built.seen, Option.map_some, EnumValue.seen, hsee, h.span, h.properties_eq]

theorem pageField_eq : (pageField inp e).seen (PageField.seen .caseless) =
    (pageField inp' e').seen (PageField.seen .caseless) := by
  rw [pageField, pageField]
  rcases cases_of_option_map_eq (name?_like h.firstArg) with ⟨hnone, hnone'⟩ | ⟨name, name', hname, hname', hsee⟩
  · rw [hnone, hnone']
    exact h.drop_eq _ _ _
  · have hsource : View.caseless.see (inp.textOf (e.args.getD 1 [])) = View.caseless.see
      (inp'.textOf (e'.args.getD 1 [])) :=
      hinp.textOf h.secondArg
    rw [hname, hname']
    simp only [Built.seen, Option.map_some, PageField.seen, hsee, h.span, hsource, h.properties_eq,
      h.triggers_eq hsee, h.misplaced_eq name name']

omit hinp in
theorem pageAction_eq : (pageAction e).seen (PageAction.seen .caseless) = (pageAction e').seen
    (PageAction.seen .caseless) := by
  rw [pageAction, pageAction]
  rcases cases_of_option_map_eq (name?_like h.firstArg) with ⟨hnone, hnone'⟩ | ⟨name, name', hname, hname', hsee⟩
  · rw [hnone, hnone']
    exact h.drop_eq _ _ _
  · rw [hname, hname']
    simp only [Built.seen, Option.map_some, PageAction.seen, hsee, h.span, h.properties_eq, h.triggers_eq hsee,
      h.misplaced_eq name name']

end Alike

/-! ## Contents -/

/-- What is seen of something and of the issues with it: of these the places only. -/
def noted {α β : Type} (f : α → β) (found : α × List Issue) : β × List Span := (f found.1, found.2.map Issue.span)

theorem noted_collect {α β : Type} (f : α → β) (bs : List (Built α)) : noted (List.map f) (collect bs) =
    ((bs.map (Built.seen f)).flatMap fun b => b.1.toList, (bs.map (Built.seen f)).flatMap Prod.snd) := by
  induction bs with
  | nil => rfl
  | cons b bs ih =>
    obtain ⟨hvalues, hissues⟩ := Prod.mk.inj ih
    rw [map_cons, flatMap_cons, flatMap_cons, ← hvalues, ← hissues]
    cases b with
    | mk value issues => cases value <;> simp [noted, collect, Built.seen]

theorem noted_collect_eq {α β : Type} {f : α → β} {bs bs' : List (Built α)}
    (h : bs.map (Built.seen f) = bs'.map (Built.seen f)) :
    noted (List.map f) (collect bs) = noted (List.map f) (collect bs') := by
  rw [noted_collect, h, noted_collect]

theorem noted_collect_map_eq {α β : Type} {f : α → β}
    (hes : es.map (Element.seen .caseless) = es'.map (Element.seen .caseless)) {g g' : Element → Built α}
    (hg : ∀ e e', Alike e e' → (g e).seen f = (g' e').seen f) :
    noted (List.map f) (collect (es.map g)) = noted (List.map f) (collect (es'.map g')) := by
  refine noted_collect_eq ?_
  rw [map_map, map_map]
  exact map_eq_of_forall₂ hg (forall₂_alike hes)

theorem children_seen (e : Element) : (e.seen v).children = e.children.map (Element.seen v) := by
  cases e
  exact Element.seenAll_eq_map v _

theorem keyword_seen (e : Element) : (e.seen v).keyword = e.keyword := by
  cases e
  rfl

theorem filter_keyword_seen (keyword : String) (es : List Element) :
    (es.map (Element.seen v)).filter (·.keyword == keyword) = (es.filter (·.keyword == keyword)).map
      (Element.seen v) := by
  rw [filter_map]
  congr 2
  funext e
  rw [Function.comp_apply, keyword_seen]

theorem inSections_seen (keyword : String) (e : Element) :
    (inSections keyword e).map (Element.seen v) = inSections keyword (e.seen v) := by
  rw [inSections, inSections, children_seen, filter_keyword_seen, flatMap_map, map_flatMap]
  simp only [children_seen]

mutual

theorem below_seen : ∀ e : Element, (below e).map (Element.seen v) = below (e.seen v)
  | ⟨_, _, _, _, children, _, _, _⟩ => by
    rw [below, Element.seen, below, allBelow_seen children]

theorem allBelow_seen : ∀ es : List Element, (allBelow es).map (Element.seen v) = allBelow (Element.seenAll v es)
  | [] => rfl
  | e :: es => by
    rw [allBelow, Element.seenAll, allBelow, map_cons, map_append, below_seen e, allBelow_seen es]

end

theorem belowSections_seen (keyword inner : String) (e : Element) :
    (belowSections keyword inner e).map (Element.seen v) = belowSections keyword inner (e.seen v) := by
  rw [belowSections, belowSections, children_seen, filter_keyword_seen, flatMap_map, ← filter_keyword_seen,
    map_flatMap]
  simp only [below_seen]

section Contents

variable {inp inp' : Reading.Input} (hinp : inp.Like .caseless inp') {e e' : Element}

include hinp

theorem fieldOrChange_eq (h : Alike e e') :
    (fieldOrChange inp e).map (Built.seen (Sum.map (Field.seen .caseless) (Field.seen .caseless))) =
      (fieldOrChange inp' e').map (Built.seen (Sum.map (Field.seen .caseless) (Field.seen .caseless))) := by
  have hbuilt : ∀ (side : Field → Field ⊕ Field) (b : Built Field),
    (∀ f, Sum.map (Field.seen .caseless) (Field.seen .caseless)
      (side f) = side (f.seen .caseless)) →
        (b.map side).seen (Sum.map (Field.seen .caseless) (Field.seen .caseless)) =
      ((b.seen (Field.seen .caseless)).1.map side, (b.seen (Field.seen .caseless)).2) := by
    intro side b hside
    simp only [Built.seen, Built.map, Option.map_map]
    congr 2
    funext f
    exact hside f
  rw [fieldOrChange, fieldOrChange, h.keyword]
  split
  · have hmap : ∀ x : Except Oversized (Built Field),
        (x.map (·.map Sum.inl)).map (Built.seen (Sum.map (Field.seen .caseless) (Field.seen .caseless))) =
          (x.map (Built.seen (Field.seen .caseless))).map fun b => (b.1.map Sum.inl, b.2) := by
      intro x
      cases x with
      | error o => rfl
      | ok b => exact congrArg Except.ok (hbuilt .inl b fun _ => rfl)
    rw [hmap, h.field_eq hinp, hmap]
  · refine congrArg Except.ok ?_
    rw [hbuilt .inr _ fun _ => rfl, h.modification_eq, hbuilt .inr _ fun _ => rfl]
  · rfl

omit hinp in
theorem map_getLeft {α β : Type} (f g : α → β) (xs : List (α ⊕ α)) :
    (xs.filterMap Sum.getLeft?).map f = (xs.map (Sum.map f g)).filterMap Sum.getLeft? := by
  rw [map_filterMap, filterMap_map]
  congr 1
  funext x
  cases x <;> rfl

omit hinp in
theorem map_getRight {α β : Type} (f g : α → β) (xs : List (α ⊕ α)) :
    (xs.filterMap Sum.getRight?).map g = (xs.map (Sum.map f g)).filterMap Sum.getRight? := by
  rw [map_filterMap, filterMap_map]
  congr 1
  funext x
  cases x <;> rfl

variable (h : e.seen .caseless = e'.seen .caseless)

include h

theorem tableContents_eq : (tableContents inp e).map (noted (Contents.seen .caseless)) =
    (tableContents inp' e').map (noted (Contents.seen .caseless)) := by
  have hfields : (inSections "fields" e).map (Element.seen .caseless) =
      (inSections "fields" e').map (Element.seen .caseless) := by
    rw [inSections_seen, h, inSections_seen]
  have hkeys : ((inSections "keys" e).filter (·.keyword == "key")).map (Element.seen .caseless) =
      ((inSections "keys" e').filter (·.keyword == "key")).map (Element.seen .caseless) := by
    rw [← filter_keyword_seen, ← filter_keyword_seen, inSections_seen, h, inSections_seen]
  have hkeys := noted_collect_map_eq hkeys fun e e' he => he.key_eq hinp
  rw [tableContents, tableContents]
  refine map_bind_eq (mapM_eq_of_forall₂ (fun _ _ he => fieldOrChange_eq hinp he) (forall₂_alike hfields))
    fun built built' hbuilt => ?_
  have hparts := noted_collect_eq hbuilt
  obtain ⟨hvalues, hissues⟩ := Prod.mk.inj hparts
  obtain ⟨hkeyValues, hkeyIssues⟩ := Prod.mk.inj hkeys
  refine congrArg Except.ok ?_
  simp only [noted, Contents.seen, map_getLeft (Field.seen .caseless) (Field.seen .caseless),
    map_getRight (Field.seen .caseless) (Field.seen .caseless), hvalues, hissues, hkeyValues, hkeyIssues, map_append]

theorem pageContents_eq : noted (Contents.seen .caseless) (pageContents inp e) =
    noted (Contents.seen .caseless) (pageContents inp' e') := by
  have hbelow : ∀ keyword inner, (belowSections keyword inner e).map (Element.seen .caseless) =
      (belowSections keyword inner e').map (Element.seen .caseless) := by
    intro keyword inner
    rw [belowSections_seen, h, belowSections_seen]
  obtain ⟨hfields, hissues⟩ :=
    Prod.mk.inj (noted_collect_map_eq (hbelow "layout" "field") fun e e' he => he.pageField_eq hinp)
  obtain ⟨hactions, hactionIssues⟩ :=
    Prod.mk.inj (noted_collect_map_eq (hbelow "actions" "action") fun e e' he => he.pageAction_eq)
  simp only [pageContents, noted, Contents.seen, hfields, hissues, hactions, hactionIssues, map_append]

omit hinp in
theorem enumContents_eq : (enumContents e).map (noted (Contents.seen .caseless)) =
    (enumContents e').map (noted (Contents.seen .caseless)) := by
  have hvalues : (e.children.filter (·.keyword == "value")).map (Element.seen .caseless) =
      (e'.children.filter (·.keyword == "value")).map (Element.seen .caseless) := by
    rw [← filter_keyword_seen, ← filter_keyword_seen, (alike_of_seen h).children]
  rw [enumContents, enumContents]
  refine map_bind_eq (mapM_eq_of_forall₂ (fun _ _ he => he.enumValue_eq) (forall₂_alike hvalues))
    fun built built' hbuilt => ?_
  obtain ⟨hvalues, hissues⟩ := Prod.mk.inj (noted_collect_eq hbuilt)
  refine congrArg Except.ok ?_
  simp only [noted, Contents.seen, hvalues, hissues]

theorem contents?_eq : (contents? inp e).map (Option.map (noted (Contents.seen .caseless))) =
    (contents? inp' e').map (Option.map (noted (Contents.seen .caseless))) := by
  have hsome : ∀ x : Except Oversized (Contents × List Issue),
    (x.map some).map (Option.map (noted (Contents.seen .caseless))) =
      (x.map (noted (Contents.seen .caseless))).map some := by
    intro x
    cases x <;> rfl
  rw [contents?, contents?, (alike_of_seen h).keyword]
  split
  · rw [hsome, tableContents_eq hinp h, hsome]
  · rw [hsome, tableContents_eq hinp h, hsome]
  · rfl
  · exact congrArg (fun x => Except.ok (some x)) (pageContents_eq hinp h)
  · exact congrArg (fun x => Except.ok (some x)) (pageContents_eq hinp h)
  · rw [hsome, enumContents_eq h, hsome]
  · rw [hsome, enumContents_eq h, hsome]
  · rfl

end Contents

/-! ## Objects and files -/

/-- Objects that look the same become declarations that look the same. -/
theorem ofObject_eq {inp inp' : Reading.Input} (hinp : inp.Like .caseless inp') {o o' : ObjectSyntax}
    (h : o.seen .caseless = o'.seen .caseless) : (ofObject inp o).map (Built.seen (Declaration.seen .caseless)) =
      (ofObject inp' o').map (Built.seen (Declaration.seen .caseless)) := by
  obtain ⟨objectId, name, extends?, implements, body⟩ := o
  obtain ⟨objectId', name', extends?', implements', body'⟩ := o'
  simp only [ObjectSyntax.seen, ObjectSyntax.mk.injEq] at h
  obtain ⟨rfl, hname, hextends, -, hbody⟩ := h
  have halike := alike_of_seen hbody
  have htriggers : (triggersOf none body.codes).seen .caseless = (triggersOf none body'.codes).seen .caseless := by
    rw [triggersOf_seen, halike.codes, triggersOf_seen]
  have hprocedures : ∀ codes : List CodeMember,
      ((codes.filter (·.kind == .procedure)).map procedure).map (Procedure.seen .caseless) =
        ((codes.map (CodeMember.seen .caseless)).filter (·.kind == .procedure)).map procedure := by
    intro codes
    rw [filter_map, map_map, map_map]
    exact map_congr_left fun c _ => procedure_seen c
  rw [ofObject, ofObject]
  refine map_bind_eq (contents?_eq hinp hbody) fun found found' hfound => ?_
  rcases cases_of_option_map_eq hfound with ⟨rfl, rfl⟩ | ⟨⟨contents, issues⟩, ⟨contents', issues'⟩, rfl, rfl, hnoted⟩
  · rfl
  obtain ⟨hcontents, hissues⟩ := Prod.mk.inj hnoted
  refine congrArg Except.ok ?_
  simp only [Built.seen, Option.map_some, Declaration.seen, halike.keyword, halike.span, hname, hextends,
    halike.properties_eq, halike.vars, htriggers, hprocedures, halike.codes, hcontents, hissues]

end Declaration

/-- What is seen of a file and of the issues with it: its path and its declarations, and the places of the issues. -/
def SourceFile.seen (v : View) (found : SourceFile × List Issue) : String × List Declaration × List Span :=
  (found.1.path, found.1.declarations.map (Declaration.seen v), found.2.map Issue.span)

theorem SyntaxTree.ofText_caseless {text : String} (h : text.toLower = text'.toLower) :
    (SyntaxTree.ofText text).map (fun t => (t.objects.map (ObjectSyntax.seen .caseless), t.issues.map Issue.span)) =
      (SyntaxTree.ofText text').map fun t =>
        (t.objects.map (ObjectSyntax.seen .caseless), t.issues.map Issue.span) := by
  obtain ⟨hinp, hcursor⟩ := Scan.open_like h
  rw [SyntaxTree.ofText, SyntaxTree.ofText]
  dsimp only
  rcases Reading.objects_like hinp hcursor with ⟨oversized, hfound, hfound'⟩ |
    ⟨os, issues, os', issues', hfound, hfound', hobjects, ⟨_, rfl, hissues⟩, -⟩
  · rw [hfound, hfound']
    rfl
  · rw [hfound, hfound']
    exact congrArg Except.ok (Prod.ext hobjects (map_eq_of_forall₂ (fun _ _ hi => hi.place) hissues))

/-- **Two texts that differ in the case of ASCII letters hold the same declarations but for case**, and what is
wrong with them is wrong in the same places. -/
theorem SourceFile.ofText_caseless {text : String} (h : text.toLower = text'.toLower) (path : String) :
    (SourceFile.ofText path text).map (SourceFile.seen .caseless) =
      (SourceFile.ofText path text').map (SourceFile.seen .caseless) := by
  have hinp := (Scan.open_like h).1
  rw [SourceFile.ofText, SourceFile.ofText]
  refine map_bind_eq (SyntaxTree.ofText_caseless h) fun tree tree' htree => ?_
  obtain ⟨hobjects, hissues⟩ := Prod.mk.inj htree
  refine map_bind_eq (mapM_eq_of_forall₂ (fun _ _ ho => Declaration.ofObject_eq hinp ho) (forall₂_of_map_eq hobjects))
    fun built built' hbuilt => ?_
  obtain ⟨hdeclarations, hdropped⟩ := Prod.mk.inj (Declaration.noted_collect_eq hbuilt)
  refine congrArg Except.ok ?_
  simp only [SourceFile.seen, hdeclarations, map_append, hissues, hdropped]

end AlLint
