import AlLint.Proofs.Reading.Laid
import AlLint.Proofs.Source.Layout

/-!
# Spans of a syntax tree are well nested

What was shown of expressions and statements goes on to code, members and objects. Members of different kinds
may be mixed and are kept apart by their kind, so a row is what is left of them after the others have been taken
out. The variables of one declaration end together.

Since the tokens of a text come one after another, numbers of tokens turn into places: a node that is laid
between fewer tokens lies within one that is laid between more, and of two nodes that are laid in turn the first
ends before the second begins. So the outline of a text is well nested, whatever is damaged in the text.
-/

namespace AlLint.Reading

open Cursor Outline

variable {os : List Outline} {lead : Option Token}

section

variable {inp : Input} {ts : List Token} {c d e : Cursor}

/-! ## Variables and code -/

/-- Outlines somewhere between two cursors, which may overlap. -/
def Holds (ts : List Token) (c d : Cursor) (os : List Outline) : Prop := ∀ o ∈ os, Laid ts c.size d.size [o]

theorem Holds.mono {c' d' : Cursor} (h : Holds ts c d os) (hl : c'.Leads c) (hl' : d.Leads d') :
    Holds ts c' d' os :=
  fun o ho => (h o ho).mono hl.suffix.length_le hl'.suffix.length_le

theorem Holds.append {os' : List Outline} (h : Holds ts c d os) (h' : Holds ts c d os') :
    Holds ts c d (os ++ os') := by
  intro o ho
  rcases List.mem_append.1 ho with ho | ho
  · exact h o ho
  · exact h' o ho

theorem Laid.exists_spans {a b : Nat} (h : Laid ts a b os) {o : Outline} (ho : o ∈ os) :
    ∃ a' b', a' ≤ a ∧ b ≤ b' ∧ Spans ts a' b' o.span := by
  induction h with
  | nil => cases ho
  | @cons a a' b' b _ _ _ _ _ ha hs _ _ _ _ hrest _ _ ih =>
    have hlt := hs.lt
    rcases List.mem_cons.1 ho with rfl | ho
    · exact ⟨_, _, ha, hrest.le, hs⟩
    · obtain ⟨a₁, b₁, ha₁, hb₁, hs₁⟩ := ih ho
      exact ⟨a₁, b₁, by omega, hb₁, hs₁⟩

/-- A span that starts with one and ends with another that ends later. -/
theorem Spans.covering {a a' b b' : Nat} {s s' : Span} (h : Spans ts a b s) (h' : Spans ts a' b' s') (hb : b' ≤ b) :
    Spans ts a b' (Span.covering s s') := by
  obtain ⟨hlt, hle, first, _, hfirst, _, rfl⟩ := h
  obtain ⟨_, _, _, last, _, hlast, rfl⟩ := h'
  exact ⟨Nat.lt_of_le_of_lt hb hlt, hle, first, last, hfirst, hlast, rfl⟩

theorem finds_names {context : String} {c : Cursor} (hc : Among ts c) :
    (names inp context c).Yields fun group d => Finds ts c d ((group.1 :: group.2).map fun t => leaf t.span) := by
  rw [names]
  refine (finds_expect hc).andThen fun h => ?_
  split
  · exact h
  · next t c₂ h₂ hop => exact (h.take hop).andThen finds_names id
termination_by c.size
decreasing_by all_goals omega

/-- The variables of one declaration each go from their name to where the declaration ends. -/
theorem holds_declaration (hc : Among ts c) :
    (declaration inp c).Yields fun vars d => Holds ts c d (vars.map Variable.outline) := by
  unfold declaration
  refine (finds_names hc).andThen fun h => ?_
  refine h.expect.andThen fun {_ c₂ h₂} h => ?_
  have hl := leads_collected (fun t => t.isOp ";" || t.isWordIn sectionWords) c₂
  split
  · trivial
  · next first rest c₃ h₃ heq =>
    rw [heq] at hl
    extract_lets c₄
    have hl₄ : c₃.Leads c₄.1 := by
      simp only [c₄]
      split
      · next hop => exact leads_of_take hop
      · exact leads_report _ _ _
    have hall : c₂.Leads c₄.1 := Leads.trans hl hl₄
    have hle := hall.suffix.length_le
    have hspan := spans_covering inp hc.suffix (h.leads.trans hall) (by omega)
    intro o ho
    rw [List.map_map, List.mem_map] at ho
    obtain ⟨name, hname, rfl⟩ := ho
    -- the span starts with that of the name and ends with that of the whole declaration
    obtain ⟨a, b, ha, hb, hs⟩ := h.laid.exists_spans (List.mem_map_of_mem hname)
    have hb : c₄.1.size ≤ b := by omega
    exact (Laid.row (hs.covering hspan hb) (.nil (Nat.le_trans hb hs.lt.le))).mono ha (Nat.le_refl _)

theorem holds_declarations {c : Cursor} (hc : Among ts c) :
    Holds ts c (declarations inp c).next ((declarations inp c).value.map Variable.outline) := by
  rw [declarations]
  split
  · exact nofun
  · next t rest hrest =>
    dsimp only
    split
    · next hstart =>
      have hl := leads_declaration inp c
      have hvars : (declaration inp c).Yields fun vars d => Holds ts c d (vars.map Variable.outline) :=
        holds_declaration hc
      split
      · next group c₁ h₁ hread =>
        rw [hread] at hl hvars
        have hl : c.Leads c₁ := hl
        rw [List.map_append]
        exact (Holds.mono hvars (.refl c) (leads_declarations inp c₁)).append
          ((holds_declarations (hc.past hl)).mono hl (.refl _))
      · next issue c₁ h₁ hread =>
        rw [hread] at hl
        have hl₁ : c.Leads (c₁.report issue.complaint issue.span) := Leads.trans hl (leads_report _ _ _)
        have hbrace := not_brace_of_startsDeclaration hstart
        have hl₂ := hl₁.trans (leads_resumeDeclaration hrest hbrace hl₁)
        have hlt := size_resumeDeclaration_lt hrest (c₁.report issue.complaint issue.span)
        exact (holds_declarations (hc.past hl₂)).mono hl₂ (.refl _)
    · exact nofun
termination_by c.size
decreasing_by all_goals omega

theorem finds_parameters {c : Cursor} (hc : Among ts c) :
    (parameters inp c).Yields fun ps d => Finds ts c d (ps.map Parameter.outline) := by
  rw [parameters]
  have h := Finds.here hc
  split
  · next hop => exact h.take hop
  split
  · trivial
  extract_lets start hsize
  have h : Finds ts c start.2.1 [] := by
    simp only [start]
    split
    · next hop => exact h.take hop
    · exact h
  refine h.andThen finds_names fun h => ?_
  refine h.expect.andThen fun {_ c₂ _} h => ?_
  have hcollected := leads_collected (·.isOp ";") c₂
  split
  · trivial
  · next first rest c₃ h₃ heq =>
    rw [heq] at hcollected
    extract_lets these
    have h : Finds ts c c₃ (these.map Parameter.outline) := by
      simp only [these, List.map_map]
      exact h.past hcollected
    split
    · next t c₄ h₄ hop =>
      refine (h.take hop).andThen finds_parameters fun h => ?_
      rw [← List.map_append] at h
      exact h
    · exact h.expect.andThen id
termination_by c.size
decreasing_by all_goals omega

theorem finds_parameterList (hc : Among ts c) :
    (parameterList inp c).Yields fun ps d => Finds ts c d (ps.map Parameter.outline) := by
  unfold parameterList
  have h := Finds.here hc
  split
  · exact h
  · next t c₁ h₁ hop => exact ((h.take hop).reads finds_parameters).weaken

theorem holds_localVariables (hc : Among ts c) :
    Holds ts c (localVariables inp c).next ((localVariables inp c).value.map Variable.outline) := by
  unfold localVariables
  split
  · intro o ho
    cases ho
  · next t c₁ h₁ hop =>
    have hl : c.Leads c₁ := leads_of_take hop
    exact (holds_declarations (hc.past hl)).mono hl (.refl _)

theorem finds_codeBody (hc : Among ts c) :
    Finds ts c (codeBody inp c).next (Stmt.outlines ((codeBody inp c).value.getD [])) := by
  unfold codeBody
  have h := Finds.here hc
  split
  · exact h
  · next t c₁ h₁ hop => exact ((h.take hop).append (finds_compound (h.take hop).rest)).skipOp _

/-- A node with several rows and with loose children is put over what was found since it started. -/
theorem Finds.node {rows : List (List Outline)} {loose mixed : List Outline} (h : Finds ts c d mixed)
    (hrows : ∀ row ∈ rows, row.Sublist mixed) (hperm : mixed.Perm rows.flatten) (hloose : Holds ts c d loose)
    (hlt : d.size < c.size) : Finds ts c d [.node (d.spanFrom (c.head inp)) rows loose] :=
  ⟨h.among, h.leads, .node (spans_spanFrom h.among.rising h.among.suffix h.leads hlt) h.laid hrows hperm hloose⟩

theorem finds_codeHeader {attributes : List String} (hc : Among ts c) :
    (codeHeader inp attributes lead c).Yields fun m d =>
      Finds ts c d (m.parameters.map Parameter.outline) ∧ Holds ts c d (m.vars.map Variable.outline) := by
  unfold codeHeader
  extract_lets start doc front hsize
  have h : Finds ts c front.2.1 [] := by
    simp only [front]
    split
    · next hop => exact (Finds.here hc).take hop
    · exact .here hc
  refine h.expect.andThen fun h => ?_
  refine h.expect.andThen fun {name _ _} h => ?_
  refine h.andThen finds_parameterList fun {_ c₃ _} h => ?_
  have h := h.past (leads_returnName inp c₃)
  have htype := h.passes (leads_returnType inp (returnName inp c₃).next name)
  refine htype.andThen fun {_ c₅ _} h => ?_
  have hvars : Holds ts c₅ (localVariables inp c₅).next _ := holds_localVariables h.rest
  exact ⟨h.past (leads_localVariables inp c₅), hvars.mono h.leads (.refl _)⟩

theorem finds_code {attributes : List String} (hc : Among ts c) :
    (code inp attributes lead c).Yields fun m d => Finds ts c d [m.outline] := by
  refine (finds_codeHeader hc).andThen fun {m d hlt} hheader => ?_
  obtain ⟨hparameters, hvars⟩ := hheader
  have hbody : Finds ts d (codeBody inp d).next _ := finds_codeBody hparameters.rest
  have hlt' := Nat.lt_of_le_of_lt (codeBody inp d).notLonger hlt
  refine Finds.node (hparameters.append hbody) ?_ ?_ (hvars.mono (.refl c) hbody.leads) hlt'
  · intro row hrow
    rw [List.mem_singleton.1 hrow]
    exact List.Sublist.refl _
  · rw [List.flatten_singleton]
    exact List.Perm.refl _

/-! ## Members -/

theorem head_of_expect {p : Token → Bool} {complaint : Found → Complaint} :
    (c.expect inp p complaint).Yields fun t _ => c.head inp = t := by
  unfold Cursor.expect
  split
  · next hop =>
    obtain ⟨u, rest, hrest, -, hu⟩ := exists_of_take hop
    obtain rfl := Option.some.inj (Option.ite_none_right_eq_some.1 hu).2
    show c.rest.headD inp.eof = u
    rw [hrest]
    rfl
  · trivial

theorem finds_property (hc : Among ts c) : (property inp c).Yields fun p d => Finds ts c d [p.outline] := by
  unfold property
  dsimp only
  refine (Finds.here hc).expect.andThen fun h => ?_
  refine h.expect.andThen fun {_ c₂ _} h => ?_
  have hl := leads_collected (·.isOp ";") c₂
  split
  · trivial
  · next first rest c₃ h₃ hcollected =>
    rw [hcollected] at hl
    have h : Finds ts c c₃ [] := h.past hl
    split
    · next t c₄ h₄ hop => exact (h.take hop).row (by omega)
    · split
      · exact h.row (by omega)
      · trivial

def Members.rows (ms : Members) : List (List Outline) :=
  [ms.properties.map Property.outline, Element.outlines ms.children, ms.codes.map CodeMember.outline]

theorem Members.forall_rows {ms : Members} {p : List Outline → Prop} :
    (∀ row ∈ ms.rows, p row) ↔
      p (ms.properties.map Property.outline) ∧ p (Element.outlines ms.children) ∧
        p (ms.codes.map CodeMember.outline) := by
  simp [rows]

theorem Members.flatten_rows (ms : Members) : ms.rows.flatten =
    ms.properties.map Property.outline ++ (Element.outlines ms.children ++ ms.codes.map CodeMember.outline) := by
  simp [rows]

def Member.Found (ts : List Token) (c d : Cursor) : Member → Prop
  | .property p => Finds ts c d [p.outline]
  | .element e => Finds ts c d [e.outline]
  | .code m => Finds ts c d [m.outline]
  | .vars vs => Holds ts c d (vs.map Variable.outline)

/-- From `c` to `d` some members are found, mixed in some way. -/
structure Gathers (ts : List Token) (c d : Cursor) (ms : Members) : Prop where
  mixed : ∃ mixed, Finds ts c d mixed ∧ (∀ row ∈ ms.rows, row.Sublist mixed) ∧ mixed.Perm ms.rows.flatten
  vars : Holds ts c d (ms.vars.map Variable.outline)

namespace Gathers

variable {ms : Members}

theorem none (h : Finds ts c d []) : Gathers ts c d {} := by
  exact ⟨⟨[], h, Members.forall_rows.2 ⟨.slnil, .slnil, .slnil⟩, .refl _⟩, nofun⟩

theorem after (h : Finds ts c d []) (hms : Among ts d → Gathers ts d e ms) : Gathers ts c e ms := by
  obtain ⟨⟨mixed, hfinds, hrows, hperm⟩, hvars⟩ := hms h.rest
  exact ⟨⟨mixed, h.append hfinds, hrows, hperm⟩, hvars.mono h.leads (.refl e)⟩

theorem skipOp (h : Gathers ts c d ms) (op : String) : Gathers ts c (d.skipOp op).1 ms := by
  obtain ⟨⟨mixed, hfinds, hrows, hperm⟩, hvars⟩ := h
  exact ⟨⟨mixed, hfinds.skipOp op, hrows, hperm⟩, hvars.mono (.refl c) (leads_skipOp d op)⟩

theorem cons {m : Member} (hl : c.Leads d) (hm : m.Found ts c d) (h : Gathers ts d e ms) (hc : Among ts c) :
    Gathers ts c e (ms.cons m) := by
  have hvars := h.vars.mono hl (.refl e)
  obtain ⟨⟨mixed, hfinds, hrows, hperm⟩, -⟩ := h
  obtain ⟨hproperties, hchildren, hcodes⟩ := Members.forall_rows.1 hrows
  rw [Members.flatten_rows] at hperm
  -- a member goes in front of the row of its kind and of the mix, and the other rows are still part of the mix
  cases m with
  | property p =>
    refine ⟨⟨p.outline :: mixed, Finds.append hm hfinds, Members.forall_rows.2 ?_, ?_⟩, hvars⟩
    · exact ⟨hproperties.cons_cons _, hchildren.cons _, hcodes.cons _⟩
    · rw [Members.flatten_rows]
      exact hperm.cons _
  | element el =>
    refine ⟨⟨el.outline :: mixed, Finds.append hm hfinds, Members.forall_rows.2 ?_, ?_⟩, hvars⟩
    · exact ⟨hproperties.cons _, hchildren.cons_cons _, hcodes.cons _⟩
    · rw [Members.flatten_rows]
      exact (hperm.cons _).trans List.perm_middle.symm
  | code cm =>
    refine ⟨⟨cm.outline :: mixed, Finds.append hm hfinds, Members.forall_rows.2 ?_, ?_⟩, hvars⟩
    · exact ⟨hproperties.cons _, hchildren.cons _, hcodes.cons_cons _⟩
    · rw [Members.flatten_rows, ← List.append_assoc]
      rw [← List.append_assoc] at hperm
      exact (hperm.cons _).trans List.perm_middle.symm
  | vars vs =>
    refine ⟨⟨mixed, ((Finds.here hc).past hl).append hfinds, hrows, by rw [Members.flatten_rows]; exact hperm⟩, ?_⟩
    rw [Members.cons, List.map_append]
    exact (Holds.mono hm (.refl c) hfinds.leads).append hvars

theorem finds_element {el : Element} (h : Gathers ts c d ms) (hlt : d.size < c.size)
    (hspan : el.span = d.spanFrom (c.head inp)) (hproperties : el.properties = ms.properties)
    (hchildren : el.children = ms.children)
    (hcodes : el.codes = ms.codes) (hvars : el.vars = ms.vars) : Finds ts c d [el.outline] := by
  obtain ⟨⟨mixed, hfinds, hrows, hperm⟩, hloose⟩ := h
  obtain ⟨keyword, span, args, properties, children, codes, vars, doc⟩ := el
  dsimp only at hspan hproperties hchildren hcodes hvars
  subst hspan hproperties hchildren hcodes hvars
  exact hfinds.node hrows hperm hloose hlt

end Gathers

theorem holds_variableSection {words : List String} (hc : Among ts c) :
    (variableSection inp words c).Yields fun vars d => Holds ts c d (vars.map Variable.outline) := by
  fun_induction variableSection inp words c with
  | case1 c => trivial
  | case2 c word =>
    refine (yields_of_leads (leads_expect c inp _ _)).andThen fun hl => ?_
    exact (holds_declarations (hc.past hl)).mono hl (.refl _)
  | case3 c word words hwords ih =>
    refine (yields_of_leads (leads_expect c inp _ _)).andThen fun hl => ?_
    exact (ih _ (hc.past hl)).weaken.imp fun h => h.mono hl (.refl _)

mutual

theorem found_member {keyword : String} {pending : Pending} {c : Cursor} (hc : Among ts c) :
    (member inp keyword pending c).Yields fun m d => m.Found ts c d := by
  rw [member]
  split
  · exact (holds_variableSection hc).andThen id
  · exact (holds_variableSection hc).andThen id
  · exact (finds_code hc).andThen id
  · exact (finds_property hc).andThen id
  · exact (finds_element hc).andThen id
  · trivial
termination_by (c.size, 1)
decreasing_by all_goals omega

theorem finds_element {c : Cursor} (hc : Among ts c) :
    (element inp c).Yields fun e d => Finds ts c d [e.outline] := by
  rw [element]
  refine (head_of_expect.and (Finds.here hc).expect).andThen fun {keyword c₁ h₁} hkeyword => ?_
  obtain ⟨hhead, h⟩ := hkeyword
  refine (h.passes (moves_elementArguments keyword (.refl : Moves inp 0 c₁ 0 c₁)).leads).andThen
    fun {args c₂ h₂} h => ?_
  extract_lets inner
  have hinner : Gathers ts c inner.next inner.value := by
    simp only [inner]
    split
    · exact .none h
    · next t c₃ h₃ hop => exact .after (h.take hop) gathers_members
  have hlt : (inner.next.skipOp ";").1.size < c.size := by
    have h₃ := inner.notLonger
    have h₄ := (inner.next.skipOp ";").2
    omega
  exact (hinner.skipOp ";").finds_element hlt (by rw [hhead]; rfl) rfl rfl rfl rfl
termination_by (c.size, 0)
decreasing_by all_goals omega

theorem gathers_members {keyword : String} {pending : Pending} {c : Cursor} (hc : Among ts c) :
    Gathers ts c (members inp keyword pending c).next (members inp keyword pending c).value := by
  rw [members]
  have h := Finds.here hc
  split
  · exact .none (h.past (leads_report c _ _))
  · next t rest hrest =>
    have hlt := size_resumeMember_lt hrest
    have hpast := size_past_lt hrest
    dsimp only
    split
    · exact .none (h.past (leads_past hrest))
    next hbrace =>
    have hrecover : ∀ (issue : Issue) (d : Cursor), c.Leads d →
        Finds ts c (resumeMember t rest (d.report issue.complaint issue.span)) [] := by
      intro issue d hl
      have hl₁ := hl.trans (leads_report d issue.complaint issue.span)
      exact (h.past hl₁).past (leads_resumeMember hrest (Bool.eq_false_iff.2 hbrace) hl₁)
    split
    · exact .after (h.past (leads_past hrest)) gathers_members
    split
    · have hl := leads_attributeText inp c
      split
      · next text c₁ h₁ hread =>
        rw [hread] at hl
        have hl : c.Leads c₁ := hl
        exact .after (h.past hl) gathers_members
      · next issue c₁ h₁ hread =>
        rw [hread] at hl
        have := hlt (c₁.report issue.complaint issue.span)
        exact .after (hrecover issue c₁ hl) gathers_members
    · have hl := leads_member inp c keyword pending
      have hm : (member inp keyword pending c).Yields fun m d => m.Found ts c d := found_member hc
      split
      · next m c₁ h₁ hread =>
        rw [hread] at hl hm
        have hl : c.Leads c₁ := hl
        exact .cons hl hm (gathers_members (hc.past hl)) hc
      · next issue c₁ h₁ hread =>
        rw [hread] at hl
        have := hlt (c₁.report issue.complaint issue.span)
        exact .after (hrecover issue c₁ hl) gathers_members
termination_by (c.size, 2)
decreasing_by all_goals omega

end

/-! ## Objects -/

/-- An object goes from its keyword to the brace that closes it, or to the last token if there is none. -/
theorem finds_object {t : Token} {rest : List Token} (hc : Among ts c) (hrest : c.rest = t :: rest)
    {x : Outcome ObjectSyntax (c.past t rest).size} (hx : object inp t (c.past t rest) = .ok x) :
    x.Yields fun o d => Finds ts c d [o.body.outline] := by
  unfold object at hx
  obtain ⟨number, hnumber, rfl⟩ := exists_of_map_eq_ok hx
  have hl₂ := (moves_objectName (moves_objectNumber (.refl : Moves inp 0 _ 0 _) hnumber)).leads
  have h := ((Finds.here hc).past (leads_past hrest)).past hl₂
  refine (h.passes (leads_clauses inp _ _ _)).andThen fun {header c₃ h₃} h => ?_
  have hhead : c.head inp = t := by rw [head, hrest]; rfl
  have hlt : (members inp t.lower {} c₃).next.size < c.size := by
    have h₁ := size_past_lt hrest
    have h₂ : (objectName number.next).next.size ≤ (c.past t rest).size := hl₂.suffix.length_le
    have h₄ := (members inp t.lower {} c₃).notLonger
    omega
  exact (Gathers.after h gathers_members).finds_element hlt (by rw [hhead]) rfl rfl rfl rfl

theorem laid_objects {c : Cursor} (hc : Among ts c) {found : List ObjectSyntax × List Issue}
    (h : objects inp c = .ok found) :
    Laid ts c.size 0 (found.1.map fun o => o.body.outline) := by
  by_cases hnil : c.rest = []
  · rw [objects_nil hnil] at h
    obtain rfl := Except.ok.inj h
    exact .nil (Nat.zero_le _)
  rcases exists_round inp hnil with ⟨d, hround⟩ | ⟨n, hover⟩
  · have hlt := hround.size_lt
    have hlater : ∀ {found : List ObjectSyntax × List Issue}, objects inp d = .ok found →
        Laid ts d.size 0 (found.1.map fun o => o.body.outline) :=
      fun h => laid_objects (hc.past hround.leads) h
    -- the round from `c` to `d` finds an object or nothing at all, and the next one starts at `d`
    cases hround with
    | recover hrec =>
      cases hrec with
      | stray hrest hdir hobj =>
        rw [objects_cons hrest, hdir, hobj] at h
        exact (hlater h).mono hlt.le (Nat.le_refl _)
      | object hrest hobj ho =>
        rw [objects_cons hrest, not_directive_of_object hobj, hobj, ho] at h
        exact (hlater h).mono hlt.le (Nat.le_refl _)
    | directive hrest hdir =>
      rw [objects_cons hrest, hdir] at h
      exact (hlater h).mono hlt.le (Nat.le_refl _)
    | object hrest hobj ho =>
      rw [objects_cons hrest, not_directive_of_object hobj, hobj, ho] at h
      obtain ⟨more, hmore, rfl⟩ := exists_of_map_eq_ok h
      have hobject : Finds ts c d [_] := finds_object hc hrest ho
      exact hobject.laid.append (hlater hmore)
  · rw [objects_of_oversized hover] at h
    cases h
termination_by c.size
decreasing_by all_goals omega

end

/-! ## From numbers of tokens to places -/

/-- Tokens that each take some room, one after another. -/
structure Ordered (ts : List Token) : Prop where
  proper : ∀ t ∈ ts, t.span.first < t.span.past
  apart : ts.Pairwise fun t u => t.span.past ≤ u.span.first

namespace Ordered

variable {ts : List Token} {i j : Nat} {t u : Token}

theorem past_le_first (h : Ordered ts) (ht : ts[i]? = some t) (hu : ts[j]? = some u) (hij : i < j) :
    t.span.past ≤ u.span.first := by
  obtain ⟨hi, rfl⟩ := List.getElem?_eq_some_iff.1 ht
  obtain ⟨hj, rfl⟩ := List.getElem?_eq_some_iff.1 hu
  exact List.pairwise_iff_getElem.1 h.apart i j hi hj hij

theorem first_le_first (h : Ordered ts) (ht : ts[i]? = some t) (hu : ts[j]? = some u) (hij : i ≤ j) :
    t.span.first ≤ u.span.first := by
  rcases Nat.lt_or_eq_of_le hij with hlt | rfl
  · exact (h.proper t (List.mem_of_getElem? ht)).le.trans (h.past_le_first ht hu hlt)
  · rw [Option.some.inj (ht.symm.trans hu)]

theorem past_le_past (h : Ordered ts) (ht : ts[i]? = some t) (hu : ts[j]? = some u) (hij : i ≤ j) :
    t.span.past ≤ u.span.past := by
  rcases Nat.lt_or_eq_of_le hij with hlt | rfl
  · exact (h.past_le_first ht hu hlt).trans (h.proper u (List.mem_of_getElem? hu)).le
  · rw [Option.some.inj (ht.symm.trans hu)]

end Ordered

namespace Spans

variable {ts : List Token} {a a' b b' : Nat} {s s' : Span}

theorem within (hts : Ordered ts) (h : Spans ts a b s) (h' : Spans ts a' b' s') (ha : a' ≤ a) (hb : b ≤ b') :
    s'.Within s := by
  obtain ⟨hlt, hle, first, last, hfirst, hlast, rfl⟩ := h
  obtain ⟨hlt', hle', first', last', hfirst', hlast', rfl⟩ := h'
  exact ⟨hts.first_le_first hfirst hfirst' (by omega), hts.past_le_past hlast' hlast (by omega)⟩

theorem before (hts : Ordered ts) (h : Spans ts a b s) (h' : Spans ts a' b' s') (hb : a' ≤ b) : s.Before s' := by
  obtain ⟨hlt, hle, first, last, hfirst, hlast, rfl⟩ := h
  obtain ⟨hlt', hle', first', last', hfirst', hlast', rfl⟩ := h'
  exact hts.past_le_first hlast hfirst' (by omega)

theorem proper (hts : Ordered ts) (h : Spans ts a b s) : s.first < s.past := by
  obtain ⟨hlt, hle, first, last, hfirst, hlast, rfl⟩ := h
  exact (hts.proper first (List.mem_of_getElem? hfirst)).trans_le (hts.past_le_past hfirst hlast (by omega))

theorem anchored (h : Spans ts a b s) : ∃ (i j : Nat) (first last : Token), i ≤ j ∧ ts[i]? = some first ∧
    ts[j]? = some last ∧
    s = Span.covering first.span last.span := by
  obtain ⟨hlt, hle, first, last, hfirst, hlast, heq⟩ := h
  exact ⟨_, _, first, last, by omega, hfirst, hlast, heq⟩

end Spans

/-- **What is laid among the tokens of a text is well nested**, and comes in the order of the text. -/
theorem Laid.nested {ts : List Token} {a b : Nat} (hts : Ordered ts) (h : Laid ts a b os) :
    os.Pairwise (fun x y => x.span.Before y.span) ∧ ∀ o ∈ os, ∀ n ∈ o.nodes, n.WellNested ts := by
  induction h with
  | nil => exact ⟨.nil, nofun⟩
  | @cons a a' b' b s rows loose mixed os ha hs hmixed hrows hperm hloose hrest ihmixed ihloose ihrest =>
    constructor
    · refine .cons ?_ ihrest.1
      intro o ho
      obtain ⟨a₁, b₁, ha₁, -, hs₁⟩ := hrest.exists_spans ho
      exact hs.before hts hs₁ ha₁
    intro o ho n hn
    rcases List.mem_cons.1 ho with rfl | ho
    · rcases Outline.mem_nodes.1 hn with rfl | ⟨child, hchild, hn⟩
      · refine ⟨hs.anchored, hs.proper hts, ?_, ?_, ?_⟩
        · intro child hchild
          rcases List.mem_append.1 hchild with hchild | hchild
          · obtain ⟨a₁, b₁, ha₁, hb₁, hs₁⟩ := hmixed.exists_spans (hperm.mem_iff.2 hchild)
            exact hs.within hts hs₁ ha₁ hb₁
          · obtain ⟨a₁, b₁, ha₁, hb₁, hs₁⟩ := (hloose child hchild).exists_spans List.mem_cons_self
            exact hs.within hts hs₁ ha₁ hb₁
        · intro row hrow
          exact ihmixed.1.sublist (hrows row hrow)
        · -- no two overlap as they were mixed, so none do in any other order
          refine (hperm.pairwise_iff fun hxy => hxy.symm).1 ?_
          exact ihmixed.1.imp fun hxy => .inl hxy
      · rcases List.mem_append.1 hchild with hchild | hchild
        · exact ihmixed.2 child (hperm.mem_iff.2 hchild) n hn
        · exact (ihloose child hchild).2 child List.mem_cons_self n hn
    · exact ihrest.2 o ho n hn

end AlLint.Reading

namespace AlLint

theorem Scan.rising_tokens (text : String) : Reading.Rising (ofText text).tokens := by
  obtain ⟨xs, hlayout, -⟩ := layout_ofText text
  exact (List.pairwise_append.1 hlayout.rising).1

theorem Scan.ordered_tokens (text : String) : Reading.Ordered (ofText text).tokens := by
  obtain ⟨xs, hlayout, hlocated⟩ := layout_ofText text
  have hspan : ∀ t ∈ (ofText text).tokens, t.span = Span.ofOffsets text.toList t.start t.stop :=
    fun t ht => hlayout.span_eq hlocated t (List.mem_append_left _ ht)
  have hmono := Position.strictMonoOn_place text.toList
  constructor
  · intro t ht
    have hstop := hlayout.start_lt_stop ht
    rw [hspan t ht]
    exact hmono (show t.start ≤ _ by omega) hstop.2 hstop.1
  · refine (List.pairwise_append.1 hlayout.pairwise_tokens).1.imp_of_mem ?_
    intro t u ht hu htu
    have hstop := hlayout.start_lt_stop hu
    rw [hspan t ht, hspan u hu]
    exact hmono.monotoneOn (hlayout.start_lt_stop ht).2 (show u.start ≤ _ by omega) htu

theorem SyntaxTree.laid_outlines {text : String} {tree : SyntaxTree} (h : SyntaxTree.ofText text = .ok tree) :
    Reading.Laid (Scan.ofText text).tokens (Scan.ofText text).tokens.length 0 tree.outlines := by
  obtain ⟨found, hfound, rfl⟩ := exists_of_map_eq_ok h
  exact Reading.laid_objects ⟨Scan.rising_tokens text, List.suffix_refl _⟩ hfound

/-- **The spans of a syntax tree are well nested.** Every node of every object, down to the expressions, goes
from the start of a token to the end of one that is not before it; it holds its children, in the order of the
text, and objects do not overlap. -/
theorem SyntaxTree.spans_nested {text : String} {tree : SyntaxTree} (h : SyntaxTree.ofText text = .ok tree) :
    (∀ o ∈ tree.outlines, ∀ n ∈ o.nodes, n.WellNested (Scan.ofText text).tokens) ∧
      tree.outlines.Pairwise fun x y => x.span.Before y.span :=
  have hnested := (laid_outlines h).nested (Scan.ordered_tokens text)
  ⟨hnested.2, hnested.1⟩

/-- A text in which a string, a statement, the end of a block and a brace are damaged or missing. -/
theorem SyntaxTree.spans_nested_damaged :
    let text := "codeunit 5 A \x7b trigger OnRun() var R, S: Record T; begin repeat R.Next(1 := (2; if (R.Find) then Exit('a"
    ∃ tree, SyntaxTree.ofText text = .ok tree ∧
      (∀ o ∈ tree.outlines, ∀ n ∈ o.nodes, n.WellNested (Scan.ofText text).tokens) ∧
      tree.outlines.Pairwise fun x y => x.span.Before y.span := by
  intro text
  have hlength : text.toList.length ≤ maxDigits := by decide
  obtain ⟨tree, htree⟩ := exists_ofText (Scan.fits_ofText fun t ht _ =>
    Nat.le_trans (Scan.digits_le_length ht) hlength)
  exact ⟨tree, htree, spans_nested htree⟩

end AlLint
