import AlLint.Proofs.Reading.Alike

/-!
# Objects that look the same

The readers of members and objects cannot tell apart what looks the same either, so a file that looks the same
is read to objects that look the same, with issues at the same places. The arguments that an element keeps are
tokens of the file.
-/

namespace AlLint

variable {last' : Token} {c c' : Cursor} {issues issues' : List Issue} {pending pending' : Pending}

mutual

/-- The tokens in the arguments of an element and of all elements below it. -/
def Element.tokens : Element → List Token
  | ⟨_, _, args, _, children, _, _, _⟩ => args.flatten ++ Element.allTokens children

/-- The tokens in the arguments of some elements and of all elements below them. -/
def Element.allTokens : List Element → List Token
  | [] => []
  | e :: es => e.tokens ++ Element.allTokens es

end

namespace Reading

variable {v : Likeness} {inp inp' : Input}

/-! ## Members -/

/-- Attributes that wait and look the same. -/
structure Pending.Like (v : Likeness) (p p' : Pending) : Prop where
  attributes : p.attributes.map v.raw = p'.attributes.map v.raw
  lead : Option.Rel (Token.Like v) p.lead p'.lead

theorem Pending.Like.empty : Pending.Like v {} {} := ⟨rfl, .none⟩

def Member.seen (v : View) : Member → Member
  | .property p => .property (p.seen v)
  | .element e => .element (e.seen v)
  | .code c => .code (c.seen v)
  | .vars xs => .vars (xs.map (Variable.seen v))

def Members.seen (v : View) (ms : Members) : Members :=
  ⟨ms.properties.map (Property.seen v), Element.seenAll v ms.children, ms.codes.map (CodeMember.seen v),
    ms.vars.map (Variable.seen v)⟩

def Clauses.seen (v : View) (cs : Clauses) : Clauses := ⟨cs.extends?.map v.see, cs.implements.map v.see⟩

def Member.tokens : Member → List Token
  | .element e => e.tokens
  | _ => []

def Members.tokens (ms : Members) : List Token := Element.allTokens ms.children

theorem Members.tokens_cons (m : Member) (ms : Members) : (ms.cons m).tokens = m.tokens ++ ms.tokens := by
  cases m <;> simp [Members.cons, Members.tokens, Member.tokens, Element.allTokens]

/-- Values that look the same through `f`, with tokens in the first that are not the end of the text. -/
structure LooksInside {α β : Type} (v : Likeness) (f : α → β) (tokens : α → List Token) (a a' : α) :
    Prop where
  looks : Looks f a a'
  inner : ∀ t ∈ tokens a, v.Inner t

theorem inner_of_forall₂ {parts parts' : List (List Token)} (h : List.Forall₂ (Token.Likes v) parts parts') :
    ∀ t ∈ parts.flatten, v.Inner t := by
  have hall : ∀ {ts ts' : List Token}, Token.Likes v ts ts' → ∀ t ∈ ts, v.Inner t := by
    intro ts ts' h
    induction h with
    | nil => simp
    | cons ht _ ih => exact List.forall_mem_cons.2 ⟨ht.inner, ih⟩
  induction h with
  | nil => simp
  | cons hpart _ ih => exact List.forall_mem_append.2 ⟨hall hpart, ih⟩

theorem Members.seen_cons (m : Member) (ms : Members) : (ms.cons m).seen v = (ms.seen v).cons (m.seen v) := by
  cases m <;> simp [Members.cons, Members.seen, Member.seen, Element.seenAll]

section

variable {t t' : Token} {ts ts' : List Token}

theorem Pending.add_like {p p' : Pending} (hp : p.Like v p') (ht : t.Like v t') {text text' : String}
    (htext : v.raw text = v.raw text') : (p.add t text).Like v (p'.add t' text') := by
  have hempty : p.attributes.isEmpty = p'.attributes.isEmpty := by
    simpa only [List.isEmpty_map] using congrArg List.isEmpty hp.attributes
  refine ⟨by simp only [Pending.add, List.map_append, hp.attributes, List.map_cons, htext, List.map_nil], ?_⟩
  rw [Pending.add, Pending.add, hempty]
  split
  · exact .some ht
  · exact hp.lead

theorem MemberStart.of?_eq {next next' : Token} (ht : t.Like v t') (hnext : next.Like v next') :
    MemberStart.of? t next = MemberStart.of? t' next' := by
  simp only [MemberStart.of?, ht.isWord_eq, hnext.isWord_eq, ht.isWordIn_eq, visibility?_eq ht,
    ht.isName_eq, hnext.isOp_eq, ht.kind_eq, hnext.isOpIn_eq]

theorem attributeEnd_like (depth : Nat) {last : Token} (hlast : last.Like v last')
    (hts : Token.Likes v ts ts') :
    (∃ found found', attributeEnd depth last ts = .error found ∧
      attributeEnd depth last' ts' = .error found' ∧
      found.Like v found') ∨
    ∃ closing rest closing' rest', attributeEnd depth last ts = .ok (closing, rest) ∧
      attributeEnd depth last' ts' = .ok (closing', rest') ∧ closing.Like v closing' ∧
        Token.Likes v rest rest' := by
  induction hts generalizing depth last last' with
  | nil => exact .inl ⟨last, last', rfl, rfl, hlast⟩
  | @cons t t' ts ts' ht hts ih =>
    rw [attributeEnd, attributeEnd, ht.isOp_eq, ht.isOp_eq]
    split
    · exact ih _ ht.toLike
    split
    · split
      · exact .inr ⟨t, ts, t', ts', rfl, rfl, ht.toLike, hts⟩
      · exact ih _ ht.toLike
    · exact ih _ ht.toLike

theorem attributeText_eq_fail {last : Token} (hc : c.rest = t :: ts) (h : attributeEnd 0 t ts = .error last) :
    attributeText inp c = .fail ⟨.openAttribute, t.span⟩ { c with last, rest := [] } (Nat.zero_le _) := by
  unfold attributeText
  split
  · next hc' => cases hc.symm.trans hc'
  · next hc' =>
    cases hc.symm.trans hc'
    split
    · next h' =>
      cases h.symm.trans h'
      rfl
    · next h' => cases h.symm.trans h'

theorem attributeText_eq_ok (inp : Input) {closing : Token} {rest : List Token} (hc : c.rest = t :: ts)
    (h : attributeEnd 0 t ts = .ok (closing, rest)) :
    ∃ hlt, attributeText inp c =
      .ok (Text.strip (inp.slice (ts.headD inp.eof).start closing.start)) (c.past closing rest) hlt := by
  unfold attributeText
  split
  · next hc' => cases hc.symm.trans hc'
  · next hc' =>
    cases hc.symm.trans hc'
    split
    · next h' => cases h.symm.trans h'
    · next h' =>
      cases h.symm.trans h'
      have hlt := length_attributeEnd_lt h
      exact ⟨by simp only [Cursor.size, Cursor.past, hc, List.length_cons] at *; omega, rfl⟩

theorem argumentsEnd_like (depth : Int) {last : Token} (hlast : last.Like v last')
    (hts : Token.Likes v ts ts') :
    (∃ found rest found' rest', argumentsEnd depth last ts = .error (found, rest) ∧
      argumentsEnd depth last' ts' = .error (found', rest') ∧ found.Like v found' ∧
        Token.Likes v rest rest') ∨
    ∃ taken closing rest taken' closing' rest', argumentsEnd depth last ts = .ok (taken, closing, rest) ∧
      argumentsEnd depth last' ts' = .ok (taken', closing', rest') ∧ Token.Likes v taken taken' ∧
        closing.Like v closing' ∧
      Token.Likes v rest rest' := by
  induction hts generalizing depth last last' with
  | nil => exact .inl ⟨last, [], last', [], rfl, rfl, hlast, .nil⟩
  | @cons t t' ts ts' ht hts ih =>
    rw [argumentsEnd, argumentsEnd, ht.isOpIn_eq, ht.isOp_eq, depthChange_eq ht.toLike]
    split
    · exact .inl ⟨last, t :: ts, last', t' :: ts', rfl, rfl, hlast, .cons ht hts⟩
    split
    · exact .inr ⟨[], t, ts, [], t', ts', rfl, rfl, .nil, ht.toLike, hts⟩
    obtain ⟨found, rest, found', rest', h, h', hleft⟩ |
      ⟨taken, closing, rest, taken', closing', rest', h, h', htaken, hleft⟩ :=
      ih (depth + depthChange t') ht.toLike
    · rw [h, h']
      exact .inl ⟨found, rest, found', rest', rfl, rfl, hleft⟩
    · rw [h, h']
      exact .inr ⟨t :: taken, closing, rest, t' :: taken', closing', rest', rfl, rfl, .cons ht htaken, hleft⟩

section

variable [v.ForCode]

theorem property_like (hinp : inp.Like v inp') (hc : c.Like v c') :
    (property inp c).Like v (Looks (Property.seen v)) (property inp' c') := by
  have hname := hc.head hinp
  unfold property
  dsimp only
  refine (hc.expectName hinp _).andThen fun _ hc₁ => ?_
  refine hc₁.expectThen (hc₁.letsOp (by decide)) hinp (fun _ _ ht => ht.isOp_eq "=") (fun _ => rfl)
    fun hc₂ hlast => ?_
  refine collected_like (fun t t' ht => ht.isOp_eq ";") (fun _ => id) hc₂
    (Token.isOpIn_of_isOp hlast (by decide)) (fun hc₃ => ?_) fun hfirst hrest hc₃ => ?_
  · exact .fail ⟨hname.remark_eq fun t => .emptyProperty t.value, hname.at_span⟩ hc₃
  have hvalue := hinp.textOf (.cons hfirst hrest)
  dsimp only
  refine hc₃.acceptSemicolon ?_ fun _ hc₄ => ?_
  · dsimp only
    rw [(hc₃.head hinp).isOp_eq]
    split
    · exact .ok (by simp only [Looks, Property.seen, hname.see_value, hvalue, hc₃.spanFrom_eq hname]) hc₃
    · exact .fail ⟨hname.remark_eq fun t => .unterminatedProperty t.value, (hc₃.head hinp).at_span⟩ hc₃
  · exact .ok (by simp only [Looks, Property.seen, hname.see_value, hvalue, hc₄.spanFrom_eq hname]) hc₄

theorem variableSection_like (hinp : inp.Like v inp') (words : List String) (hc : c.Like v c') :
    (variableSection inp words c).Like v (Looks (List.map (Variable.seen v)))
      (variableSection inp' words c') := by
  induction words generalizing c c' with
  | nil =>
    exact hc.failHere hinp ((hc.head hinp).remark_eq fun t => .expectedName "in variable declaration" t.found)
  | cons word words ih =>
    cases words with
    | nil =>
      rw [variableSection, variableSection]
      refine (hc.expectWord hinp word _).andThen fun _ hc₁ => ?_
      have hvars := declarations_like hinp hc₁
      exact .ok hvars.value hvars.next
    | cons next words =>
      rw [variableSection, variableSection]
      · exact (hc.expectWord hinp word _).andThen fun _ hc₁ => (ih hc₁).weaken
      · exact fun h => by cases h
      · exact fun h => by cases h

theorem objectNumber_like (hc : c.Like v c') :
    (∃ oversized, objectNumber c = .error oversized ∧ objectNumber c' = .error oversized) ∨
    ∃ number number', objectNumber c = .ok number ∧ objectNumber c' = .ok number' ∧
      number.Like v Eq number' := by
  unfold objectNumber
  refine hc.accept (hc.letsWord (fun t ht => by simp [ht]) fun t ht => by simp [ht])
    (fun t t' ht => show (t.kind == .number) = (t'.kind == .number) by rw [ht.kind_eq]) ?_
      @fun _ t' _ _ _ _ ht hc₁ => ?_
  · exact .inr ⟨_, _, rfl, rfl, rfl, hc⟩
  · dsimp only
    rw [View.wholeNumber?_eq ht.see_value]
    cases wholeNumber? t'.value with
    | error oversized => exact .inl ⟨oversized, rfl, rfl⟩
    | ok number => exact .inr ⟨_, _, rfl, rfl, rfl, hc₁⟩

theorem objectName_like (hc : c.Like v c') : (objectName c).Like v (Looks v.see) (objectName c') := by
  unfold objectName
  refine hc.accept (hc.letsWord (fun t ht => by simp [Token.isName, ht]) fun t ht =>
    by simp [Token.isName, ht])
    (fun t t' ht => show (t.isName && !t.isWordIn ["extends", "implements"]) =
        (t'.isName && !t'.isWordIn ["extends", "implements"]) by
      rw [ht.isName_eq, ht.isWordIn_eq]) ?_ fun ht hc₁ => ?_
  · exact ⟨rfl, hc⟩
  · exact ⟨ht.see_value, hc₁⟩

end

variable [hv : v.ForFiles]

theorem Cursor.Like.intro (hlast : c.last.Like v c'.last) (hrest : Token.Likes v c.rest c'.rest)
    (hissues : Issue.Likes v c.issues c'.issues) : c.Like v c' := .ofLikes hlast hrest hissues (hv.keeps c)

theorem Cursor.Like.passed (hc : c.Like v c') (ht : t.Like v t') (hts : Token.Likes v ts ts') :
    (c.past t ts).Like v (c'.past t' ts') :=
  .intro ht hts hc.issues

theorem attributeText_like (hinp : inp.Like v inp') (hc : c.Like v c') :
    (attributeText inp c).Like v (Looks v.raw) (attributeText inp' c') := by
  have hrest := hc.likes
  obtain ⟨last, rest, issues⟩ := c
  obtain ⟨last', rest', issues'⟩ := c'
  cases hrest with
  | nil => exact hc.failHere hinp rfl
  | @cons t t' ts ts' ht hts =>
  obtain ⟨found, found', h, h', hfound⟩ | ⟨closing, rest, closing', rest', h, h', hclosing, hleft⟩ :=
    attributeEnd_like 0 ht.toLike hts
  · rw [attributeText_eq_fail rfl h, attributeText_eq_fail rfl h']
    exact .fail ⟨rfl, ht.at_span⟩ (.intro hfound .nil hc.issues)
  · obtain ⟨_, heq⟩ := attributeText_eq_ok (c := ⟨last, t :: ts, issues⟩) inp rfl h
    obtain ⟨_, heq'⟩ := attributeText_eq_ok (c := ⟨last', t' :: ts', issues'⟩) inp' rfl h'
    rw [heq, heq']
    exact .ok (hinp.between (Token.Likes.headD hts hinp.eof_like) hclosing) (hc.passed hclosing hleft)

theorem elementArguments_like {keyword keyword' : Token} (hkeyword : keyword.Like v keyword')
    (hc : c.Like v c') :
    (elementArguments keyword c).Like v (LooksInside v (List.map (List.map (Token.seen v))) List.flatten)
      (elementArguments keyword' c') := by
  unfold elementArguments
  refine hc.acceptOp (by decide) (.ok ⟨rfl, by simp⟩ hc) fun hopening hc₁ => ?_
  have hend := argumentsEnd_like 0 hopening.toLike hc₁.likes
  dsimp only
  split <;> rename_i h <;> rw [h] at hend <;> split <;> rename_i h' <;> rw [h'] at hend
  · obtain ⟨_, _, _, _, ⟨⟩, _⟩ | ⟨_, _, _, _, _, _, ⟨⟩, ⟨⟩, htaken, hclosing, hrest⟩ := hend
    have hparts := splitTokens_like ";" htaken
    exact .ok ⟨map_seen_of_forall₂ hparts, inner_of_forall₂ hparts⟩ (hc₁.passed hclosing hrest)
  · simp at hend
  · simp at hend
  · obtain ⟨_, _, _, _, ⟨⟩, ⟨⟩, hlast, hrest⟩ | ⟨_, _, _, _, _, _, ⟨⟩, _⟩ := hend
    exact .fail ⟨hkeyword.remark_eq fun t => .openArguments t.value, hkeyword.at_span⟩
      (.intro hlast hrest hc₁.issues)

theorem skipMember_like (braces : Nat) (closers : List String) {last : Token} (hlast : last.Like v last')
    (hissues : Issue.Likes v issues issues') (hts : Token.Likes v ts ts') :
    (skipMember braces closers last issues ts).Like v (skipMember braces closers last' issues' ts') := by
  induction hts generalizing braces closers last last' with
  | nil => exact .intro hlast .nil hissues
  | @cons t t' ts ts' ht hts ih =>
    rw [skipMember.eq_def, skipMember.eq_def _ _ last']
    dsimp only
    rw [ht.isOp_eq, ht.isOp_eq, ht.isOp_eq, closer?_eq ht.toLike]
    split
    · exact ih _ _ ht.toLike
    split
    · split
      · exact .intro hlast (.cons ht hts) hissues
      · exact ih _ _ ht.toLike
    cases closer? t' with
    | some closer => exact ih _ _ ht.toLike
    | none =>
      cases closers with
      | cons closer outer =>
        dsimp only
        rw [ht.isWord_eq]
        exact ih _ _ ht.toLike
      | nil =>
        dsimp only
        split
        · exact .intro ht.toLike hts hissues
        · exact ih _ _ ht.toLike

theorem resumeMember_like (ht : t.Same v t') (hts : Token.Likes v ts ts') (hc : c.Like v c') :
    (resumeMember t ts c).Like v (resumeMember t' ts' c') := by
  rw [resumeMember, resumeMember, hc.size_eq, hts.length_eq, closer?_eq ht.toLike, ht.isOp_eq]
  split
  · exact skipMember_like _ _ hc.last hc.issues hc.likes
  · exact skipMember_like _ _ ht.toLike hc.issues hts

theorem member_like_of (hinp : inp.Like v inp') (keyword : String)
    (hpending : pending.Like v pending') (hc : c.Like v c')
    (helement : (element inp c).Like v (LooksInside v (Element.seen v) Element.tokens) (element inp' c')) :
    (member inp keyword pending c).Like v (LooksInside v (Member.seen v) Member.tokens)
      (member inp' keyword pending' c') := by
  rw [member.eq_def inp, member.eq_def inp', MemberStart.of?_eq (hc.head hinp) (hc.peek hinp)]
  split
  · exact (variableSection_like hinp _ hc).map fun h => ⟨congrArg Member.vars h, by simp [Member.tokens]⟩
  · exact (variableSection_like hinp _ hc).map fun h => ⟨congrArg Member.vars h, by simp [Member.tokens]⟩
  · exact (code_like hinp hpending.attributes hpending.lead hc).map fun h =>
      ⟨congrArg Member.code h, by simp [Member.tokens]⟩
  · exact (property_like hinp hc).map fun h => ⟨congrArg Member.property h, by simp [Member.tokens]⟩
  · exact helement.map fun h => ⟨congrArg Member.element h.looks, h.inner⟩
  · exact hc.failHere hinp ((hc.head hinp).remark_eq fun t => .unexpectedMember keyword t.found)

/-- An element, if the members between its braces are read in the same way. -/
theorem element_like_of (hinp : inp.Like v inp') (hc : c.Like v c')
    (hmembers : ∀ keyword d d', d.size < c.size → d.Like v d' →
      (members inp keyword {} d).Like v (LooksInside v (Members.seen v) Members.tokens)
        (members inp' keyword {} d')) :
    (element inp c).Like v (LooksInside v (Element.seen v) Element.tokens) (element inp' c') := by
  rw [element.eq_def inp, element.eq_def inp']
  refine (hc.expectName hinp _).andThen @fun keyword _ _ _ _ _ hkeyword hc₁ => ?_
  have hkeyword := hkeyword.toLike
  refine (elementArguments_like hkeyword hc₁).andThen fun hargs hc₂ => ?_
  extract_lets inner inner'
  have hinner : inner.Like v (LooksInside v (Members.seen v) Members.tokens) inner' := by
    simp only [inner, inner', ← hkeyword.lower_eq]
    refine hc₂.acceptOp (by decide) ⟨⟨rfl, by simp [Members.tokens, Element.allTokens]⟩, hc₂⟩
      @fun _ _ c₃ c₃' _ _ _ hc₃ => ?_
    have hms := hmembers keyword.lower c₃ c₃' (by omega) hc₃
    exact ⟨hms.value, hms.next⟩
  clear_value inner inner'
  obtain ⟨ms, c₃, h₃⟩ := inner
  obtain ⟨ms', c₃', h₃'⟩ := inner'
  obtain ⟨hms, hc₃⟩ := hinner
  obtain ⟨hproperties, hchildren, hcodes, hvars⟩ := Members.mk.inj hms.looks
  have hc₄ := hc₃.skipSemicolon
  dsimp only at hproperties hchildren hcodes hvars hc₄ ⊢
  generalize c₃.skipOp ";" = d at hc₄ ⊢
  generalize c₃'.skipOp ";" = d' at hc₄ ⊢
  refine .ok ⟨?_, List.forall_mem_append.2 ⟨hargs.inner, hms.inner⟩⟩ hc₄
  simp only [Looks, Element.seen, hkeyword.lower_eq, hc₄.spanFrom_eq hkeyword, hargs.looks, hproperties,
    hchildren, hcodes, hvars, hkeyword.docs_eq]

/-- Members, if the first of them and those after it are read in the same way. -/
theorem members_like_of (hinp : inp.Like v inp') (keyword : String)
    (hpending : pending.Like v pending') (hc : c.Like v c')
    (hfirst : (member inp keyword pending c).Like v (LooksInside v (Member.seen v) Member.tokens)
    (member inp' keyword pending' c'))
    (hmore : ∀ (pending pending' : Pending) d d', pending.Like v pending' → d.size < c.size → d.Like v d' →
      (members inp keyword pending d).Like v (LooksInside v (Members.seen v) Members.tokens)
        (members inp' keyword pending' d')) :
    (members inp keyword pending c).Like v (LooksInside v (Members.seen v) Members.tokens)
      (members inp' keyword pending' c') := by
  have hrest := hc.likes
  have hattribute := attributeText_like hinp hc
  obtain ⟨last, rest, issues⟩ := c
  obtain ⟨last', rest', issues'⟩ := c'
  rw [members.eq_def inp, members.eq_def inp']
  cases hrest with
  | nil => exact ⟨⟨rfl, by simp [Members.tokens, Element.allTokens]⟩, hc.report rfl hinp.eof_like.at_span⟩
  | @cons t t' ts ts' ht hts =>
  dsimp only
  rw [ht.isOp_eq, ht.isOp_eq, ht.isOp_eq]
  -- after a failure both go on after the same member
  have hresume : ∀ (issue issue' : Issue) (c₁ c₁' : Cursor), issue.Like v issue' → c₁.Like v c₁' →
      (members inp keyword {} (resumeMember t ts (c₁.report issue.complaint issue.span))).Like v
        (LooksInside v (Members.seen v) Members.tokens)
        (members inp' keyword {} (resumeMember t' ts' (c₁'.report issue'.complaint issue'.span))) := by
    intro issue issue' c₁ c₁' hissue hc₁
    refine hmore _ _ _ _ .empty ?_ (resumeMember_like ht hts (hc₁.report hissue.remark hissue.place))
    exact Nat.lt_succ_of_le (size_resumeMember_le t ts _)
  split
  · exact ⟨⟨rfl, by simp [Members.tokens, Element.allTokens]⟩, hc.passed ht.toLike hts⟩
  split
  · have hnext := hmore pending pending' _ _ hpending (Nat.lt_succ_self ts.length) (hc.passed ht.toLike hts)
    exact ⟨hnext.value, hnext.next⟩
  split
  · generalize attributeText inp _ = x at hattribute ⊢
    generalize attributeText inp' _ = x' at hattribute ⊢
    cases hattribute with
    | ok htext hc₁ =>
      have hnext := hmore _ _ _ _ (Pending.add_like hpending ht.toLike htext) ‹_› hc₁
      exact ⟨hnext.value, hnext.next⟩
    | fail hissue hc₁ =>
      have hnext := hresume _ _ _ _ hissue hc₁
      exact ⟨hnext.value, hnext.next⟩
  · generalize member inp keyword pending _ = x at hfirst ⊢
    generalize member inp' keyword pending' _ = x' at hfirst ⊢
    cases hfirst with
    | ok hm hc₁ =>
      have hnext := hmore {} {} _ _ .empty ‹_› hc₁
      refine ⟨⟨by rw [Looks, Members.seen_cons, Members.seen_cons, hm.looks, hnext.value.looks], ?_⟩,
        hnext.next⟩
      rw [Members.tokens_cons]
      exact List.forall_mem_append.2 ⟨hm.inner, hnext.value.inner⟩
    | fail hissue hc₁ =>
      have hnext := hresume _ _ _ _ hissue hc₁
      exact ⟨hnext.value, hnext.next⟩

theorem members_like (hinp : inp.Like v inp') (keyword : String) {pending pending' : Pending}
    (hpending : pending.Like v pending') {c c' : Cursor} (hc : c.Like v c') :
    (members inp keyword pending c).Like v (LooksInside v (Members.seen v) Members.tokens)
      (members inp' keyword pending' c') := by
  refine members_like_of hinp keyword hpending hc ?_ fun _ _ d d' hp _ hd => members_like hinp keyword hp hd
  refine member_like_of hinp keyword hpending hc ?_
  exact element_like_of hinp hc fun inner d d' _ hd => members_like hinp inner .empty hd
termination_by c.size
decreasing_by all_goals omega

/-! ## Objects -/

theorem clauses_like (hinp : inp.Like v inp') (keyword : String) {found found' : Clauses}
    (hfound : found.seen v = found'.seen v) {c c' : Cursor} (hc : c.Like v c') :
    (clauses inp keyword found c).Like v (Looks (Clauses.seen v)) (clauses inp' keyword found' c') := by
  obtain ⟨hextends, himplements⟩ := Clauses.mk.inj hfound
  rw [clauses.eq_def inp, clauses.eq_def inp']
  refine hc.acceptOp (by decide) ?_ fun _ hc₁ => ?_
  · dsimp only
    refine hc.acceptWord "extends" ?_ fun _ hc₁ => ?_
    · dsimp only
      refine hc.acceptWord "implements" ?_ @fun t t' _ _ _ _ _ hc₁ => ?_
      · exact hc.failHere hinp ((hc.head hinp).remark_eq fun t => .unexpectedInHeader keyword t.found)
      · refine (names_like hinp _ hc₁).andThen fun hgroup hc₂ => ?_
        refine (clauses_like hinp keyword ?_ hc₂).weaken
        have hmore := hgroup.map_eq fun t t' ht => ht.see_value
        simp only [Clauses.seen, hextends, List.map_append, himplements, List.map_map,
          Function.comp_def, hmore]
    · refine (hc₁.expectName hinp _).andThen fun hname hc₂ => ?_
      refine (clauses_like hinp keyword ?_ hc₂).weaken
      simp only [Clauses.seen, Option.map_some, hname.see_value, himplements]
  · exact .ok hfound hc₁
termination_by c.size
decreasing_by all_goals omega

theorem object_like (hinp : inp.Like v inp') {start start' : Token} (hstart : start.Like v start')
    (hc : c.Like v c') :
    (∃ oversized, object inp start c = .error oversized ∧ object inp' start' c' = .error oversized) ∨
    ∃ o o', object inp start c = .ok o ∧ object inp' start' c' = .ok o' ∧
      o.Like v (LooksInside v (ObjectSyntax.seen v) fun o => o.body.tokens) o' := by
  unfold object
  obtain ⟨oversized, h, h'⟩ | ⟨number, number', h, h', hnumber⟩ := objectNumber_like hc
  · rw [h, h']
    exact .inl ⟨oversized, rfl, rfl⟩
  rw [h, h']
  refine .inr ⟨_, _, rfl, rfl, ?_⟩
  obtain ⟨objectId, c₁, h₁⟩ := number
  obtain ⟨objectId', c₁', h₁'⟩ := number'
  obtain ⟨hnumber, hc₁⟩ := hnumber
  have hname := objectName_like hc₁
  dsimp only [id_eq] at hnumber hname ⊢
  generalize objectName c₁ = x at hname ⊢
  generalize objectName c₁' = x' at hname ⊢
  obtain ⟨name, c₂, h₂⟩ := x
  obtain ⟨name', c₂', h₂'⟩ := x'
  obtain ⟨hname, hc₂⟩ := hname
  dsimp only at hname hc₂ ⊢
  rw [← hstart.lower_eq]
  refine (clauses_like hinp _ rfl hc₂).andThen @fun _ _ c₃ c₃' _ _ hheader hc₃ => ?_
  obtain ⟨hextends, himplements⟩ := Clauses.mk.inj hheader
  have hms := members_like hinp start.lower .empty hc₃
  generalize members inp _ _ c₃ = y at hms ⊢
  generalize members inp' _ _ c₃' = y' at hms ⊢
  obtain ⟨ms, c₄, h₄⟩ := y
  obtain ⟨ms', c₄', h₄'⟩ := y'
  obtain ⟨hms, hc₄⟩ := hms
  obtain ⟨hproperties, hchildren, hcodes, hvars⟩ := Members.mk.inj hms.looks
  dsimp only at hproperties hchildren hcodes hvars hc₄ ⊢
  refine .ok ⟨?_, hms.inner⟩ hc₄
  simp only [Looks, ObjectSyntax.seen, Element.seen, hnumber, hname, hextends, himplements,
    hc₄.spanFrom_eq hstart, hproperties, hchildren,
    hcodes, hvars, hstart.docs_eq, List.map_nil]

theorem skipDirective_like {last : Token} (hlast : last.Like v last')
    (hissues : Issue.Likes v issues issues') (hts : Token.Likes v ts ts') :
    (skipDirective last issues ts).Like v (skipDirective last' issues' ts') := by
  induction hts generalizing last last' with
  | nil => exact .intro hlast .nil hissues
  | @cons t t' ts ts' ht hts ih =>
    rw [skipDirective, skipDirective, ht.isOp_eq]
    split
    · exact .intro ht.toLike hts hissues
    · exact ih ht.toLike

theorem skipObject_like (depth : Nat) {last : Token} (hlast : last.Like v last')
    (hissues : Issue.Likes v issues issues') (hts : Token.Likes v ts ts') :
    (skipObject depth last issues ts).Like v (skipObject depth last' issues' ts') := by
  induction hts generalizing depth last last' with
  | nil => exact .intro hlast .nil hissues
  | @cons t t' ts ts' ht hts ih =>
    rw [skipObject, skipObject, ht.isOp_eq, ht.isOp_eq, ht.isWordIn_eq]
    split
    · exact ih _ ht.toLike
    split
    · exact ih _ ht.toLike
    split
    · exact .intro hlast (.cons ht hts) hissues
    · exact ih _ ht.toLike

/-- What two readings of a file make of it. -/
def ObjectsLike (v : Likeness) (found found' : Except Oversized (List ObjectSyntax × List Issue)) : Prop :=
  (∃ oversized, found = .error oversized ∧ found' = .error oversized) ∨
  ∃ os issues os' issues', found = .ok (os, issues) ∧ found' = .ok (os', issues') ∧
    os.map (ObjectSyntax.seen v) = os'.map (ObjectSyntax.seen v) ∧
    Issue.Likes v issues issues' ∧ ∀ o ∈ os, ∀ t ∈ o.body.tokens, v.Inner t

theorem objects_like_of (hinp : inp.Like v inp') (hc : c.Like v c')
    (hmore : ∀ d d', d.size < c.size → d.Like v d' → ObjectsLike v (objects inp d) (objects inp' d')) :
    ObjectsLike v (objects inp c) (objects inp' c') := by
  have hrest := hc.likes
  obtain ⟨last, rest, issues⟩ := c
  obtain ⟨last', rest', issues'⟩ := c'
  rw [objects.eq_def inp, objects.eq_def inp']
  cases hrest with
  | nil => exact .inr ⟨[], issues, [], issues', rfl, rfl, rfl, hc.issues, by simp⟩
  | @cons t t' ts ts' ht hts =>
  have hobject := object_like hinp ht.toLike (hc.passed ht.toLike hts)
  dsimp only at hobject ⊢
  rw [ht.isWordIn_eq, ht.isWordIn_eq]
  split
  · exact hmore _ _ (Nat.lt_succ_of_le (size_skipDirective_le ..))
      (skipDirective_like ht.toLike hc.issues hts)
  split
  · obtain ⟨oversized, h, h'⟩ | ⟨o, o', h, h', ho⟩ := hobject
    · rw [h, h']
      exact .inl ⟨oversized, rfl, rfl⟩
    rw [h, h']
    cases ho with
    | @ok a a' c₁ c₁' h₁ h₁' ha hc₁ =>
      dsimp only
      obtain ⟨oversized, h, h'⟩ | ⟨os, found, os', found', h, h', hos, hfound⟩ :=
        hmore c₁ c₁' (Nat.lt_succ_of_lt h₁) hc₁
      · rw [h, h']
        exact .inl ⟨oversized, rfl, rfl⟩
      · rw [h, h']
        refine .inr ⟨a :: os, found, a' :: os', found', rfl, rfl,
          by rw [List.map_cons, List.map_cons, ha.looks, hos], hfound.1, ?_⟩
        exact List.forall_mem_cons.2 ⟨ha.inner, hfound.2⟩
    | @fail issue issue' c₁ c₁' h₁ h₁' hissue hc₁ =>
      refine hmore _ _ ?_ (skipObject_like 0 hc₁.last (hc₁.issues.add hissue) hc₁.likes)
      exact Nat.lt_succ_of_le (Nat.le_trans (size_skipObject_le ..) h₁)
  · refine hmore _ _ (Nat.lt_succ_of_le (size_skipObject_le ..)) (skipObject_like 0 ht.toLike ?_ hts)
    exact hc.issues.add ⟨ht.remark_eq fun t => .expectedObject t.found, ht.at_span⟩

/-- Files that look the same are read to objects that look the same, with issues at the same places. -/
theorem objects_like (hinp : inp.Like v inp') {c c' : Cursor} (hc : c.Like v c') :
    ObjectsLike v (objects inp c) (objects inp' c') :=
  objects_like_of hinp hc fun _ _ _ hd => objects_like hinp hd
termination_by c.size
decreasing_by all_goals omega

end

end Reading

end AlLint
