import AlLint.Proofs.Reading.Likeness

/-!
# Readers cannot tell apart what looks the same

For each reader of the grammar: given cursors before tokens that look the same, the outcomes look the same.
The order is that of the readers, and so is the induction: on the tokens that are left, and among readers that
use none on how they call each other.
-/

namespace AlLint.Reading

open List

variable {v : Likeness} {inp inp' : Input} (hinp : inp.Like v inp')
variable {e e' : Expr} {last' next' : Token} {span' : Span} {issues issues' : List Issue}
  {ts ts' : List Token}
  {c c' : Cursor} {stops stops' : Token → Bool} {attributes' : List String} {lead lead' : Option Token}

/-! ## Expressions -/

section

variable {t t' : Token}

theorem Level.operator?_eq (level : Level) (ht : t.Like v t') : level.operator? t = level.operator? t' := by
  simp only [Level.operator?, ht.isOp_eq, ht.isWord_eq]

theorem unaryOp?_eq (ht : t.Like v t') : unaryOp? t = unaryOp? t' := by
  simp only [unaryOp?, ht.isWord_eq, ht.isOp_eq]

theorem Suffix.of?_eq (literal : Bool) (ht : t.Like v t') : Suffix.of? literal t = Suffix.of? literal t' := by
  simp only [Suffix.of?, ht.isOp_eq]

theorem Suffix.isOpIn_of_name {literal : Bool} {suffix : Suffix} (h : Suffix.of? literal t = some suffix)
    (hsuffix : suffix = .member ∨ suffix = .scope) : t.isOpIn [".", "::"] = true := by
  unfold Suffix.of? at h
  rcases hsuffix with rfl | rfl <;> grind [Token.isOp, Token.isOpIn]

/-- Starts of expressions that look the same. -/
inductive Start.Like (v : View) : Start → Start → Prop where
  | constant {value value' : String} (h : v.see value = v.see value') (kind : LiteralKind) :
      Like v (.constant value kind) (.constant value' kind)
  | name {n n' : String} (h : v.see n = v.see n') (quoted : Bool) : Like v (.name n quoted) (.name n' quoted)
  | group : Like v .group .group
  | set : Like v .set .set

theorem ofNumber_eq {v : View} {s s' : String} (h : v.see s = v.see s') :
    LiteralKind.ofNumber s = LiteralKind.ofNumber s' := by
  rw [LiteralKind.ofNumber, LiteralKind.ofNumber, View.lower_eq h]

theorem Start.of?_like (ht : t.Like v t') : Option.Rel (Start.Like v) (Start.of? t) (Start.of? t') := by
  have hkind := ht.kind_eq
  cases h : t'.kind with
  | ident =>
    rw [h] at hkind
    simp only [Start.of?, hkind, h, ht.lower_eq]
    split
    · exact .some (.constant rfl _)
    split
    · exact .none
    · exact .some (.name ht.see_value _)
  | quoted =>
    rw [h] at hkind
    simp only [Start.of?, hkind, h]
    exact .some (.name ht.see_value _)
  | string =>
    rw [h] at hkind
    simp only [Start.of?, hkind, h]
    exact .some (.constant ht.see_value _)
  | number =>
    rw [h] at hkind
    simp only [Start.of?, hkind, h, ofNumber_eq ht.see_text]
    exact .some (.constant ht.see_text _)
  | op =>
    rw [h] at hkind
    simp only [Start.of?, hkind, h, ht.text_eq hkind]
    split
    · exact .some .group
    split
    · exact .some .set
    · exact .none
  | eof =>
    rw [h] at hkind
    simp only [Start.of?, hkind, h]
    exact .none

theorem isLiteral_eq (he : e.seen v = e'.seen v) : isLiteral e = isLiteral e' := by
  rw [← Expr.isLiteral_seen v e, he, Expr.isLiteral_seen]

theorem memberOf_like {next : Token} {span : Span} (he : e.seen v = e'.seen v)
    (ht : t.Like v t') (hnext : next.Like v next') (hspan : v.At span span') :
    (memberOf e t next span).Like v (memberOf e' t' next' span') := by
  rw [memberOf, memberOf, ht.lower_eq, hnext.isOp_eq, ht.isQuoted_eq]
  split <;> exact ⟨by simp only [Expr.seen, he, ht.see_value, Expr.seenAll, v.place_eq hspan], hspan⟩

end

mutual

theorem expression_like (hinp : inp.Like v inp') {c c' : Cursor} (hc : c.Like v c') :
    (expression inp c).Like v (Expr.Like v) (expression inp' c') := by
  have hstart := hc.head hinp
  rw [expression.eq_def inp, expression.eq_def inp']
  refine (operands_like hinp .relation hc).andThen fun hleft hc₁ => ?_
  refine hc₁.acceptOp (by decide) ?_ fun _ hc₂ => ?_
  · exact .ok hleft hc₁
  · dsimp only
    rw [(hc₂.head hinp).isOpIn_eq]
    split
    · exact .ok ⟨by simp only [Expr.seen, hleft.seen, hc₂.last.span_eq, hc₂.spanFrom_eq hstart],
        hc₂.spanFrom_at hstart⟩ hc₂
    · refine (operands_like hinp .relation hc₂).andThen fun hright hc₃ => ?_
      exact .ok ⟨by simp only [Expr.seen, hleft.seen, hright.seen, hc₃.spanFrom_eq hstart],
        hc₃.spanFrom_at hstart⟩ hc₃
termination_by (c.size, 9)
decreasing_by all_goals simp only [Level.rank]; omega

theorem operands_like (hinp : inp.Like v inp') (level : Level) {c c' : Cursor} (hc : c.Like v c') :
    (operands inp level c).Like v (Expr.Like v) (operands inp' level c') := by
  rw [operands.eq_def inp, operands.eq_def inp']
  refine (operand_like hinp level hc).andThen fun hleft hc₁ => ?_
  exact (operators_like hinp level (hc.head hinp) hleft hc₁).weaken
termination_by (c.size, 2 * level.rank + 2)
decreasing_by all_goals omega

theorem operand_like (hinp : inp.Like v inp') (level : Level) {c c' : Cursor} (hc : c.Like v c') :
    (operand inp level c).Like v (Expr.Like v) (operand inp' level c') := by
  rw [operand.eq_def inp, operand.eq_def inp']
  cases level with
  | relation => exact operands_like hinp .sum hc
  | sum => exact operands_like hinp .product hc
  | product => exact unary_like hinp hc
termination_by (c.size, 2 * level.rank + 1)
decreasing_by all_goals simp only [Level.rank]; omega

theorem operators_like (hinp : inp.Like v inp') (level : Level) {start start' : Token}
    (hstart : start.Like v start')
    {left left' : Expr} (hleft : left.Like v left') {c c' : Cursor} (hc : c.Like v c') :
    (operators inp level start left c).Like v (Expr.Like v) (operators inp' level start' left' c') := by
  rw [operators.eq_def inp, operators.eq_def inp']
  refine hc.takeSame (fun t t' ht => level.operator?_eq ht) ?_ @fun op _ _ _ _ hc₁ => ?_
  · exact .ok hleft hc
  · refine (operand_like hinp level hc₁).andThen @fun right right' c₂ c₂' _ _ hright hc₂ => ?_
    have hboth : (Expr.binary op left right (c₂.spanFrom start)).Like v
      (.binary op left' right' (c₂'.spanFrom start')) :=
      ⟨by simp only [Expr.seen, hleft.seen, hright.seen, hc₂.spanFrom_eq hstart], hc₂.spanFrom_at hstart⟩
    exact (operators_like hinp level hstart hboth hc₂).weaken
termination_by (c.size, 0)
decreasing_by all_goals omega

theorem unary_like (hinp : inp.Like v inp') {c c' : Cursor} (hc : c.Like v c') :
    (unary inp c).Like v (Expr.Like v) (unary inp' c') := by
  rw [unary.eq_def inp, unary.eq_def inp']
  refine hc.takeSame (fun t t' ht => unaryOp?_eq ht) ?_ fun hc₁ => ?_
  · exact access_like hinp hc
  · refine (unary_like hinp hc₁).andThen fun he hc₂ => ?_
    exact .ok ⟨by simp only [Expr.seen, he.seen, hc₂.spanFrom_eq (hc.head hinp)],
      hc₂.spanFrom_at (hc.head hinp)⟩ hc₂
termination_by (c.size, 2)
decreasing_by all_goals omega

theorem access_like (hinp : inp.Like v inp') {c c' : Cursor} (hc : c.Like v c') :
    (access inp c).Like v (Expr.Like v) (access inp' c') := by
  rw [access.eq_def inp, access.eq_def inp']
  refine (primary_like hinp hc).andThen fun he hc₁ => ?_
  exact (suffixes_like hinp (hc.head hinp) he hc₁).weaken
termination_by (c.size, 1)
decreasing_by all_goals omega

theorem suffixes_like (hinp : inp.Like v inp') {start start' : Token} (hstart : start.Like v start')
    {e e' : Expr} (he : e.Like v e') {c c' : Cursor} (hc : c.Like v c') :
    (suffixes inp start e c).Like v (Expr.Like v) (suffixes inp' start' e' c') := by
  rw [suffixes.eq_def inp, suffixes.eq_def inp']
  rw [isLiteral_eq he.seen]
  refine hc.take (Takes.lets hc.keeps) (fun t t' ht => rel_of_eq (Suffix.of?_eq _ ht.toLike)) ?_
    @fun suffix _ _ _ _ _ hsuffix hc₁ htaken => ?_
  · exact .ok he hc
  · obtain ⟨t, ts, hrest, rfl, ht⟩ := htaken
    subst hsuffix
    cases suffix with
    | member =>
      refine (hc₁.expect (letsName hc.keeps hrest (Suffix.isOpIn_of_name ht (.inl rfl)) wordy_isName) hinp
        (fun _ _ ht => ht.isName_eq)
        fun _ => rfl).andThen fun hname hc₂ => ?_
      have hmember := memberOf_like he.seen hname.toLike (hc₂.head hinp) (hc₂.spanFrom_at hstart)
      exact (suffixes_like hinp hstart hmember hc₂).weaken
    | scope =>
      refine (hc₁.expect (letsName hc.keeps hrest (Suffix.isOpIn_of_name ht (.inr rfl)) fun u hu =>
        by simp [Token.isName, hu]) hinp
        (fun t t' ht => by rw [ht.isName_eq, ht.kind_eq]) fun _ => rfl).andThen
          @fun name name' c₂ c₂' _ _ hname hc₂ => ?_
      have hscope : (Expr.scope e name.value (c₂.spanFrom start)).Like v
        (.scope e' name'.value (c₂'.spanFrom start')) :=
        ⟨by simp only [Expr.seen, he.seen, hname.see_value, hc₂.spanFrom_eq hstart], hc₂.spanFrom_at hstart⟩
      exact (suffixes_like hinp hstart hscope hc₂).weaken
    | call =>
      refine (arguments_like hinp (by decide) hc₁).andThen @fun args args' c₂ c₂' _ _ hargs hc₂ => ?_
      have hcall : (Expr.call e args false (c₂.spanFrom start)).Like v
        (.call e' args' false (c₂'.spanFrom start')) :=
        ⟨by simp only [Expr.seen, he.seen, hargs, hc₂.spanFrom_eq hstart], hc₂.spanFrom_at hstart⟩
      exact (suffixes_like hinp hstart hcall hc₂).weaken
    | index =>
      refine (arguments_like hinp (by decide) hc₁).andThen @fun args args' c₂ c₂' _ _ hargs hc₂ => ?_
      have hindex : (Expr.index e args (c₂.spanFrom start)).Like v (.index e' args' (c₂'.spanFrom start')) :=
        ⟨by simp only [Expr.seen, he.seen, hargs, hc₂.spanFrom_eq hstart], hc₂.spanFrom_at hstart⟩
      exact (suffixes_like hinp hstart hindex hc₂).weaken
termination_by (c.size, 0)
decreasing_by all_goals omega

theorem arguments_like (hinp : inp.Like v inp') {closing : String} (hclosing : closing ∉ [";", "\x7d"])
    {c c' : Cursor} (hc : c.Like v c') :
    (arguments inp closing c).Like v (Looks (Expr.seenAll v)) (arguments inp' closing c') := by
  rw [arguments.eq_def inp, arguments.eq_def inp']
  refine hc.acceptOp hclosing ?_ fun _ hc₁ => ?_
  · refine (expressions_like hinp hc).andThen fun hargs hc₁ => ?_
    exact (hc₁.expectOp hinp hclosing _).andThen fun _ hc₂ => .ok hargs hc₂
  · exact .ok rfl hc₁
termination_by (c.size, 11)
decreasing_by all_goals omega

theorem expressions_like (hinp : inp.Like v inp') {c c' : Cursor} (hc : c.Like v c') :
    (expressions inp c).Like v (Looks (Expr.seenAll v)) (expressions inp' c') := by
  rw [expressions.eq_def inp, expressions.eq_def inp']
  refine (expression_like hinp hc).andThen fun he hc₁ => ?_
  refine hc₁.acceptOp (by decide) ?_ fun _ hc₂ => ?_
  · exact .ok (by simp only [Looks, Expr.seenAll, he.seen]) hc₁
  · refine (expressions_like hinp hc₂).andThen fun hes hc₃ => ?_
    exact .ok (by simp only [Looks, Expr.seenAll, he.seen, hes]) hc₃
termination_by (c.size, 10)
decreasing_by all_goals omega

theorem primary_like (hinp : inp.Like v inp') {c c' : Cursor} (hc : c.Like v c') :
    (primary inp c).Like v (Expr.Like v) (primary inp' c') := by
  have hhead := hc.head hinp
  rw [primary.eq_def inp, primary.eq_def inp']
  refine hc.take (Takes.lets hc.keeps) (fun t t' ht => Start.of?_like ht.toLike) ?_ fun hstart hc₁ _ => ?_
  · exact hc.failHere hinp (hhead.remark_eq fun t => .expectedExpression t.found)
  · cases hstart with
    | constant hvalue kind => exact .ok ⟨by simp only [Expr.seen, hvalue, hhead.span_eq], hhead.at_span⟩ hc₁
    | name hn quoted => exact .ok ⟨by simp only [Expr.seen, hn, hhead.span_eq], hhead.at_span⟩ hc₁
    | group =>
      refine (expression_like hinp hc₁).andThen fun he hc₂ => ?_
      exact (hc₂.expectOp hinp (by decide) _).andThen fun _ hc₃ => .ok he hc₃
    | set =>
      refine (arguments_like hinp (by decide) hc₁).andThen fun hitems hc₂ => ?_
      exact .ok ⟨by simp only [Expr.seen, hitems, hc₂.spanFrom_eq hhead], hc₂.spanFrom_at hhead⟩ hc₂
termination_by (c.size, 0)
decreasing_by all_goals omega

end

/-! ## Statements -/

section

variable {t t' : Token}

theorem assignOp?_eq (ht : t.Like v t') : assignOp? t = assignOp? t' := by
  simp only [assignOp?, ht.isOp_eq]

theorem jump?_eq (ht : t.Like v t') : jump? t = jump? t' := by
  simp only [jump?, ht.isWord_eq]

theorem closer?_eq (ht : t.Like v t') : closer? t = closer? t' := by
  simp only [closer?, ht.isWordIn_eq, ht.isWord_eq]

theorem Opening.of?_eq (ht : t.Like v t') : Opening.of? t = Opening.of? t' := by
  simp only [Opening.of?, ht.isWord_eq]

theorem endsList_eq (terminators : List String) (ht : t.Like v t') :
    endsList terminators t = endsList terminators t' := by
  rw [endsList, endsList, ht.kind_eq, ht.isOp_eq, ht.isWordIn_eq]

theorem endsBranch_eq (ht : t.Like v t') : endsBranch t = endsBranch t' := by
  rw [endsBranch, endsBranch, ht.kind_eq, ht.isOpIn_eq, ht.isWordIn_eq]

theorem endsJump_eq (ht : t.Like v t') : endsJump t = endsJump t' := by
  rw [endsJump, endsJump, ht.isOp_eq, ht.isWordIn_eq]

theorem statementCall?_like (he : e.seen v = e'.seen v) :
    (statementCall? e).map (Call.seen v) = (statementCall? e').map (Call.seen v) := by
  have hseen : ∀ e : Expr, (statementCall? e).map (Call.seen v) = statementCall? (e.seen v) := by
    intro e
    cases e <;> rfl
  rw [hseen, he, hseen]

theorem callStatement_like {call call' : Call} {span : Span} (hcall : call.seen v = call'.seen v)
    (hspan : v.place span = v.place span') :
    (callStatement call span).seen v = (callStatement call' span').seen v := by
  have hglobal : call.isGlobal = call'.isGlobal := by rw [← call.isGlobal_seen v, hcall, Call.isGlobal_seen]
  have hmethod : call.method = call'.method := by rw [← call.method_seen v, hcall, Call.method_seen]
  rw [callStatement, callStatement, hglobal, hmethod]
  split <;> simp only [Stmt.seen, hcall, hspan]

theorem unwrapped_like {s s' : Stmt} (hs : s.seen v = s'.seen v) :
    Stmt.seenAll v (unwrapped s) = Stmt.seenAll v (unwrapped s') := by
  have hseen : ∀ s : Stmt, Stmt.seenAll v (unwrapped s) = unwrapped (s.seen v) := by
    intro s
    cases s <;> rfl
  rw [hseen, hs, hseen]

/-- Whether there is a list of statements in what is opened. -/
def Opening.hasList : Opening → Bool
  | block | caseOf | repeatUntil => true
  | _ => false

/-- Openings that are the same. If there is a list of statements in them, there are no tokens behind. -/
theorem Opening.of?_like [hv : v.ForStatements] (ht : t.Same v t') :
    Option.Rel (fun x x' => x = x' ∧ (x.hasList = true → v.behind = [])) (Opening.of? t)
      (Opening.of? t') := by
  rw [← Opening.of?_eq ht.toLike]
  cases h : Opening.of? t with
  | none => exact .none
  | some opening =>
    refine .some ⟨rfl, fun hlist => hv.behind_eq_or.resolve_right fun hinner => ?_⟩
    obtain ⟨entry, hentry, rfl⟩ := Option.map_eq_some_iff.1 h
    have hall : ∀ entry ∈ openings, entry.2.hasList = true → entry.1 ∈ ["begin", "case", "repeat"] := by
      decide
    have hmem := hall entry (mem_of_find?_eq_some hentry) hlist
    have hfound := find?_some hentry
    obtain ⟨hkind, hword⟩ := Token.isWord_iff.1 (show t.isWord entry.1 = true from hfound)
    rw [← hword] at hmem
    have hnone := hinner t ht.inner
    rw [Token.isWordIn_iff.2 ⟨hkind, hmem⟩] at hnone
    cases hnone

theorem lets_opening [hv : v.ForStatements] (hkeeps : v.Keeps c) : c.Lets v Opening.of? Opening.of? := by
  have hnone : ∀ {op : String} {t : Token}, t.isOp op = true → Opening.of? t = none := by
    intro op t hop
    simp [Opening.of?, isWord_of_isOpIn hop]
  refine ⟨fun {t ts a} hrest ha => hv.keeps_past hkeeps hrest (Bool.eq_false_iff.2 fun hbrace => ?_),
    fun t ht => hnone (v.semicolon t ht)⟩
  cases (hnone hbrace).symm.trans ha

theorem skipStatement_like [v.ForCode] (stops closers : List String) {c c' : Cursor} (hc : c.Like v c') :
    (skipStatement stops closers c.last c.issues c.rest).Like v
      (skipStatement stops closers c'.last c'.issues c'.rest) := by
  have hrest := hc.likes
  obtain ⟨last, rest, issues⟩ := c
  obtain ⟨last', rest', issues'⟩ := c'
  dsimp only at hrest ⊢
  induction hrest generalizing closers last last' with
  | nil => exact hc
  | @cons t t' ts ts' ht hts ih =>
    rw [skipStatement.eq_def, skipStatement.eq_def _ _ last']
    dsimp only
    rw [ht.isOp_eq "\x7d", ht.isOp_eq, ht.isWordIn_eq, closer?_eq ht.toLike]
    split
    · exact hc
    next hbrace =>
    have hpast := hc.past rfl ht.toLike hts (by rw [ht.isOp_eq, Bool.eq_false_iff.2 hbrace])
    cases closer? t' with
    | some closer => exact ih _ _ _ hpast
    | none =>
      cases closers with
      | cons closer outer =>
        dsimp only
        rw [ht.isWord_eq]
        exact ih _ _ _ hpast
      | nil =>
        dsimp only
        split
        · exact hpast
        split
        · exact hc
        · exact ih _ _ _ hpast

theorem resumeStatement_like [hv : v.ForCode] (terminators : List String) (ht : t.Same v t')
    (hts : Token.Likes v ts ts') (hc : c.Like v c') (hkeeps : ¬c.size ≤ ts.length → v.Keeps (c.past t ts)) :
    (resumeStatement terminators t ts c).Like v (resumeStatement terminators t' ts' c') := by
  rw [resumeStatement, resumeStatement, hc.size_eq, hts.length_eq, closer?_eq ht.toLike]
  split
  · exact skipStatement_like _ _ hc
  · next hsize =>
    have hpast : (c.past t ts).Like v (c'.past t' ts') := .ofLikes ht.toLike hts hc.issues
      (hkeeps (by rwa [hc.size_eq, hts.length_eq]))
    exact skipStatement_like _ _ hpast

end

section

include hinp

theorem simpleStatement_like (hc : c.Like v c') :
    (simpleStatement inp c).Like v (Looks (Stmt.seen v)) (simpleStatement inp' c') := by
  have hstart := hc.head hinp
  unfold simpleStatement
  refine (access_like hinp hc).andThen @fun e _ _ _ _ _ he hc₁ => ?_
  refine hc₁.takeSame (fun t t' ht => assignOp?_eq ht) ?_ fun hc₂ => ?_
  · have hcall := statementCall?_like he.seen
    cases hs : statementCall? e with
    | none =>
      rw [hs, Option.map_none, eq_comm, Option.map_eq_none_iff] at hcall
      rw [hcall]
      exact .fail ⟨rfl, he.place⟩ hc₁
    | some call =>
      rw [hs, Option.map_some, eq_comm, Option.map_eq_some_iff] at hcall
      obtain ⟨call', hs', hcall'⟩ := hcall
      rw [hs']
      exact .ok (callStatement_like hcall'.symm (hc₁.spanFrom_eq hstart)) hc₁
  · refine (expression_like hinp hc₂).andThen fun hvalue hc₃ => ?_
    exact .ok (by simp only [Looks, Stmt.seen, he.seen, hvalue.seen, hc₃.spanFrom_eq hstart]) hc₃

theorem blockEnd_like [v.ForCode] {opener opener' : Token} (hopener : opener.Like v opener')
    (hc : c.Like v c') : (blockEnd inp opener c).Like v Eq (blockEnd inp' opener' c') := by
  unfold blockEnd
  refine hc.acceptWord "end" ?_ fun _ hc₁ => ?_
  · exact ⟨rfl, hc.report (hopener.remark_eq fun t => .missingEnd "begin" t.span.line) (hc.head hinp).at_span⟩
  · exact ⟨rfl, hc₁⟩

theorem forDirection_like [v.ForStatements] (hc : c.Like v c') :
    (forDirection inp c).Like v Eq (forDirection inp' c') := by
  unfold forDirection
  refine hc.acceptWord "downto" ?_ fun _ hc₁ => ?_
  · exact (hc.expectWord hinp "to" _).map fun _ => rfl
  · exact .ok rfl hc₁

/-- The branches of a case statement with their texts seen. -/
def seenParts (v : View) (parts : List (Branch Stmt) × Option (List Stmt)) :
    List (Branch Stmt) × Option (List Stmt) :=
  (Stmt.seenBranches v parts.1, Stmt.seenElse v parts.2)

/-- A list of statements, if its first statement and the lists after it are read in the same way. -/
theorem statements_like_of [hv : v.ForCode] {terminators : List String} (hc : c.Like v c')
    (hs : (statement inp c).Like v (Looks (Stmt.seen v)) (statement inp' c'))
    (hmore : ∀ d d', d.size < c.size → d.Like v d' →
      (statements inp terminators d).Like v (Looks (Stmt.seenAll v)) (statements inp' terminators d')) :
    (statements inp terminators c).Like v (Looks (Stmt.seenAll v)) (statements inp' terminators c') := by
  have hrest := hc.likes
  obtain ⟨last, rest, issues⟩ := c
  obtain ⟨last', rest', issues'⟩ := c'
  rw [statements.eq_def inp, statements.eq_def inp']
  cases hrest with
  | nil => exact ⟨rfl, hc⟩
  | @cons t t' ts ts' ht hts =>
  dsimp only
  rw [endsList_eq terminators ht.toLike, ht.isOp_eq]
  split
  · exact ⟨rfl, hc⟩
  next hends =>
  have hbrace : t.isOp "\x7d" = false := by
    simp only [endsList, ← ht.isOp_eq "\x7d", Bool.or_eq_true, not_or, Bool.not_eq_true] at hends
    exact hends.1.2
  split
  · have hnext := hmore _ _ (Nat.lt_succ_self _) (hc.past rfl ht.toLike hts hbrace)
    exact ⟨hnext.value, hnext.next⟩
  generalize statement inp _ = x at hs ⊢
  generalize statement inp' _ = x' at hs ⊢
  cases hs with
  | @fail issue issue' c₁ c₁' h₁ h₁' hissue hc₁ =>
    have hle := size_resumeStatement_le terminators t ts (c₁.report issue.complaint issue.span)
    have hc₂ := hc₁.report hissue.remark hissue.place
    have hnext := hmore _ _ (Nat.lt_succ_of_le hle) (resumeStatement_like terminators ht hts hc₂ fun hlt =>
      hv.keeps_resume hc.keeps hc₂.keeps rfl hbrace (Nat.le_antisymm h₁ (Nat.lt_of_not_le hlt)))
    exact ⟨hnext.value, hnext.next⟩
  | @ok s s' c₁ c₁' h₁ h₁' hvalue hc₁ =>
    have hend := hc₁.head hinp
    dsimp only
    refine hc₁.acceptSemicolon ?_ @fun _ _ _ _ h₂ _ _ hc₂ => ?_
    · simp only [endsList_eq terminators hend]
      split
      · exact ⟨by simp only [Looks, Stmt.seenAll, hvalue], hc₁⟩
      · have hnext := hmore (c₁.report _ _) _ h₁ (hc₁.report
          (hend.remark_eq fun t => .unterminatedStatement t.found) hend.at_span)
        exact ⟨by simp only [Looks, Stmt.seenAll, hvalue, hnext.value], hnext.next⟩
    · have hnext := hmore _ _ (Nat.lt_trans h₂ h₁) hc₂
      exact ⟨by simp only [Looks, Stmt.seenAll, hvalue, hnext.value], hnext.next⟩

mutual

theorem statement_like [hv : v.ForStatements] {c c' : Cursor} (hc : c.Like v c') :
    (statement inp c).Like v (Looks (Stmt.seen v)) (statement inp' c') := by
  have hstart := hc.head hinp
  rw [statement.eq_def inp, statement.eq_def inp']
  dsimp only
  refine hc.take (lets_opening hc.keeps) (fun t t' ht => Opening.of?_like ht) ?_
    @fun opening _ _ _ _ _ hopening hc₁ _ => ?_
  · dsimp only
    have hother : Outcome.Like v (Looks (Stmt.seen v))
        (if reservedWords.contains (c.head inp).lower then c.failHere inp (.unexpectedWord (c.head inp).found)
          else simpleStatement inp c)
        (if reservedWords.contains (c'.head inp').lower then
          c'.failHere inp' (.unexpectedWord (c'.head inp').found)
          else simpleStatement inp' c') := by
      rw [hstart.lower_eq]
      split
      · exact hc.failHere hinp (hstart.remark_eq fun t => .unexpectedWord t.found)
      · exact simpleStatement_like hinp hc
    refine hc.takeSame (fun t t' ht => jump?_eq ht) ?_ @fun _ _ c₁' _ _ hc₁ => ?_
    · exact hother
    · simp only [Option.filter_some, endsJump_eq (hc₁.head hinp)]
      cases endsJump (c₁'.head inp') with
      | true => exact .ok (by simp only [Looks, Stmt.seen, hstart.span_eq]) hc₁
      | false => exact hother
  obtain ⟨rfl, hlist⟩ := hopening
  have hcode : opening.hasList = true → v.ForCode := fun h => { behind_eq := hlist h }
  cases opening with
  | block =>
    have := hcode rfl
    have hbody := compound_like hstart hc₁
    exact .ok (by simp only [Looks, Stmt.seen, hbody.value, hbody.next.spanFrom_eq hstart]) hbody.next
  | ifThen =>
    refine (expression_like hinp hc₁).andThen fun hcondition hc₂ => ?_
    refine (hc₂.expectWord hinp "then" _).andThen fun _ hc₃ => ?_
    refine (branch_like hc₃).andThen fun hthen hc₄ => ?_
    refine hc₄.acceptWord "else" ?_ fun _ hc₅ => ?_
    · exact .ok (by simp only [Looks, Stmt.seen, hcondition.seen, hthen, Stmt.seenElse,
        hc₄.spanFrom_eq hstart]) hc₄
    · refine (branch_like hc₅).andThen fun helse hc₆ => ?_
      exact .ok (by simp only [Looks, Stmt.seen, hcondition.seen, hthen, Stmt.seenElse, helse,
        hc₆.spanFrom_eq hstart]) hc₆
  | caseOf =>
    have := hcode rfl
    refine (expression_like hinp hc₁).andThen fun hselector hc₂ => ?_
    refine (hc₂.expectWord hinp "of" _).andThen fun _ hc₃ => ?_
    refine (branches_like hstart hc₃).andThen fun hparts hc₄ => ?_
    refine (hc₄.expectWord hinp "end" _).andThen fun _ hc₅ => ?_
    obtain ⟨hbranches, helse⟩ := Prod.mk.inj hparts
    exact .ok (by simp only [Looks, Stmt.seen, hselector.seen, hbranches, helse, hc₅.spanFrom_eq hstart]) hc₅
  | repeatUntil =>
    have := hcode rfl
    have hbody := statements_like ["until"] hc₁
    refine (hbody.next.expect (hbody.next.letsWord (wordy_isWordIn _) (wordy_isWordIn _)) hinp
      (fun t t' ht => ht.isWord_eq "until") fun found => hstart.remark_eq fun t =>
      .expected "until" s!"to close 'repeat' on line {t.span.line}" found).andThen fun _ hc₃ => ?_
    refine (expression_like hinp hc₃).andThen fun hcondition hc₄ => ?_
    exact .ok (by simp only [Looks, Stmt.seen, hbody.value, hcondition.seen, hc₄.spanFrom_eq hstart]) hc₄
  | whileDo =>
    refine (expression_like hinp hc₁).andThen fun hcondition hc₂ => ?_
    refine (hc₂.expectWord hinp "do" _).andThen fun _ hc₃ => ?_
    refine (branch_like hc₃).andThen fun hbody hc₄ => ?_
    exact .ok (by simp only [Looks, Stmt.seen, hcondition.seen, hbody, hc₄.spanFrom_eq hstart]) hc₄
  | forTo =>
    refine (hc₁.expectName hinp _).andThen fun hname hc₂ => ?_
    refine (hc₂.expectOp hinp (by decide) _).andThen fun _ hc₃ => ?_
    refine (expression_like hinp hc₃).andThen fun hfirst hc₄ => ?_
    refine (forDirection_like hinp hc₄).andThen fun hdown hc₅ => ?_
    refine (expression_like hinp hc₅).andThen fun hlast hc₆ => ?_
    refine (hc₆.expectWord hinp "do" _).andThen fun _ hc₇ => ?_
    refine (branch_like hc₇).andThen fun hbody hc₈ => ?_
    exact .ok (by simp only [Looks, Stmt.seen, Expr.seen, hname.see_value, hname.isQuoted_eq, hname.span_eq,
      hfirst.seen, hdown, hlast.seen, hbody, hc₈.spanFrom_eq hstart]) hc₈
  | forEach =>
    refine (hc₁.expectName hinp _).andThen fun hname hc₂ => ?_
    refine (hc₂.expectWord hinp "in" _).andThen fun _ hc₃ => ?_
    refine (expression_like hinp hc₃).andThen fun hiterable hc₄ => ?_
    refine (hc₄.expectWord hinp "do" _).andThen fun _ hc₅ => ?_
    refine (branch_like hc₅).andThen fun hbody hc₆ => ?_
    exact .ok (by simp only [Looks, Stmt.seen, Expr.seen, hname.see_value, hname.isQuoted_eq, hname.span_eq,
      hiterable.seen, hbody, hc₆.spanFrom_eq hstart]) hc₆
  | exit =>
    dsimp only
    refine hc₁.acceptOp (by decide) ?_ fun _ hc₂ => ?_
    · exact .ok (by simp only [Looks, Stmt.seen, Option.map_none, hc₁.spanFrom_eq hstart]) hc₁
    · dsimp only
      rw [(hc₂.head hinp).isOp_eq]
      split
      · refine (hc₂.expectOp hinp (by decide) _).andThen fun _ hc₃ => ?_
        exact .ok (by simp only [Looks, Stmt.seen, Option.map_none, hc₃.spanFrom_eq hstart]) hc₃
      · refine (expression_like hinp hc₂).andThen fun hvalue hc₃ => ?_
        refine (hc₃.expectOp hinp (by decide) _).andThen fun _ hc₄ => ?_
        exact .ok (by simp only [Looks, Stmt.seen, Option.map_some, hvalue.seen, hc₄.spanFrom_eq hstart]) hc₄
  | withDo =>
    refine (expression_like hinp hc₁).andThen fun htarget hc₂ => ?_
    refine (hc₂.expectWord hinp "do" _).andThen fun _ hc₃ => ?_
    refine (branch_like hc₃).andThen fun hbody hc₄ => ?_
    exact .ok (by simp only [Looks, Stmt.seen, htarget.seen, hbody, hc₄.spanFrom_eq hstart]) hc₄
  | assertError =>
    refine (statement_like hc₁).andThen fun hinner hc₂ => ?_
    exact .ok (by simp only [Looks, Stmt.seen, Stmt.seenAll, hinner, hc₂.spanFrom_eq hstart]) hc₂
termination_by (c.size, 1)
decreasing_by all_goals omega

theorem compound_like [v.ForCode] {opener opener' : Token} (hopener : opener.Like v opener') {c c' : Cursor}
    (hc : c.Like v c') : (compound inp opener c).Like v (Looks (Stmt.seenAll v))
    (compound inp' opener' c') := by
  rw [compound.eq_def inp, compound.eq_def inp']
  have hbody := statements_like ["end"] hc
  exact ⟨hbody.value, (blockEnd_like hinp hopener hbody.next).next⟩
termination_by (c.size, 3)
decreasing_by all_goals omega

theorem branch_like [v.ForStatements] {c c' : Cursor} (hc : c.Like v c') :
    (branch inp c).Like v (Looks (Stmt.seenAll v)) (branch inp' c') := by
  rw [branch.eq_def inp, branch.eq_def inp', endsBranch_eq (hc.head hinp)]
  split
  · exact .ok rfl hc
  · exact (statement_like hc).andThen fun hs hc₁ => .ok (unwrapped_like hs) hc₁
termination_by (c.size, 2)
decreasing_by all_goals omega

theorem branches_like [v.ForCode] {start start' : Token} (hstart : start.Like v start') {c c' : Cursor}
    (hc : c.Like v c') : (branches inp start c).Like v (Looks (seenParts v)) (branches inp' start' c') := by
  have hhead := hc.head hinp
  rw [branches.eq_def inp, branches.eq_def inp']
  dsimp only
  rw [hhead.isWord_eq, hhead.kind_eq, hhead.isOp_eq]
  split
  · exact .ok rfl hc
  split
  · exact .fail ⟨hstart.remark_eq fun t => .missingEnd "case" t.span.line, hhead.at_span⟩ hc
  refine hc.acceptSemicolon ?_ fun _ hc₁ => ?_
  · dsimp only
    refine hc.acceptWord "else" ?_ fun _ hc₁ => ?_
    · refine (expressions_like hinp hc).andThen fun hvalues hc₁ => ?_
      refine (hc₁.expectOp hinp (by decide) _).andThen fun _ hc₂ => ?_
      refine (branch_like hc₂).andThen fun hbody hc₃ => ?_
      have hspan := hc₃.spanFrom_eq hhead
      refine hc₃.acceptSemicolon ?_ fun _ hc₄ => ?_
      · dsimp only
        rw [(hc₃.head hinp).isWordIn_eq]
        split
        · refine (branches_like hstart hc₃).andThen fun hrest hc₅ => ?_
          obtain ⟨hbranches, helse⟩ := Prod.mk.inj hrest
          exact .ok (by simp only [Looks, seenParts, Stmt.seenBranches, hvalues, hbody, hspan,
            hbranches, helse]) hc₅
        · exact .fail ⟨(hc₃.head hinp).remark_eq fun t => .unterminatedBranch t.found,
            (hc₃.head hinp).at_span⟩ hc₃
      · refine (branches_like hstart hc₄).andThen fun hrest hc₅ => ?_
        obtain ⟨hbranches, helse⟩ := Prod.mk.inj hrest
        exact .ok (by simp only [Looks, seenParts, Stmt.seenBranches, hvalues, hbody, hspan,
          hbranches, helse]) hc₅
    · have hbody := statements_like ["end"] hc₁
      exact .ok (by simp only [Looks, seenParts, Stmt.seenBranches, Stmt.seenElse, hbody.value]) hbody.next
  · exact (branches_like hstart hc₁).weaken
termination_by (c.size, 0)
decreasing_by all_goals omega

theorem statements_like [v.ForCode] (terminators : List String) {c c' : Cursor} (hc : c.Like v c') :
    (statements inp terminators c).Like v (Looks (Stmt.seenAll v)) (statements inp' terminators c') :=
  statements_like_of hinp hc (statement_like hc) fun _ _ _ hd => statements_like terminators hd
termination_by (c.size, 2)
decreasing_by all_goals omega

end

end

/-! ## Variables, triggers and procedures -/

section

variable {t t' : Token}

theorem visibility?_eq (ht : t.Like v t') : visibility? t = visibility? t' := by
  simp only [visibility?, ht.isWord_eq]

theorem startsDeclaration_eq {next : Token} (ht : t.Like v t') (hnext : next.Like v next') :
    startsDeclaration t next = startsDeclaration t' next' := by
  rw [startsDeclaration, startsDeclaration, ht.isName_eq, hnext.isOpIn_eq, ht.isWordIn_eq]

theorem byRef?_eq {next : Token} (hnext : next.Like v next') (ht : t.Like v t') :
    byRef? next t = byRef? next' t' := by
  rw [byRef?, byRef?, ht.isWord_eq, hnext.isName_eq]

theorem collect_like (hstops : ∀ t t', t.Like v t' → stops t = stops' t') (depth : Nat)
    (hts : Token.Likes v ts ts') :
    Token.Likes v (collect stops depth ts).1 (collect stops' depth ts').1 ∧
      Token.Likes v (collect stops depth ts).2 (collect stops' depth ts').2 := by
  induction hts generalizing depth with
  | nil => exact ⟨.nil, .nil⟩
  | @cons t t' ts ts' ht hts ih =>
    rw [collect, collect, hstops t t' ht.toLike, ht.isOp_eq, ht.isOpIn_eq, ht.isOpIn_eq]
    split
    · exact ⟨.nil, .cons ht hts⟩
    split
    · exact ⟨.cons ht (ih _).1, (ih _).2⟩
    split
    · split
      · exact ⟨.nil, .cons ht hts⟩
      · exact ⟨.cons ht (ih _).1, (ih _).2⟩
    · exact ⟨.cons ht (ih _).1, (ih _).2⟩

variable [hv : v.ForCode]

/-- Both readers collect nothing, or both collect tokens that look the same. -/
@[elab_as_elim]
theorem collected_like (hstops : ∀ t t', t.Like v t' → stops t = stops' t')
    (hends : ∀ t : Token, t.isOp ";" = true → stops t = true) (hc : c.Like v c')
    (hlast : c.last.isOpIn [":", "="] = true) {motive : Read (List Token) c.size →
    Read (List Token) c'.size → Prop}
    (hnil : ∀ {d d' h h'}, d.Like v d' → motive ⟨[], d, h⟩ ⟨[], d', h'⟩)
    (hcons : ∀ {t ts t' ts' d d' h h'}, t.Same v t' → Token.Likes v ts ts' → d.Like v d' →
      motive ⟨t :: ts, d, h⟩ ⟨t' :: ts', d', h'⟩) : motive (collected stops c) (collected stops' c') := by
  obtain ⟨htaken, hleft⟩ := collect_like hstops 0 hc.likes
  have hd : (collected stops c).next.Like v (collected stops' c').next :=
    .ofLikes (htaken.getLastD hc.last) hleft hc.issues (hv.keeps_collected hc.keeps hlast hends)
  have hvalue : Token.Likes v (collected stops c).value (collected stops' c').value := htaken
  generalize collected stops c = x at hd hvalue ⊢
  generalize collected stops' c' = x' at hd hvalue ⊢
  obtain ⟨taken, d, h⟩ := x
  obtain ⟨taken', d', h'⟩ := x'
  cases hvalue with
  | nil => exact hnil hd
  | cons ht hts => exact hcons ht hts hd

theorem skipDeclaration_like {c c' : Cursor} (hc : c.Like v c') :
    (skipDeclaration c.last c.issues c.rest).Like v (skipDeclaration c'.last c'.issues c'.rest) := by
  have hrest := hc.likes
  obtain ⟨last, rest, issues⟩ := c
  obtain ⟨last', rest', issues'⟩ := c'
  dsimp only at hrest ⊢
  induction hrest generalizing last last' with
  | nil => exact hc
  | @cons t t' ts ts' ht hts ih =>
    rw [skipDeclaration, skipDeclaration, ← ht.isWord_eq, ← ht.isOp_eq, ← ht.isOp_eq]
    split
    · exact hc
    next hends =>
    rw [Bool.not_eq_true, Bool.or_eq_false_iff] at hends
    have hpast := hc.past rfl ht.toLike hts hends.2
    split
    · exact hpast
    · exact ih _ _ hpast

theorem resumeDeclaration_like (ht : t.Same v t') (hts : Token.Likes v ts ts') (hc : c.Like v c')
    (hkeeps : ¬c.size ≤ ts.length → v.Keeps (c.past t ts)) :
    (resumeDeclaration t ts c).Like v (resumeDeclaration t' ts' c') := by
  rw [resumeDeclaration, resumeDeclaration, hc.size_eq, hts.length_eq]
  split
  · exact skipDeclaration_like hc
  · next hsize =>
    have hpast : (c.past t ts).Like v (c'.past t' ts') := .ofLikes ht.toLike hts hc.issues
      (hkeeps (by rwa [hc.size_eq, hts.length_eq]))
    exact skipDeclaration_like hpast

end

def NamesLike (v : Likeness) (group group' : Token × List Token) : Prop :=
  Token.Likes v (group.1 :: group.2) (group'.1 :: group'.2)

theorem NamesLike.first {group group' : Token × List Token} (h : NamesLike v group group') :
    group.1.Like v group'.1 := by
  cases h with
  | cons hfirst _ => exact hfirst.toLike

variable [hv : v.ForCode]

include hinp

theorem names_like (context : String) {c c' : Cursor} (hc : c.Like v c') :
    (names inp context c).Like v (NamesLike v) (names inp' context c') := by
  rw [names.eq_def inp, names.eq_def inp']
  refine (hc.expectName hinp _).andThen fun hname hc₁ => ?_
  refine hc₁.acceptOp (by decide) ?_ fun _ hc₂ => ?_
  · exact .ok (.cons hname .nil) hc₁
  · exact (names_like _ hc₂).andThen fun hmore hc₃ => .ok (.cons hname hmore) hc₃
termination_by c.size
decreasing_by all_goals omega

theorem declaration_like (hc : c.Like v c') :
    (declaration inp c).Like v (Looks (List.map (Variable.seen v))) (declaration inp' c') := by
  have hstops : ∀ t t' : Token, t.Like v t' →
      (t.isOp ";" || t.isWordIn sectionWords) = (t'.isOp ";" || t'.isWordIn sectionWords) := by
    intro t t' ht
    rw [ht.isOp_eq, ht.isWordIn_eq]
  unfold declaration
  refine (names_like hinp _ hc).andThen @fun group group' _ _ _ _ hgroup hc₁ => ?_
  refine hc₁.expectThen (hc₁.letsOp (by decide)) hinp (fun t t' ht => ht.isOp_eq ":")
    (fun found => hgroup.first.remark_eq fun t =>
    .expected ":" s!"after variable '{t.value}'" found) fun hc₂ hlast => ?_
  refine collected_like hstops (fun t ht => by simp [ht]) hc₂ (Token.isOpIn_of_isOp hlast (by decide))
    (fun hc₃ => ?_)
    @fun first rest first' rest' _ _ _ _ hfirst hrest hc₃ => ?_
  · exact .fail ⟨hgroup.first.remark_eq fun t => .expectedVariableType t.value, (hc₃.head hinp).at_span⟩ hc₃
  · have hvars : ∀ {last last' : Token}, last.Like v last' →
        ((group.1 :: group.2).map fun name => Variable.seen v
          { name := name.value, type := typeRef inp first rest, span := Span.covering name.span last.span
            quoted := name.isQuoted, label := typeLabel? inp first rest }) =
        (group'.1 :: group'.2).map fun name => Variable.seen v
          { name := name.value, type := typeRef inp' first' rest', span := Span.covering name.span last'.span
            quoted := name.isQuoted, label := typeLabel? inp' first' rest' } := by
      intro last last' hlast
      refine hgroup.map_eq fun t t' ht => ?_
      simp only [Variable.seen, ht.see_value, ht.covering_eq hlast, ht.isQuoted_eq,
        typeRef_like hinp hfirst hrest, typeLabel?_like hinp hfirst.toLike hrest]
    dsimp -zeta only
    extract_lets c₄ _ c₄' _
    have hc₄ : c₄.1.Like v c₄'.1 := by
      simp only [c₄, c₄']
      refine hc₃.acceptSemicolon ?_ fun _ hd => hd
      exact hc₃.report (hgroup.first.remark_eq fun t => .unterminatedVariable t.value) (hc₃.head hinp).at_span
    refine .ok ?_ hc₄
    rw [Looks, map_map, map_map]
    exact hvars hc₄.last

/-- Declarations, if the first of them and those after it are read in the same way. -/
theorem declarations_like_of (hc : c.Like v c')
    (hmore : ∀ d d', d.size < c.size → d.Like v d' →
      (declarations inp d).Like v (Looks (List.map (Variable.seen v))) (declarations inp' d')) :
    (declarations inp c).Like v (Looks (List.map (Variable.seen v))) (declarations inp' c') := by
  have hrest := hc.likes
  have hd := declaration_like hinp hc
  have hpeek := hc.peek hinp
  obtain ⟨last, rest, issues⟩ := c
  obtain ⟨last', rest', issues'⟩ := c'
  rw [declarations.eq_def inp, declarations.eq_def inp']
  cases hrest with
  | nil => exact ⟨rfl, hc⟩
  | @cons t t' ts ts' ht hts =>
  dsimp only
  rw [← startsDeclaration_eq ht.toLike hpeek]
  split
  · next hstart =>
    have hbrace : t.isOp "\x7d" = false := by
      refine Bool.eq_false_iff.2 fun hbrace => ?_
      simp [startsDeclaration, isName_of_isOpIn hbrace] at hstart
    generalize declaration inp _ = x at hd ⊢
    generalize declaration inp' _ = x' at hd ⊢
    cases hd with
    | @ok group group' c₁ c₁' h₁ h₁' hgroup hc₁ =>
      have hnext := hmore _ _ h₁ hc₁
      exact ⟨by rw [Looks, map_append, map_append, hgroup, hnext.value], hnext.next⟩
    | @fail issue issue' c₁ c₁' h₁ h₁' hissue hc₁ =>
      have hle := size_resumeDeclaration_le t ts (c₁.report issue.complaint issue.span)
      have hc₂ := hc₁.report hissue.remark hissue.place
      have hnext := hmore _ _ (Nat.lt_succ_of_le hle) (resumeDeclaration_like ht hts hc₂ fun hlt =>
        hv.keeps_resume hc.keeps hc₂.keeps rfl hbrace (Nat.le_antisymm h₁ (Nat.lt_of_not_le hlt)))
      exact ⟨hnext.value, hnext.next⟩
  · exact ⟨rfl, hc⟩

theorem declarations_like {c c' : Cursor} (hc : c.Like v c') :
    (declarations inp c).Like v (Looks (List.map (Variable.seen v))) (declarations inp' c') :=
  declarations_like_of hinp hc fun _ _ _ hd => declarations_like hd
termination_by c.size
decreasing_by all_goals omega

theorem parameters_like {c c' : Cursor} (hc : c.Like v c') :
    (parameters inp c).Like v (Looks (List.map (Parameter.seen v))) (parameters inp' c') := by
  rw [parameters.eq_def inp, parameters.eq_def inp']
  refine hc.acceptOp (by decide) ?_ fun _ hc₁ => ?_
  · dsimp -zeta only
    rw [(hc.head hinp).kind_eq]
    split
    · exact hc.failHere hinp rfl
    extract_lets start hsize start' hsize'
    have hstart : start.1 = start'.1 ∧ start.2.1.Like v start'.2.1 := by
      simp only [start, start']
      refine hc.takeSame (fun t t' ht => byRef?_eq (hc.peek hinp) ht) ?_ fun hnext => ?_
      · exact ⟨rfl, hc⟩
      · exact ⟨rfl, hnext⟩
    refine (names_like hinp _ hstart.2).andThen @fun group group' _ _ _ _ hgroup hc₁ => ?_
    refine hc₁.expectThen (hc₁.letsOp (by decide)) hinp (fun t t' ht => ht.isOp_eq ":")
      (fun found => hgroup.first.remark_eq fun t =>
      .expected ":" s!"after parameter '{t.value}'" found) fun hc₂ hlast => ?_
    refine collected_like (fun t t' ht => ht.isOp_eq ";") (fun _ => id) hc₂
      (Token.isOpIn_of_isOp hlast (by decide)) (fun hc₃ => ?_)
      @fun first rest first' rest' _ _ _ _ hfirst hrest hc₃ => ?_
    · exact .fail ⟨hgroup.first.remark_eq fun t => .expectedParameterType t.value,
        (hc₃.head hinp).at_span⟩ hc₃
    have hthese : ((group.1 :: group.2).map fun name => Parameter.seen v
          { name := name.value, type := typeRef inp first rest, span := name.span, byRef := start.1 }) =
        (group'.1 :: group'.2).map fun name => Parameter.seen v
          { name := name.value, type := typeRef inp' first' rest', span := name.span,
            byRef := start'.1 } := by
      refine hgroup.map_eq fun t t' ht => ?_
      simp only [Parameter.seen, ht.see_value, ht.span_eq, hstart.1, typeRef_like hinp hfirst hrest]
    dsimp only
    refine hc₃.acceptSemicolon ?_ fun _ hc₄ => ?_
    · refine (hc₃.expectOp hinp (by decide) _).andThen fun _ hc₄ => .ok ?_ hc₄
      rw [Looks, map_map, map_map]
      exact hthese
    · refine (parameters_like hc₄).andThen fun hmore hc₅ => .ok ?_ hc₅
      rw [Looks, map_append, map_append, hmore, map_map, map_map]
      exact congrArg (· ++ _) hthese
  · exact .ok rfl hc₁
termination_by c.size
decreasing_by all_goals omega

theorem parameterList_like (hc : c.Like v c') :
    (parameterList inp c).Like v (Looks (List.map (Parameter.seen v))) (parameterList inp' c') := by
  unfold parameterList
  refine hc.acceptOp (by decide) ?_ fun _ hc₁ => ?_
  · exact .ok rfl hc
  · exact (parameters_like hinp hc₁).weaken

theorem returnName_like (hc : c.Like v c') :
    (returnName inp c).Like v (Looks (Option.map v.see)) (returnName inp' c') := by
  unfold returnName
  dsimp only
  refine hc.accept (hc.letsWord (fun t ht => by simp [Token.isName, ht]) fun t ht =>
    by simp [Token.isName, ht])
    (fun t t' ht => show (t.isName && (c.peek inp).isOp ":" && !t.isWord "var") =
        (t'.isName && (c'.peek inp').isOp ":" && !t'.isWord "var") by
      rw [ht.isName_eq, (hc.peek hinp).isOp_eq, ht.isWord_eq]) ?_ fun ht hc₁ => ?_
  · exact ⟨rfl, hc⟩
  · exact ⟨congrArg some ht.see_value, hc₁⟩

theorem returnType_like {name name' : Token} (hname : name.Like v name')
    (hc : c.Like v c') :
    (returnType inp name.value c).Like v (Looks (Option.map (TypeRef.seen v)))
      (returnType inp' name'.value c') := by
  have hstops : ∀ t t' : Token, t.Like v t' →
      (t.isOp ";" || t.isWordIn ["var", "begin"]) = (t'.isOp ";" || t'.isWordIn ["var", "begin"]) := by
    intro t t' ht
    rw [ht.isOp_eq, ht.isWordIn_eq]
  unfold returnType
  rw [Cursor.acceptOp, Cursor.acceptOp]
  refine hc.acceptLast (hc.letsOp (by decide)) (fun _ _ ht => ht.isOp_eq ":") ?_ fun _ hc₁ hlast => ?_
  · exact .ok rfl (hc.skipSemicolon)
  · dsimp only
    refine collected_like hstops (fun t ht => by simp [ht]) hc₁ (Token.isOpIn_of_isOp hlast (by decide))
      (fun hc₂ => ?_) fun hfirst hrest hc₂ => ?_
    · exact .fail ⟨hname.remark_eq fun t => .expectedReturnType t.value, (hc₂.head hinp).at_span⟩ hc₂
    · exact .ok (congrArg some (typeRef_like hinp hfirst hrest)) (hc₂.skipSemicolon)

theorem localVariables_like (hc : c.Like v c') :
    (localVariables inp c).Like v (Looks (List.map (Variable.seen v))) (localVariables inp' c') := by
  unfold localVariables
  refine hc.acceptWord "var" ?_ fun _ hc₁ => ?_
  · exact ⟨rfl, hc⟩
  · have hvars := declarations_like hinp hc₁
    exact ⟨hvars.value, hvars.next⟩

theorem codeBody_like (hc : c.Like v c') :
    (codeBody inp c).Like v (Looks (Option.map (Stmt.seenAll v))) (codeBody inp' c') := by
  unfold codeBody
  refine hc.acceptWord "begin" ?_ fun ht hc₁ => ?_
  · exact ⟨rfl, hc⟩
  · have hbody := compound_like hinp ht.toLike hc₁
    exact ⟨congrArg some hbody.value, hbody.next.skipSemicolon⟩

theorem codeHeader_like {attributes : List String}
    (hattributes : attributes.map v.raw = attributes'.map v.raw)
    (hlead : Option.Rel (Token.Like v) lead lead') (hc : c.Like v c') :
    (codeHeader inp attributes lead c).Like v (Looks (CodeMember.seen v))
      (codeHeader inp' attributes' lead' c') := by
  have hhead := hc.head hinp
  have hdoc : v.notes (((lead.map Token.docs).getD []) ++ (c.head inp).docs) =
      v.notes (((lead'.map Token.docs).getD []) ++ (c'.head inp').docs) := by
    rw [v.notes_append, v.notes_append, hhead.docs_eq]
    congr 1
    cases hlead with
    | none => rfl
    | some ht => exact ht.docs_eq
  unfold codeHeader
  extract_lets start doc front hsize start' doc' front' hsize'
  have hfront : front.1 = front'.1 ∧ front.2.1.Like v front'.2.1 := by
    simp only [front, front']
    refine hc.takeSame (fun t t' ht => visibility?_eq ht) ?_ fun hnext => ?_
    · exact ⟨rfl, hc⟩
    · exact ⟨rfl, hnext⟩
  refine (hfront.2.expect (hfront.2.letsWord (wordy_isWordIn _) (wordy_isWordIn _)) hinp
    (fun t t' ht => ht.isWordIn_eq _) fun _ => rfl).andThen
    fun hkeyword hc₁ => ?_
  refine (hc₁.expect (hc₁.letsWord wordy_isName wordy_isName) hinp (fun t t' ht => ht.isName_eq) fun found =>
    hkeyword.remark_eq fun t =>
    .expectedName s!"after '{t.value}'" found).andThen fun hname hc₂ => ?_
  refine (parameterList_like hinp hc₂).andThen @fun _ _ c₃ c₃' _ _ hparameters hc₃ => ?_
  have hreturnName := returnName_like hinp hc₃
  generalize returnName inp c₃ = w at hreturnName ⊢
  generalize returnName inp' c₃' = w' at hreturnName ⊢
  obtain ⟨returnName, c₄, h₄⟩ := w
  obtain ⟨returnName', c₄', h₄'⟩ := w'
  obtain ⟨hreturnName, hc₄⟩ := hreturnName
  dsimp only at hreturnName hc₄ ⊢
  refine (returnType_like hinp hname.toLike hc₄).andThen @fun _ _ c₅ c₅' _ _ hreturnType hc₅ => ?_
  have hvars := localVariables_like hinp hc₅
  generalize localVariables inp c₅ = x at hvars ⊢
  generalize localVariables inp' c₅' = x' at hvars ⊢
  obtain ⟨vars, c₆, h₆⟩ := x
  obtain ⟨vars', c₆', h₆'⟩ := x'
  obtain ⟨hvars, hc₆⟩ := hvars
  refine .ok ?_ hc₆
  dsimp only at hvars hc₆
  simp only [Looks, CodeMember.seen, hkeyword.isWord_eq, hname.see_value, hc₆.spanFrom_eq hhead,
    start, start', doc, doc', hfront.1, hattributes, hparameters, hreturnType, hreturnName, hvars, hdoc]

theorem code_like {attributes : List String}
    (hattributes : attributes.map v.raw = attributes'.map v.raw)
    (hlead : Option.Rel (Token.Like v) lead lead') (hc : c.Like v c') :
    (code inp attributes lead c).Like v (Looks (CodeMember.seen v)) (code inp' attributes' lead' c') := by
  refine (codeHeader_like hinp hattributes hlead hc).andThen @fun _ _ d d' _ _ hm hd => ?_
  have hbody := codeBody_like hinp hd
  dsimp only
  generalize codeBody inp d = x at hbody ⊢
  generalize codeBody inp' d' = x' at hbody ⊢
  obtain ⟨body, e, he⟩ := x
  obtain ⟨body', e', he'⟩ := x'
  obtain ⟨hbody, he⟩ := hbody
  have hisSome : body.isSome = body'.isSome := by
    simpa only [Option.isSome_map] using congrArg Option.isSome hbody
  refine .ok ?_ he
  simp only [Looks, CodeMember.seen, CodeMember.mk.injEq] at hm ⊢
  simp only [hm, getD_eq_of_map hbody [], hisSome, he.spanFrom_eq (hc.head hinp), and_self]

end AlLint.Reading
