import AlLint.Reading.File

/-!
# Seeing no more of a text than matters

A `View` is a way to look at what is read under which different texts may look the same, for example texts that
differ in the case of their letters, or in the layout of their lines. What it leaves out of names must not
matter where they are compared in lower case, to blanks at the ends, and to whole numbers; text that is only
copied, places and comments may look in any way.

`seen` looks in this way at a token or at a part of the syntax. Kinds and the like stay as they are; the text of
an operator stays too.
-/

namespace AlLint

/-- A way to look at names and values, at copied text, at places and offsets, and at comments. -/
structure View where
  see : String → String
  raw : String → String
  place : Span → Span
  offset : Nat → Nat
  notes : List Comment → List Comment
  raw_eq : ∀ {s s'}, see s = see s' → raw s = raw s'
  notes_append : ∀ cs cs', notes (cs ++ cs') = notes cs ++ notes cs'
  lower_see : ∀ s, Text.lower (see s) = Text.lower s
  see_strip : ∀ s, see (Text.strip s) = Text.strip (see s)
  wholeNumber?_see : ∀ s, wholeNumber? (see s) = wholeNumber? s

namespace View

abbrev plain : View :=
  ⟨fun s => s, fun s => s, fun s => s, fun n => n, fun cs => cs, fun h => h, fun _ _ => rfl,
    fun _ => rfl, fun _ => rfl, fun _ => rfl⟩

/-- Sees no more than names and values: neither where they stand nor what stands between them. -/
def bare : View :=
  ⟨id, fun _ => "", fun _ => default, fun _ => 0, fun _ => [], fun _ => rfl, fun _ _ => rfl,
    fun _ => rfl, fun _ => rfl, fun _ => rfl⟩

variable {v : View} {s s' : String}

theorem lower_eq (h : v.see s = v.see s') : Text.lower s = Text.lower s' := by
  rw [← v.lower_see s, h, v.lower_see]

theorem strip_eq (h : v.see s = v.see s') : v.see (Text.strip s) = v.see (Text.strip s') := by
  rw [v.see_strip, h, v.see_strip]

theorem wholeNumber?_eq (h : v.see s = v.see s') : wholeNumber? s = wholeNumber? s' := by
  rw [← v.wholeNumber?_see s, h, v.wholeNumber?_see]

end View

theorem map_eq_self {α : Type} {f : α → α} (h : ∀ a, f a = a) (l : List α) : l.map f = l := by
  rw [show f = id from funext h, List.map_id]

theorem option_map_eq_self {α : Type} {f : α → α} (h : ∀ a, f a = a) (o : Option α) : o.map f = o := by
  rw [show f = id from funext h, Option.map_id, id_eq]

/-! ## Tokens -/

namespace Token

def seen (v : View) (t : Token) : Token :=
  { t with
    text := if t.kind = .op then t.text else v.see t.text
    value := v.see t.value
    span := v.place t.span
    start := v.offset t.start
    stop := v.offset t.stop
    leading := v.notes t.leading }

theorem seen_plain (t : Token) : t.seen .plain = t := by
  simp only [seen, ite_self]

end Token

/-! ## Expressions and statements -/

namespace Expr

mutual

def seen (v : View) : Expr → Expr
  | constant value kind span => constant (v.see value) kind (v.place span)
  | name n quoted span => name (v.see n) quoted (v.place span)
  | member target n quoted span => member (seen v target) (v.see n) quoted (v.place span)
  | scope target n span => scope (seen v target) (v.see n) (v.place span)
  | index target indices span => index (seen v target) (seenAll v indices) (v.place span)
  | unary op operand span => unary op (seen v operand) (v.place span)
  | binary op left right span => binary op (seen v left) (seen v right) (v.place span)
  | set items span => set (seenAll v items) (v.place span)
  | call callee args implicit span => call (seen v callee) (seenAll v args) implicit (v.place span)

def seenAll (v : View) : List Expr → List Expr
  | [] => []
  | e :: rest => seen v e :: seenAll v rest

end

theorem span_seen (v : View) (e : Expr) : (e.seen v).span = v.place e.span := by
  cases e <;> rfl

theorem isLiteral_seen (v : View) (e : Expr) : Reading.isLiteral (e.seen v) = Reading.isLiteral e := by
  cases e <;> rfl

mutual

theorem seen_plain : ∀ e : Expr, e.seen .plain = e
  | constant .. => rfl
  | name .. => rfl
  | member target .. => by rw [seen, seen_plain target]
  | scope target .. => by rw [seen, seen_plain target]
  | index target indices _ => by rw [seen, seen_plain target, seenAll_plain indices]
  | unary _ operand _ => by rw [seen, seen_plain operand]
  | binary _ left right _ => by rw [seen, seen_plain left, seen_plain right]
  | set items _ => by rw [seen, seenAll_plain items]
  | call callee args .. => by rw [seen, seen_plain callee, seenAll_plain args]

theorem seenAll_plain : ∀ es : List Expr, seenAll .plain es = es
  | [] => rfl
  | e :: rest => by rw [seenAll, seen_plain e, seenAll_plain rest]

end

end Expr

def Call.seen (v : View) (c : Call) : Call := ⟨c.callee.seen v, Expr.seenAll v c.args, c.implicit, v.place c.span⟩

namespace Call

variable (v : View) (c : Call)

theorem method_seen : (c.seen v).method = c.method := by
  obtain ⟨callee, args, implicit, span⟩ := c
  cases callee <;> simp only [method, seen, Expr.seen, v.lower_see]

theorem receiver?_seen : (c.seen v).receiver? = c.receiver? := by
  obtain ⟨callee, args, implicit, span⟩ := c
  cases callee with
  | member target n quoted s => cases target <;> simp only [receiver?, seen, Expr.seen, v.lower_see]
  | _ => rfl

theorem isGlobal_seen : (c.seen v).isGlobal = c.isGlobal := by
  obtain ⟨callee, args, implicit, span⟩ := c
  cases callee <;> rfl

theorem seen_plain : c.seen .plain = c := by
  rw [seen, Expr.seen_plain, Expr.seenAll_plain]

end Call

namespace Stmt

mutual

def seen (v : View) : Stmt → Stmt
  | assignment target op value span => assignment (target.seen v) op (value.seen v) (v.place span)
  | call c span => call (c.seen v) (v.place span)
  | error c span => error (c.seen v) (v.place span)
  | ifThen condition thenBody elseBody span =>
    ifThen (condition.seen v) (seenAll v thenBody) (seenElse v elseBody) (v.place span)
  | caseOf selector branches elseBody span =>
    caseOf (selector.seen v) (seenBranches v branches) (seenElse v elseBody) (v.place span)
  | repeatUntil body condition span => repeatUntil (seenAll v body) (condition.seen v) (v.place span)
  | whileDo condition body span => whileDo (condition.seen v) (seenAll v body) (v.place span)
  | forTo counter first last down body span =>
    forTo (counter.seen v) (first.seen v) (last.seen v) down (seenAll v body) (v.place span)
  | forEach item iterable body span => forEach (item.seen v) (iterable.seen v) (seenAll v body) (v.place span)
  | exit value span => exit (value.map (Expr.seen v)) (v.place span)
  | block body span => block (seenAll v body) (v.place span)
  | withDo target body span => withDo (target.seen v) (seenAll v body) (v.place span)
  | jump j span => jump j (v.place span)

def seenAll (v : View) : List Stmt → List Stmt
  | [] => []
  | s :: rest => seen v s :: seenAll v rest

def seenElse (v : View) : Option (List Stmt) → Option (List Stmt)
  | none => none
  | some body => some (seenAll v body)

def seenBranches (v : View) : List (Branch Stmt) → List (Branch Stmt)
  | [] => []
  | ⟨values, body, span⟩ :: rest => ⟨Expr.seenAll v values, seenAll v body, v.place span⟩ :: seenBranches v rest

end

theorem span_seen (v : View) (s : Stmt) : (s.seen v).span = v.place s.span := by
  cases s <;> rfl

mutual

theorem seen_plain : ∀ s : Stmt, s.seen .plain = s
  | assignment target _ value _ => by rw [seen, target.seen_plain, value.seen_plain]
  | call c _ => by rw [seen, c.seen_plain]
  | error c _ => by rw [seen, c.seen_plain]
  | ifThen condition thenBody elseBody _ => by
    rw [seen, condition.seen_plain, seenAll_plain thenBody, seenElse_plain elseBody]
  | caseOf selector branches elseBody _ => by
    rw [seen, selector.seen_plain, seenBranches_plain branches, seenElse_plain elseBody]
  | repeatUntil body condition _ => by rw [seen, seenAll_plain body, condition.seen_plain]
  | whileDo condition body _ => by rw [seen, condition.seen_plain, seenAll_plain body]
  | forTo counter first last _ body _ => by
    rw [seen, counter.seen_plain, first.seen_plain, last.seen_plain, seenAll_plain body]
  | forEach item iterable body _ => by rw [seen, item.seen_plain, iterable.seen_plain, seenAll_plain body]
  | exit value _ => by rw [seen, option_map_eq_self Expr.seen_plain]
  | block body _ => by rw [seen, seenAll_plain body]
  | withDo target body _ => by rw [seen, target.seen_plain, seenAll_plain body]
  | jump .. => rfl

theorem seenAll_plain : ∀ ss : List Stmt, seenAll .plain ss = ss
  | [] => rfl
  | s :: rest => by rw [seenAll, seen_plain s, seenAll_plain rest]

theorem seenElse_plain : ∀ body : Option (List Stmt), seenElse .plain body = body
  | none => rfl
  | some body => by rw [seenElse, seenAll_plain body]

theorem seenBranches_plain : ∀ branches : List (Branch Stmt), seenBranches .plain branches = branches
  | [] => rfl
  | ⟨values, body, _⟩ :: rest => by
    rw [seenBranches, Expr.seenAll_plain values, seenAll_plain body, seenBranches_plain rest]

end

end Stmt

/-! ## Types, members and objects -/

def Label.seen (v : View) (l : Label) : Label :=
  { l with
    text := v.see l.text
    comment := l.comment.map v.raw
    properties := l.properties.map (Prod.map id v.raw) }

theorem Label.seen_plain (l : Label) : l.seen .plain = l := by
  have hpair : ∀ p : String × String, Prod.map id View.plain.raw p = p := fun _ => rfl
  simp only [seen, map_eq_self hpair, option_map_eq_self fun _ => rfl]

def TypeRef.seen (v : View) : TypeRef → TypeRef
  | ⟨name, text, subtype, length, temporary, none, start⟩ =>
    ⟨v.see name, v.raw text, subtype.map v.see, length.map v.raw, temporary, none, start.map v.offset⟩
  | ⟨name, text, subtype, length, temporary, some element, start⟩ =>
    ⟨v.see name, v.raw text, subtype.map v.see, length.map v.raw, temporary, some (seen v element),
      start.map v.offset⟩

theorem TypeRef.key_seen (v : View) (t : TypeRef) : (t.seen v).key = t.key := by
  obtain ⟨name, text, subtype, length, temporary, _ | element, start⟩ := t <;> exact v.lower_see name

theorem TypeRef.seen_plain : ∀ t : TypeRef, t.seen .plain = t
  | ⟨_, _, _, _, _, none, _⟩ => by simp [seen]
  | ⟨_, _, _, _, _, some element, _⟩ => by rw [seen, seen_plain element]; simp

def Variable.seen (v : View) (x : Variable) : Variable :=
  { x with name := v.see x.name, type := x.type.seen v, span := v.place x.span, label := x.label.map (Label.seen v) }

theorem Variable.seen_plain (x : Variable) : x.seen .plain = x := by
  rw [seen, x.type.seen_plain, option_map_eq_self Label.seen_plain]

def Parameter.seen (v : View) (p : Parameter) : Parameter :=
  { p with name := v.see p.name, type := p.type.seen v, span := v.place p.span }

theorem Parameter.seen_plain (p : Parameter) : p.seen .plain = p := by
  rw [seen, p.type.seen_plain]

def Property.seen (v : View) (p : Property) : Property := ⟨v.see p.name, v.raw p.value, v.place p.span⟩

theorem Property.seen_plain (p : Property) : p.seen .plain = p := rfl

def CodeMember.seen (v : View) (c : CodeMember) : CodeMember :=
  { c with
    name := v.see c.name
    span := v.place c.span
    attributes := c.attributes.map v.raw
    parameters := c.parameters.map (Parameter.seen v)
    returnType := c.returnType.map (TypeRef.seen v)
    returnName := c.returnName.map v.see
    vars := c.vars.map (Variable.seen v)
    body := Stmt.seenAll v c.body
    doc := v.notes c.doc }

theorem CodeMember.seen_plain (c : CodeMember) : c.seen .plain = c := by
  rw [seen, map_eq_self Parameter.seen_plain, option_map_eq_self TypeRef.seen_plain, map_eq_self Variable.seen_plain,
    Stmt.seenAll_plain]
  simp

namespace Element

mutual

/-- An element as it is seen. Its keyword is in lower case already. -/
def seen (v : View) : Element → Element
  | ⟨keyword, span, args, properties, children, codes, vars, doc⟩ =>
    ⟨keyword, v.place span, args.map (·.map (Token.seen v)), properties.map (Property.seen v), seenAll v children,
      codes.map (CodeMember.seen v), vars.map (Variable.seen v), v.notes doc⟩

def seenAll (v : View) : List Element → List Element
  | [] => []
  | e :: rest => seen v e :: seenAll v rest

end

theorem seenAll_eq_map (v : View) (es : List Element) : seenAll v es = es.map (seen v) := by
  induction es with
  | nil => rfl
  | cons e es ih => rw [seenAll, ih, List.map_cons]

mutual

theorem seen_plain : ∀ e : Element, e.seen .plain = e
  | ⟨keyword, span, args, properties, children, codes, vars, doc⟩ => by
    rw [seen, map_eq_self (map_eq_self Token.seen_plain), map_eq_self Property.seen_plain, seenAll_plain children,
      map_eq_self CodeMember.seen_plain, map_eq_self Variable.seen_plain]

theorem seenAll_plain : ∀ es : List Element, seenAll .plain es = es
  | [] => rfl
  | e :: rest => by rw [seenAll, seen_plain e, seenAll_plain rest]

end

end Element

def ObjectSyntax.seen (v : View) (o : ObjectSyntax) : ObjectSyntax :=
  { o with
    name := v.see o.name
    extends? := o.extends?.map v.see
    implements := o.implements.map v.see
    body := o.body.seen v }

theorem ObjectSyntax.seen_plain (o : ObjectSyntax) : o.seen .plain = o := by
  rw [seen, o.body.seen_plain]
  simp

end AlLint
