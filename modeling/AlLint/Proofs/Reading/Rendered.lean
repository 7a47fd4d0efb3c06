import AlLint.Proofs.Reading.Laid
import AlLint.Proofs.Reading.MemberInverse
import AlLint.Proofs.Source.Cutting
import AlLint.Proofs.Source.Layout

/-!
# Reading what messages show

Messages show an expression on one line (`Expr.text`), without the parentheses that grouped its operands. An
expression that needs none (`Expr.IsPlain`) is read back from that line as it was, whatever stood in the text
that it was read from: strings with quotes, quoted names, calls without parentheses, ranges without an upper
end.

Two things are shown of an expression that was read, with one induction over the readers (`Obtained`): the
line is scanned as the lexemes that the expression is written with, because its names and literals come from
tokens, and the expression can be written, so that reading inverts writing. The same induction counts
parentheses. Those of argument lists are as many as the calls that have one, so if no more were passed, none
of them grouped anything, and the expression is plain.
-/

namespace AlLint

open List AlLint.Expr AlLint.Text

/-! ## Values of tokens -/

/-- What a token of a text stands for can be written. -/
def Token.Sound (t : Token) : Prop :=
  match t.kind with
  | .ident => TokenKind.ident.Shaped t.value.toList []
  | .number => t.value = t.text ∧ TokenKind.number.Shaped t.text.toList []
  | .quoted => '"' ∉ t.value.toList ∧ '\n' ∉ t.value.toList
  | .string => '\n' ∉ t.value.toList
  | _ => True

theorem unpaired_subset (cs : List Char) : Scan.unpaired cs ⊆ cs := by
  fun_induction Scan.unpaired cs with
  | case1 => simp
  | case2 rest ih => exact cons_subset_cons _ (subset_cons_of_subset _ ih)
  | case3 c rest hnot ih => exact cons_subset_cons _ ih

namespace Scan

variable {t : Token} {p q : Position} {pending : List Comment}

theorem sound_ofPiece {piece : Piece} {rest : List Char} (ht : t ∈ (Content.ofPiece p q pending piece).token?)
    (hshape : (Content.ofPiece p q pending piece).Shaped piece.chars rest)
    (hcomplaint : (Content.ofPiece p q pending piece).complaint? = complaint? piece) : t.Sound := by
  obtain ⟨kind, chars⟩ := piece
  have hend : EndsWord [] := by simp [EndsWord]
  cases kind <;> cases ht <;> obtain ⟨-, hshape⟩ := hshape <;>
    simp only [Token.Sound, valueOf, String.toList_ofList]
  case word =>
    obtain ⟨c, more, hchars, hc, hmore, -⟩ := hshape
    exact ⟨c, more, hchars, hc, hmore, hend⟩
  case number =>
    obtain ⟨whole, fraction, mark, hchars, hne, hwhole, hfraction, hmark, -⟩ := hshape
    exact ⟨trivial, whole, fraction, mark, hchars, hne, hwhole, hfraction, hmark, hend⟩
  case quotedName =>
    obtain ⟨inner, hquote, hfeed, rfl | ⟨rfl, -⟩⟩ := hshape
    · simpa using ⟨hquote, hfeed⟩
    · exact ⟨fun h => hquote (dropLast_subset _ h), fun h => hfeed (dropLast_subset _ h)⟩
  case openName =>
    obtain ⟨inner, hquote, hfeed, rfl | ⟨rfl, -⟩⟩ := hshape
    · -- it would not be open if it had a quote at its end
      simp [Content.ofPiece, commentKind?, tokenKind?, Content.complaint?, complaint?, lacksQuote_closed]
        at hcomplaint
    · exact ⟨hquote, hfeed⟩
  case string =>
    have hfeed : '\n' ∉ chars := Piece.feed_notMem_of_shaped hshape
    exact fun h => hfeed (mem_of_mem_tail (dropLast_subset _ (unpaired_subset _ h)))
  case openString =>
    have hfeed : '\n' ∉ chars := Piece.feed_notMem_of_shaped hshape
    exact fun h => hfeed (mem_of_mem_tail (unpaired_subset _ h))

theorem sound_place {cs : List Char} (ht : t ∈ (place p pending (Piece.cut cs)).tokens) : t.Sound := by
  fun_induction Piece.cut cs generalizing p pending with
  | case1 => cases ht
  | case2 c cs ih =>
    rw [place_cons] at ht
    rcases mem_append.1 ht with ht | ht
    · obtain ⟨hshape, hcomplaint⟩ := Piece.readsAs_extent c cs p _ pending
      exact sound_ofPiece (Option.mem_toList.1 ht) hshape hcomplaint
    · exact ih ht

theorem sound_ofText {text : String} (ht : t ∈ (ofText text).tokens) : t.Sound := by
  rw [ofText_eq_place] at ht
  exact sound_place ht

end Scan

/-! ## Expressions without grouping -/

namespace Expr

mutual

/-- An expression that is written without grouping parentheses: its operands bind tightly enough, and no call
without parentheses is called. Behind `::` stands what has the form of an identifier or of a number. -/
def IsPlain : Expr → Prop
  | constant .. | name .. => True
  | member target _ _ _ => target.IsPlain ∧ 5 ≤ target.tightness
  | scope target n _ =>
    (target.IsPlain ∧ 5 ≤ target.tightness) ∧
      (TokenKind.ident.Shaped n.toList [] ∨ TokenKind.number.Shaped n.toList [])
  | index target indices _ => (target.IsPlain ∧ 5 ≤ target.tightness) ∧ ArePlain indices
  | unary _ operand _ => operand.IsPlain ∧ 4 ≤ operand.tightness
  | binary op left right _ =>
    (left.IsPlain ∧ max 1 op.tightness ≤ left.tightness) ∧ right.IsPlain ∧ op.tightness + 1 ≤ right.tightness
  | set items _ => ArePlain items
  | call callee args implicit _ =>
    (callee.IsPlain ∧ 5 ≤ callee.tightness) ∧ (implicit = false → callee.isImplicitCall = false) ∧
      ArePlain args

def ArePlain : List Expr → Prop
  | [] => True
  | e :: rest => e.IsPlain ∧ ArePlain rest

end

/-- The number of calls with parentheses among some expressions. -/
def argumentLists (es : List Expr) : Nat := (es.filterMap asCall?).countP fun c => !c.implicit

end Expr

namespace Reading

open Cursor

/-- The number of parentheses that are opened among some tokens, and of quoted names right behind two
colons. -/
def marks : List Token → Nat
  | [] => 0
  | t :: ts => marks ts + if t.isOp "(" || t.isOp "::" && ts.head?.any Token.isQuoted then 1 else 0

/-- From `c` to `d` at least `n` marks are passed, and no more than these only if `P` holds. -/
structure Passes (c d : Cursor) (n : Nat) (P : Prop) : Prop where
  subset : d.rest ⊆ c.rest
  le : marks d.rest + n ≤ marks c.rest
  plain : marks c.rest ≤ marks d.rest + n → P

namespace Passes

variable {c d e : Cursor} {n m : Nat} {P Q : Prop}

theorem imp (h : Passes c d n P) (himp : P → Q)
    (hm : m = n := by simp [subexpressions, allSubexpressions, argumentLists, filterMap_cons, asCall?]) :
    Passes c d m Q := by
  subst hm
  exact ⟨h.subset, h.le, fun heq => himp (h.plain heq)⟩

theorem append (h : Passes c d n P) (h' : Passes d e m Q) : Passes c e (n + m) (P ∧ Q) := by
  have hle := h.le
  have hle' := h'.le
  exact ⟨fun _ ht => h.subset (h'.subset ht), by omega, fun heq => ⟨h.plain (by omega), h'.plain (by omega)⟩⟩

theorem refl (c : Cursor) : Passes c c 0 True := ⟨fun _ => id, Nat.le_refl _, fun _ => trivial⟩

/-- With a mark too many there is nothing to show. -/
theorem more (h : Passes c d (n + 1) P) : Passes c d n Q := by
  have hle := h.le
  exact ⟨h.subset, by omega, fun heq => by omega⟩

theorem token {t : Token} (hc : c.rest = t :: d.rest) : Passes c d 0 True := by
  refine ⟨by rw [hc]; exact subset_cons_self _ _, ?_, fun _ => trivial⟩
  rw [hc, marks]
  omega

theorem paren {t : Token} (hc : c.rest = t :: d.rest) (ht : t.isOp "(" = true) : Passes c d 1 True := by
  refine ⟨(token hc).subset, ?_, fun _ => trivial⟩
  rw [hc, marks, ht]
  exact Nat.le_refl _

theorem scope {s t : Token} (hc : c.rest = s :: d.rest) (hs : s.isOp "::" = true)
    (hd : d.rest = t :: e.rest) :
    Passes c e 0 (t.isQuoted = false) := by
  refine ((token hc).append (token hd)).subset |> fun hsub => ⟨hsub, ?_, ?_⟩
  · rw [hc, hd, marks, marks]
    omega
  · intro heq
    rw [hc, hd, marks, marks, hs] at heq
    cases hquoted : t.isQuoted with
    | false => rfl
    | true =>
      simp only [head?_cons, Option.any_some, hquoted, Bool.and_true, Bool.or_true, if_true] at heq
      omega

end Passes

/-! ### Names and literals -/

theorem isWritable_of_false {e : Expr} {called : Bool} (h : e.isWritable false = true) :
    e.isWritable called = true := by
  cases e with
  | member target n quoted span =>
    simp only [isWritable, Bool.and_eq_true] at h ⊢
    exact ⟨h.1, by simp_all⟩
  | _ => exact h

/-- A name is scanned as a name, and starts with no digit. -/
theorem writes_name {t : Token} (ht : t.Sound) (hname : t.isName = true) :
    Writes (nameText t.value t.isQuoted).toList [.name t.value t.isQuoted] ∧
      ∀ c ∈ (nameText t.value t.isQuoted).toList.head?, isDecimal c = false := by
  rcases (by simpa [Token.isName] using hname : t.kind = .ident ∨ t.kind = .quoted) with hkind | hkind
  · simp only [Token.Sound, hkind] at ht
    have hquoted : t.isQuoted = false := by simp [Token.isQuoted, hkind]
    rw [hquoted]
    refine ⟨.word ht fun u hu hvalue => by simp [Lexeme.spelledBy, hu, hvalue, nameText], ?_⟩
    obtain ⟨c, more, hchars, hc, -⟩ := ht
    rw [nameText, if_neg Bool.false_ne_true, hchars]
    rintro _ ⟨⟩
    simp only [isWordStart, Bool.and_eq_true, Bool.not_eq_true'] at hc
    exact hc.2
  · simp only [Token.Sound, hkind] at ht
    have hquoted : t.isQuoted = true := by simp [Token.isQuoted, hkind]
    rw [hquoted]
    refine ⟨.quotedName ht.1 ht.2, ?_⟩
    simp [nameText]
    decide

/-- A literal is scanned as the literal that it is. -/
theorem writes_literal {t : Token} {value : String} {kind : LiteralKind} (ht : t.Sound)
    (h : Start.of? t = some (.constant value kind)) (span : Span) :
    hasLiteral kind value = true ∧ Writes (Expr.constant value kind span).text.toList
      [kind.lexeme value] := by
  unfold Start.of? at h
  unfold Token.Sound at ht
  split at h
  · next hkind =>
    rw [hkind] at ht
    cases h
    have hnumber : LiteralKind.ofNumber t.text = .date ∨ LiteralKind.ofNumber t.text = .number := by
      unfold LiteralKind.ofNumber
      dsimp only
      split <;> simp
    have hwrites : Writes t.text.toList [.number t.text] :=
      .number ht.2 fun u hu htext _ => by simp [Lexeme.spelledBy, hu, htext]
    rcases hnumber with hnumber | hnumber <;>
      simpa [hasLiteral, text, LiteralKind.lexeme, hnumber] using hwrites
  · next hkind =>
    rw [hkind] at ht
    cases h
    exact ⟨rfl, .string ht⟩
  · cases h
  · split at h
    · next hbool =>
      cases h
      rw [text, if_neg (by decide)]
      rcases (by simpa using hbool : t.lower = "true" ∨ t.lower = "false") with hbool | hbool <;> rw [hbool]
      · exact ⟨by decide, ⟨'t', rfl, by decide⟩, .keyword (w := "true") (by decide)⟩
      · exact ⟨by decide, ⟨'f', rfl, by decide⟩, .keyword (w := "false") (by decide)⟩
    · split at h <;> cases h
  · split at h
    · cases h
    · split at h <;> cases h
  · cases h

theorem isOpenRange_false (e : Expr) : e.isOpenRange (fun _ => false) = false := by
  unfold isOpenRange
  split <;> simp

theorem grouped_of_le {n k : Nat} {xs : List Lexeme} (h : k ≤ n) : grouped (n < k) xs = xs := by
  simp [grouped, Nat.not_lt.2 h]

/-- An expression that was read from `c` to `d`. It can be written (where arguments follow, if it is
`called`), the line that shows it is scanned as what it is written with, and if no marks were passed but those
of its argument lists, it needs no grouping on the level `k`. -/
structure Obtained (called : Bool) (k : Nat) (c d : Cursor) (e : Expr) : Prop where
  writable : e.isWritable called = true
  writes : e.IsPlain → Writes e.text.toList (e.lexemes true fun _ => false)
  passes : Passes c d (argumentLists e.subexpressions)
    ((e.IsPlain ∧ k ≤ e.tightness) ∧ (called = true → e.isImplicitCall = false))

namespace Obtained

variable {called : Bool} {j k : Nat} {b c d : Cursor} {e left right : Expr} {span : Span}

theorem mono (h : Obtained called k c d e) (hjk : j ≤ k) : Obtained called j c d e :=
  ⟨h.writable, h.writes, h.passes.imp fun hp => ⟨⟨hp.1.1, by omega⟩, hp.2⟩⟩

theorem past (h : Obtained false k b c e) (hpass : Passes c d 0 True) : Obtained false k b d e :=
  ⟨h.writable, h.writes, (h.passes.append hpass).imp And.left⟩

theorem binary (op : BinaryOp) (hl : Obtained false (max 1 op.tightness) b c left)
    (hr : Obtained false (op.tightness + 1) c d right) :
    Obtained false op.tightness b d (.binary op left right span) := by
  refine ⟨by simp [isWritable, hl.writable, hr.writable], fun hplain => ?_, ?_⟩
  · obtain ⟨hleft, hright⟩ := hplain
    have hwrites := (hl.writes hleft.1).binary op (hr.writes hright.1)
    simp only [lexemes, grouped_of_le hleft.2, grouped_of_le hright.2, isOpenRange_false]
    simpa [text] using hwrites
  · refine (hl.passes.append hr.passes).imp fun hp => ?_
    exact ⟨⟨⟨hp.1.1, hp.2.1⟩, Nat.le_refl _⟩, by simp⟩

theorem unary {op : UnaryOp} (hpass : Passes b c 0 True) (h : Obtained false 4 c d e) :
    Obtained false 4 b d (.unary op e span) := by
  refine ⟨by simp [isWritable, h.writable], fun hplain => ?_, ?_⟩
  · have hwrites := (h.writes hplain.1).unary op
    simp only [lexemes, grouped_of_le hplain.2]
    simpa [text] using hwrites
  · refine (hpass.append h.passes).imp fun hp => ?_
    exact ⟨⟨hp.2.1, Nat.le_refl _⟩, by simp⟩

theorem member {t next : Token} (h : Obtained false 5 b c e) (hpass : Passes c d 0 True) (ht : t.Sound)
    (hname : t.isName = true) :
    Obtained (next.isOp "(") 5 b d (memberOf e t next span) := by
  obtain ⟨hwrites, hdigit⟩ := writes_name ht hname
  have hmember (hplain : (Expr.member e t.value t.isQuoted span).IsPlain) :
      Writes (Expr.member e t.value t.isQuoted span).text.toList
        ((Expr.member e t.value t.isQuoted span).lexemes true fun _ => false) := by
    have hwrites := (h.writes hplain.1).member hwrites hdigit
    simp only [lexemes, grouped_of_le hplain.2]
    simpa [text] using hwrites
  have hmethod : (Expr.member e t.value t.isQuoted span).isImplicitMethod =
    implicitMethods.contains t.lower := by
    rcases (by simpa [Token.isName] using hname : t.kind = .ident ∨ t.kind = .quoted) with hkind | hkind
    · simp [isImplicitMethod, Token.isQuoted, Token.lower, hkind]
    · simp [isImplicitMethod, Token.isQuoted, Token.lower, hkind]; decide
  have hpasses := h.passes.append hpass
  unfold memberOf
  dsimp only
  split
  · next himplicit =>
    rw [Bool.and_eq_true, ← hmethod, Bool.not_eq_true'] at himplicit
    refine ⟨by simp [isWritable, areWritable, h.writable, himplicit.1], fun hplain => hmember hplain.1.1, ?_⟩
    refine hpasses.imp fun hp => ?_
    exact ⟨⟨⟨⟨hp.1.1, Nat.le_refl _⟩, by simp, trivial⟩, Nat.le_refl _⟩, by simp [himplicit.2]⟩
  · next hexplicit =>
    rw [← hmethod] at hexplicit
    refine ⟨?_, hmember, ?_⟩
    · simp only [isWritable, h.writable]
      cases hcalled : next.isOp "(" <;> simp_all
    · refine hpasses.imp fun hp => ?_
      exact ⟨⟨hp.1.1, Nat.le_refl _⟩, fun _ => rfl⟩

theorem scope {t : Token} (h : Obtained false 5 b c e) (hpass : Passes c d 0 (t.isQuoted = false))
    (ht : t.Sound)
    (hname : (t.isName || t.kind == .number) = true) : Obtained called 5 b d (.scope e t.value span) := by
  refine ⟨by simp [isWritable, h.writable], fun hplain => ?_, ?_⟩
  · obtain ⟨hplain, hshape⟩ := hplain
    have hlabel : Writes t.value.toList [.label t.value] := by
      rcases hshape with hshape | hshape
      · exact .word hshape fun u hu hvalue => by simp [Lexeme.spelledBy, Token.isName, hu, hvalue]
      · exact .number hshape fun u hu _ hvalue => by simp [Lexeme.spelledBy, hu, hvalue]
    have hwrites := (h.writes hplain.1).scope hlabel
    simp only [lexemes, grouped_of_le hplain.2]
    simpa [text] using hwrites
  · refine (h.passes.append hpass).imp fun hp => ?_
    refine ⟨⟨⟨hp.1.1, ?_⟩, Nat.le_refl _⟩, fun _ => rfl⟩
    unfold Token.Sound at ht
    have hquoted := hp.2
    cases hkind : t.kind <;> simp_all [Token.isName, Token.isQuoted]

end Obtained

/-- What `Obtained` says, of expressions with commas between them. -/
structure ObtainedAll (c d : Cursor) (es : List Expr) : Prop where
  writable : areWritable es = true
  writes : ArePlain es → WritesAll (listText es).toList (listLexemes true (fun _ => false) es)
  passes : Passes c d (argumentLists (allSubexpressions es)) (ArePlain es)

namespace Obtained

variable {called : Bool} {j k : Nat} {b c d : Cursor} {e : Expr} {es : List Expr}
  {span : Span} {quoted : Bool}

theorem index (h : Obtained false 5 b c e) (hliteral : isLiteral e = false) (hes : ObtainedAll c d es) :
    Obtained called 5 b d (.index e es span) := by
  refine ⟨by simp [isWritable, h.writable, hliteral, hes.writable], fun hplain => ?_, ?_⟩
  · obtain ⟨hplain, hall⟩ := hplain
    have hwrites := (h.writes hplain.1).append fun _ hys =>
      ⟨.cons (by simp [stopSigns]), ((hes.writes hall).between hys).2⟩
    simp only [lexemes, grouped_of_le hplain.2]
    simpa [text] using hwrites
  · refine (h.passes.append hes.passes).imp fun hp => ?_
    exact ⟨⟨⟨hp.1.1, hp.2⟩, Nat.le_refl _⟩, fun _ => rfl⟩

theorem call {c' : Cursor} (h : Obtained true 5 b c e) (hpass : Passes c c' 1 True)
    (hes : ObtainedAll c' d es) :
    Obtained called 5 b d (.call e es false span) := by
  refine ⟨by simp [isWritable, h.writable, hes.writable], fun hplain => ?_, ?_⟩
  · obtain ⟨hplain, hcallee, hall⟩ := hplain
    have hwrites := (h.writes hplain.1).append fun _ hys =>
      ⟨.cons (by simp [stopSigns]), ((hes.writes hall).between hys).1⟩
    simp only [lexemes, hcallee, Bool.and_false, Bool.or_false, grouped_of_le hplain.2]
    simpa [text] using hwrites
  · refine ((h.passes.append hpass).append hes.passes).imp (fun hp => ?_) ?_
    · exact ⟨⟨⟨hp.1.1.1, fun _ => hp.1.1.2 rfl, hp.2⟩, Nat.le_refl _⟩, fun _ => rfl⟩
    · simp [subexpressions, argumentLists, asCall?]
      omega

theorem set (hpass : Passes b c 0 True) (hes : ObtainedAll c d es) :
    Obtained called 5 b d (.set es span) := by
  refine ⟨by simp [isWritable, hes.writable], fun hplain => ?_, ?_⟩
  · have hwrites : Writes _ _ := ⟨⟨'[', rfl, by decide⟩, fun _ hys => ((hes.writes hplain).between hys).2⟩
    simpa [text, lexemes] using hwrites
  · refine (hpass.append hes.passes).imp fun hp => ?_
    exact ⟨⟨hp.2, Nat.le_refl _⟩, fun _ => rfl⟩

theorem group {c' : Cursor} (hpass : Passes b c 1 True) (h : Obtained false k c c' e)
    (hclose : Passes c' d 0 True) :
    Obtained called j b d e :=
  ⟨isWritable_of_false h.writable, h.writes,
    ((hpass.append (h.past hclose).passes).imp id (Nat.add_comm _ _)).more⟩

theorem literal {t : Token} {value : String} {kind : LiteralKind} (hpass : Passes c d 0 True) (ht : t.Sound)
    (hstart : Start.of? t = some (.constant value kind)) :
    Obtained called 5 c d (.constant value kind span) := by
  obtain ⟨hliteral, hwrites⟩ := writes_literal ht hstart span
  exact ⟨hliteral, fun _ => hwrites, hpass.imp fun _ => ⟨⟨trivial, Nat.le_refl _⟩, fun _ => rfl⟩⟩

theorem name {t : Token} {value : String} (hpass : Passes c d 0 True) (ht : t.Sound)
    (hstart : Start.of? t = some (.name value quoted)) (hunary : unaryOp? t = none) :
    Obtained called 5 c d (.name value quoted span) := by
  obtain ⟨hname, rfl, rfl, hword⟩ : t.isName = true ∧ value = t.value ∧ quoted = t.isQuoted ∧
      (t.isQuoted || !("true" :: "false" :: "not" :: reservedWords).contains (Text.lower t.value)) =
        true := by
    have hnot : t.isWord "not" = false := by
      rw [← Bool.not_eq_true]
      exact fun hnot => by simp [unaryOp?, hnot] at hunary
    unfold Start.of? at hstart
    split at hstart
    case h_4 | h_5 => split at hstart; cases hstart; split at hstart <;> cases hstart <;>
      simp_all [Token.isName, Token.isQuoted, Token.lower, Token.isWord, Token.isWordIn]
    all_goals simp_all [Token.isName, Token.isQuoted]
  have hwrites := (writes_name ht hname).1
  exact ⟨hword, fun _ => by simpa [text, lexemes] using hwrites, hpass.imp fun _ =>
    ⟨⟨trivial, Nat.le_refl _⟩, fun _ => rfl⟩⟩

end Obtained

namespace ObtainedAll

variable {b c d : Cursor} {e : Expr} {es : List Expr}

theorem past (h : ObtainedAll b c es) (hpass : Passes c d 0 True) : ObtainedAll b d es :=
  ⟨h.writable, h.writes, (h.passes.append hpass).imp And.left⟩

theorem nil (hpass : Passes c d 0 True) : ObtainedAll c d [] :=
  ⟨rfl, fun _ => .nil, hpass.imp fun _ => trivial⟩

theorem single (h : Obtained false 0 c d e) : ObtainedAll c d [e] := by
  refine ⟨by simp [areWritable, h.writable], fun hplain => .single (h.writes hplain.1), ?_⟩
  exact h.passes.imp fun hp => ⟨hp.1.1, trivial⟩

theorem cons (h : Obtained false 0 b c e) (h' : ObtainedAll c d es) (hne : es ≠ []) :
    ObtainedAll b d (e :: es) := by
  refine ⟨by simp [areWritable, h.writable, h'.writable], fun hplain => ?_, ?_⟩
  · have hwrites := WritesAll.cons (h.writes hplain.1) (h'.writes hplain.2)
    obtain ⟨e', es, rfl⟩ := exists_cons_of_ne_nil hne
    rw [listText, listLexemes]
    · simpa using hwrites
    · simp
    · simp
  · exact (h.passes.append h'.passes).imp fun hp => ⟨hp.1.1.1, hp.2⟩

end ObtainedAll

/-! ## All readers of expressions -/

/-- The tokens that are left are those of a text. -/
structure Cursor.Sound (inp : Input) (c : Cursor) : Prop where
  eof : inp.eof.kind = .eof
  rest : ∀ t ∈ c.rest, t.Sound

theorem Passes.sound {inp : Input} {c d : Cursor} {n : Nat} {P : Prop} (h : Passes c d n P)
    (hc : c.Sound inp) : d.Sound inp :=
  ⟨hc.eof, fun t ht => hc.rest t (h.subset ht)⟩

theorem exists_taken {β : Type} {c d : Cursor} {f : Token → Option β} {b : β} {h : d.size < c.size}
    (htake : c.take f = some (b, ⟨d, h⟩)) : ∃ t, c.rest = t :: d.rest ∧ f t = some b := by
  obtain ⟨t, ts, hc, rfl, hf⟩ := exists_of_take htake
  exact ⟨t, hc, hf⟩

theorem refused_of_take {β : Type} {c : Cursor} {f : Token → Option β} {t : Token} {ts : List Token}
    (h : c.take f = none) (hc : c.rest = t :: ts) : f t = none := by
  cases hf : f t with
  | none => rfl
  | some b =>
    obtain ⟨_, hsome⟩ := take_eq_some hc hf
    cases h.symm.trans hsome

/-- Arguments follow exactly where a call does. -/
theorem taken_suffix {c d : Cursor} {literal : Bool} {s : Suffix} {h : d.size < c.size} (inp : Input)
    (htake : c.take (Suffix.of? literal) = some (s, ⟨d, h⟩)) : ∃ t, c.rest = t :: d.rest ∧
      ((c.head inp).isOp "(" = t.isOp "(" ∧ (t.isOp "(" = true ↔ s = .call)) ∧
        (s = .scope → t.isOp "::" = true) ∧
      (s = .index → literal = false) := by
  obtain ⟨t, hrest, hs⟩ := exists_taken htake
  refine ⟨t, hrest, ⟨by rw [head_eq hrest], ?_⟩, ?_⟩ <;> unfold Suffix.of? at hs <;>
    grind [Token.isOp, Token.isOpIn]

theorem no_suffix {inp : Input} {c : Cursor} {literal : Bool} (hc : c.Sound inp)
    (h : c.take (Suffix.of? literal) = none) : (c.head inp).isOp "(" = false := by
  rw [← Bool.not_eq_true]
  intro hparen
  cases hrest : c.rest with
  | nil =>
    rw [Cursor.head, hrest] at hparen
    exact absurd (Token.isOp_iff.1 hparen).1 (by simp [hc.eof])
  | cons t ts =>
    rw [head_eq hrest] at hparen
    have hnone := refused_of_take h hrest
    unfold Suffix.of? at hnone
    grind

theorem isOp_of_group {t : Token} (h : Start.of? t = some .group) : t.isOp "(" = true := by
  unfold Start.of? at h
  split at h
  case h_4 => split at h; cases h; split at h <;> cases h
  all_goals simp_all [Token.isOp, Token.isOpIn]

theorem yields_expect (inp : Input) (p : Token → Bool) (complaint : Found → Complaint) (c : Cursor) :
    (c.expect inp p complaint).Yields fun t d => c.rest = t :: d.rest ∧ p t = true := by
  unfold Cursor.expect
  split
  · next h =>
    obtain ⟨u, hc, hu⟩ := exists_taken h
    obtain ⟨hp, rfl⟩ := Option.ite_none_right_eq_some.1 hu |>.imp id Option.some.inj
    exact ⟨hc, hp⟩
  · trivial

section

variable {inp : Input}

theorem Obtained.pastSuffix {c₀ c d : Cursor} {e : Expr} {literal : Bool} {s : Suffix} {hlt : d.size < c.size}
    (h : Obtained ((c.head inp).isOp "(") 5 c₀ c e) (htake : c.take (Suffix.of? literal) = some (s, ⟨d, hlt⟩))
    (hs : s ≠ .call) :
    Obtained false 5 c₀ d e := by
  obtain ⟨t, hrest, ⟨hhead, hparen⟩, -⟩ := taken_suffix inp htake
  rw [hhead, Bool.eq_false_iff.2 (mt hparen.1 hs)] at h
  exact h.past (.token hrest)

mutual

theorem obtained_expression {c : Cursor} (hc : c.Sound inp) :
    (expression inp c).Yields fun e d => Obtained false 0 c d e := by
  rw [expression]
  refine (obtained_operands hc).andThen fun hl => ?_
  split
  · exact hl.mono (Nat.zero_le _)
  · next c₂ h₂ hop =>
    obtain ⟨t, hrest, -⟩ := exists_taken hop
    have hleft := hl.past (.token hrest)
    split
    · -- the upper end that is left out is shown as an empty string
      exact .binary .range hleft ⟨rfl, fun _ => .string (w := "") (by decide), (Passes.refl _).imp fun _ =>
        ⟨⟨trivial, by simp [tightness, BinaryOp.tightness]⟩, by simp⟩⟩
    · exact (obtained_operands (hleft.passes.sound hc)).andThen fun hr => Obtained.binary .range hleft hr
termination_by (c.size, 9)
decreasing_by all_goals simp only [Level.rank]; omega

theorem obtained_operands {level : Level} {c : Cursor} (hc : c.Sound inp) :
    (operands inp level c).Yields fun e d => Obtained false level.tightness c d e := by
  rw [operands]
  refine (obtained_operand hc).andThen fun h => ?_
  exact (obtained_operators hc (h.mono (Nat.le_succ _))).weaken
termination_by (c.size, 2 * level.rank + 2)
decreasing_by all_goals omega

theorem obtained_operand {level : Level} {c : Cursor} (hc : c.Sound inp) :
    (operand inp level c).Yields fun e d => Obtained false (level.tightness + 1) c d e := by
  cases level with
  | relation => rw [operand]; exact obtained_operands hc
  | sum => rw [operand]; exact obtained_operands hc
  | product => rw [operand]; exact obtained_unary hc
termination_by (c.size, 2 * level.rank + 1)
decreasing_by all_goals simp only [Level.rank]; omega

theorem obtained_operators {level : Level} {start : Token} {c₀ c : Cursor} {left : Expr} (hc : c₀.Sound inp)
    (h : Obtained false level.tightness c₀ c left) :
    (operators inp level start left c).Yields fun e d => Obtained false level.tightness c₀ d e := by
  rw [operators]
  split
  · exact h
  · next op c₁ h₁ hop =>
    obtain ⟨t, hrest, hop⟩ := exists_taken hop
    have hleft := h.past (.token hrest)
    refine (obtained_operand (hleft.passes.sound hc)).andThen fun hr => ?_
    refine .weaken (obtained_operators hc ?_)
    have hpos : 1 ≤ level.tightness := by cases level <;> decide
    rw [← (Level.spelledBy_of_operator? hop).1] at hleft hr hpos ⊢
    exact .binary op (hleft.mono (by omega)) hr
termination_by (c.size, 0)
decreasing_by all_goals omega

theorem obtained_unary {c : Cursor} (hc : c.Sound inp) :
    (unary inp c).Yields fun e d => Obtained false 4 c d e := by
  rw [unary]
  split
  · next hop => exact (obtained_access hc hop).imp fun h => h.mono (by decide)
  · next op c₁ h₁ hop =>
    obtain ⟨t, hrest, -⟩ := exists_taken hop
    have hpass := Passes.token hrest
    exact (obtained_unary (hpass.sound hc)).andThen fun h => .unary hpass h
termination_by (c.size, 2)
decreasing_by all_goals omega

theorem obtained_access {c : Cursor} (hc : c.Sound inp) (hunary : c.take unaryOp? = none) :
    (access inp c).Yields fun e d => Obtained false 5 c d e := by
  rw [access]
  exact (obtained_primary hc hunary).andThen fun h => (obtained_suffixes hc (h _)).weaken
termination_by (c.size, 1)
decreasing_by all_goals omega

theorem obtained_suffixes {start : Token} {c₀ c : Cursor} {e : Expr} (hc : c₀.Sound inp)
    (h : Obtained ((c.head inp).isOp "(") 5 c₀ c e) :
    (suffixes inp start e c).Yields fun e d => Obtained false 5 c₀ d e := by
  rw [suffixes]
  split
  · next hop =>
    rw [no_suffix (h.passes.sound hc) hop] at h
    exact h
  · next c₁ h₁ hop =>
    have hpast := h.pastSuffix hop (by simp)
    refine (yields_expect inp _ _ _).andThen fun hname => ?_
    exact .weaken (obtained_suffixes hc (hpast.member (.token hname.1)
      ((hpast.passes.sound hc).rest _ (by simp [hname.1])) hname.2))
  · next c₁ h₁ hop =>
    obtain ⟨t, hrest, ⟨hhead, hparen⟩, hscope, -⟩ := taken_suffix inp hop
    rw [hhead, Bool.eq_false_iff.2 (mt hparen.1 (by simp))] at h
    have hsound := ((h.past (.token hrest)).passes.sound hc)
    refine (yields_expect inp _ _ _).andThen fun hname => ?_
    exact .weaken (obtained_suffixes hc (h.scope (.scope hrest (hscope rfl) hname.1)
      (hsound.rest _ (by simp [hname.1])) hname.2))
  · next c₁ h₁ hop =>
    obtain ⟨t, hrest, ⟨hhead, hparen⟩, -⟩ := taken_suffix inp hop
    rw [hhead, hparen.2 rfl] at h
    have hpass := Passes.paren hrest (hparen.2 rfl)
    refine (obtained_arguments (hpass.sound (h.passes.sound hc))).andThen fun hargs => ?_
    exact .weaken (obtained_suffixes hc (h.call hpass hargs))
  · next c₁ h₁ hop =>
    obtain ⟨-, -, -, -, hindex⟩ := taken_suffix inp hop
    have hpast := h.pastSuffix hop (by simp)
    refine (obtained_arguments (hpast.passes.sound hc)).andThen fun hargs => ?_
    exact .weaken (obtained_suffixes hc (hpast.index (hindex rfl) hargs))
termination_by (c.size, 0)
decreasing_by all_goals omega

theorem obtained_arguments {closing : String} {c : Cursor} (hc : c.Sound inp) :
    (arguments inp closing c).Yields fun es d => ObtainedAll c d es := by
  rw [arguments]
  split
  · next hop =>
    obtain ⟨t, hrest, -⟩ := exists_taken hop
    exact .nil (.token hrest)
  · refine (obtained_expressions hc).andThen fun h => ?_
    exact (yields_expect inp _ _ _).andThen fun hclose => h.1.past (.token hclose.1)
termination_by (c.size, 11)
decreasing_by all_goals omega

theorem obtained_expressions {c : Cursor} (hc : c.Sound inp) :
    (expressions inp c).Yields fun es d => ObtainedAll c d es ∧ es ≠ [] := by
  rw [expressions]
  refine (obtained_expression hc).andThen fun h => ?_
  split
  · exact ⟨.single h, by simp⟩
  · next c₂ h₂ hop =>
    obtain ⟨t, hrest, -⟩ := exists_taken hop
    have hpast := h.past (.token hrest)
    exact (obtained_expressions (hpast.passes.sound hc)).andThen fun h' => ⟨.cons hpast h'.1 h'.2, by simp⟩
termination_by (c.size, 10)
decreasing_by all_goals omega

theorem obtained_primary {c : Cursor} (hc : c.Sound inp) (hunary : c.take unaryOp? = none) :
    (primary inp c).Yields fun e d => ∀ called, Obtained called 5 c d e := by
  rw [primary]
  split
  · trivial
  · next hop =>
    obtain ⟨t, hrest, hstart⟩ := exists_taken hop
    exact fun called => .literal (.token hrest) (hc.rest t (by simp [hrest])) hstart
  · next hop =>
    obtain ⟨t, hrest, hstart⟩ := exists_taken hop
    exact fun called => .name (.token hrest) (hc.rest t (by simp [hrest])) hstart
      (refused_of_take hunary hrest)
  · next hop =>
    obtain ⟨t, hrest, hstart⟩ := exists_taken hop
    have hpass := Passes.paren hrest (isOp_of_group hstart)
    refine (obtained_expression (hpass.sound hc)).andThen fun h => ?_
    exact (yields_expect inp _ _ _).andThen fun hclose called => .group hpass h (.token hclose.1)
  · next hop =>
    obtain ⟨t, hrest, hstart⟩ := exists_taken hop
    have hpass := Passes.token hrest
    exact (obtained_arguments (hpass.sound hc)).andThen fun h called => .set hpass h
termination_by (c.size, 0)
decreasing_by all_goals omega

end

end

/-- A text that is scanned as what an expression is written with is read as the expression. -/
theorem reads_scanned (text : String) {e : Expr} (hw : e.isWritable false = true)
    (h : List.Forall₂ (fun x t => Lexeme.spelledBy x t = true) (e.lexemes true fun _ => false)
    (Scan.ofText text).tokens) :
    ∃ e' d h, expression ((Scan.ofText text).open text).1 ((Scan.ofText text).open text).2 = .ok e' d h ∧
      e'.unplaced = e.unplaced ∧ d.rest = [] := by
  obtain ⟨_, hlayout, -⟩ := Scan.layout_ofText text
  have heof : (Scan.ofText text).eof.kind = .eof := hlayout.eof.1
  obtain ⟨last, hspells⟩ := exists_spells_of_forall₂ (c := ((Scan.ofText text).open text).2) h
  have hstop : ¬ Continues 0 (Scan.ofText text).eof := by
    rintro (hsign | ⟨op, -, hop⟩)
    · simp [Token.isOpIn_iff, heof] at hsign
    · cases op <;> simp [BinaryOp.lexeme, Lexeme.spelledBy, Token.isOp_iff, Token.isWord_iff, heof] at hop
  have hopen : e.isOpenRange (fun _ => false) ≠ true := by simp [isOpenRange_false]
  have hexpr : ReadsExpression ((Scan.ofText text).open text).1 (fun _ => false) _ e := reads_expression hw
  obtain ⟨-, e', h', hread, hsame⟩ := hexpr _ _ hspells hstop fun h => absurd h hopen
  exact ⟨e', _, h', hread, hsame, rfl⟩

/-- **What a message shows is read back.** Let an expression be read from tokens of a text. If it needs no
grouping parentheses, and what stands behind two colons in it has the form of an identifier or a number, the
line that shows it is scanned without an issue, and the tokens of the line are read as the same expression, up
to places, and used up. This is so if, among the tokens that were read, no parenthesis is opened but those of
calls and no quoted name stands behind two colons. -/
theorem text_reads_back {text : String} {c d : Cursor} {e : Expr} {h : d.size < c.size}
    (hc : ∀ t ∈ c.rest, t ∈ (Scan.ofText text).tokens)
    (hread : expression ((Scan.ofText text).open text).1 c = .ok e d h) :
    (marks c.rest ≤ marks d.rest + argumentLists e.subexpressions → e.IsPlain) ∧
      (e.IsPlain → (Scan.ofText e.text).issues = [] ∧
        ∃ e' d' h', expression ((Scan.ofText e.text).open e.text).1 ((Scan.ofText e.text).open e.text).2 =
          .ok e' d' h' ∧
          e'.unplaced = e.unplaced ∧ d'.rest = []) := by
  obtain ⟨_, hlayout, -⟩ := Scan.layout_ofText text
  have hsound : c.Sound ((Scan.ofText text).open text).1 :=
    ⟨hlayout.eof.1, fun t ht => Scan.sound_ofText (hc t ht)⟩
  have hobtained := obtained_expression hsound
  rw [hread] at hobtained
  refine ⟨fun hmarks => (hobtained.passes.plain hmarks).1.1, fun hplain => ?_⟩
  have hscans := (hobtained.writes hplain).scans .nil .nil
  rw [append_nil, append_nil] at hscans
  obtain ⟨hissues, htokens⟩ := hscans .start []
  rw [← Scan.ofText_eq_place] at hissues htokens
  exact ⟨hissues, reads_scanned e.text hobtained.writable htokens⟩

theorem text_reads_back_sample :
    let text := "\"B c\".Count<>'it''s'"
    ∃ e d h, expression ((Scan.ofText text).open text).1 ((Scan.ofText text).open text).2 = .ok e d h ∧
      e.IsPlain ∧
      (Scan.ofText e.text).issues = [] ∧
        ∃ e' d' h', expression ((Scan.ofText e.text).open e.text).1 ((Scan.ofText e.text).open e.text).2 =
          .ok e' d' h' ∧
          e'.unplaced = e.unplaced ∧ d'.rest = [] := by
  intro text
  let shown : Expr := .binary .notEqual (.call (.member (.name "B c" true default) "Count" false default)
    [] true default) (.constant "it's" .string default) default
  have hw : shown.isWritable false = true := by decide
  obtain ⟨e, d, h, hread, hsame, -⟩ := reads_scanned text hw (by decide +kernel)
  have hmarks : marks ((Scan.ofText text).open text).2.rest = 0 := by decide +kernel
  obtain ⟨hplain, hback⟩ := text_reads_back (fun t => id) hread
  have hplain := hplain (by omega)
  exact ⟨e, d, h, hread, hplain, hback hplain⟩

end Reading

end AlLint
