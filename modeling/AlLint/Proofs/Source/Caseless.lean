import AlLint.Proofs.Reading.Likeness
import AlLint.Proofs.Source.Layout

/-!
# Scanning without regard to case

Two texts that differ in the case of ASCII letters, wherever these stand, are cut into the same pieces: no
character decides about a piece in one case and not in the other. So their tokens are of the same kinds, stand
in the same places and look the same to one who does not see case (`View.caseless`), and what is wrong with the
texts is wrong in the same places.

Everything rests on one fact on characters: what is the same of the 26 capital letters and their small forms is
the same of all characters and their small forms (`toLower_invariant`).
-/

namespace AlLint

open List

variable {x : Char} {ts ts' : List Token}

/-! ## Characters -/

namespace Text

/-- A character is its own small form, or it is one of the capital letters. -/
theorem toLower_cases (c : Char) :
    c.toLower = c ∨ ∃ i < 26, c = Char.ofNat (65 + i) ∧ c.toLower = Char.ofNat (97 + i) := by
  by_cases h : c.val ≥ 'A'.val ∧ c.val ≤ 'Z'.val
  · have hlow : 65 ≤ c.toNat := h.1
    have hhigh : c.toNat ≤ 90 := h.2
    have hc : c = Char.ofNat (65 + (c.toNat - 65)) := by
      rw [show 65 + (c.toNat - 65) = c.toNat by omega, Char.ofNat_toNat]
    have hall : ∀ i < 26, (Char.ofNat (65 + i)).toLower = Char.ofNat (97 + i) := by decide
    refine .inr ⟨c.toNat - 65, by omega, hc, ?_⟩
    rw [← hall _ (by omega), ← hc]
  · exact .inl (dif_neg h)

/-- What is the same of every capital letter and its small form is the same of every character and its small form. -/
theorem toLower_invariant {α : Type} {f : Char → α} (h : ∀ i < 26, f (Char.ofNat (97 + i)) = f (Char.ofNat (65 + i)))
    (c : Char) : f c.toLower = f c := by
  rcases toLower_cases c with hc | ⟨i, hi, hupper, hlower⟩
  · rw [hc]
  · rw [hlower, h i hi, ← hupper]

theorem toLower_eq_iff (hx : x.isAlpha = false) (c : Char) : c.toLower = x ↔ c = x := by
  rcases toLower_cases c with hc | ⟨i, hi, hupper, hlower⟩
  · rw [hc]
  · have hletters : ∀ i < 26, (Char.ofNat (65 + i)).isAlpha = true ∧ (Char.ofNat (97 + i)).isAlpha = true := by decide
    refine iff_of_false ?_ ?_
    · rintro rfl
      rw [hlower, (hletters i hi).2] at hx
      cases hx
    · rintro rfl
      rw [hupper, (hletters i hi).1] at hx
      cases hx

theorem isBlank_toLower : ∀ c : Char, isBlank c.toLower = isBlank c := toLower_invariant (by decide)

theorem isDecimal_toLower : ∀ c : Char, isDecimal c.toLower = isDecimal c := toLower_invariant (by decide)

theorem isDigitForm_toLower : ∀ c : Char, isDigitForm c.toLower = isDigitForm c := toLower_invariant (by decide)

theorem digitValue?_toLower : ∀ c : Char, digitValue? c.toLower = digitValue? c := toLower_invariant (by decide)

theorem isCased_toLower : ∀ c : Char, isCased c.toLower = isCased c := toLower_invariant (by decide)

theorem isCaseIgnorable_toLower : ∀ c : Char, isCaseIgnorable c.toLower = isCaseIgnorable c :=
  toLower_invariant (by decide)

theorem isWordChar_toLower : ∀ c : Char, isWordChar c.toLower = isWordChar c := toLower_invariant (by decide)

theorem isWordStart_toLower : ∀ c : Char, isWordStart c.toLower = isWordStart c := toLower_invariant (by decide)

theorem isGap_toLower : ∀ c : Char, Piece.isGap c.toLower = Piece.isGap c := toLower_invariant (by decide)

/-! ## Lists of characters -/

section Lists

variable {p : Char → Bool} (hp : ∀ c : Char, p c.toLower = p c) (cs : List Char)

include hp

theorem takeWhile_toLower : (cs.map Char.toLower).takeWhile p = (cs.takeWhile p).map Char.toLower := by
  rw [takeWhile_map, show p ∘ Char.toLower = p from funext hp]

theorem dropWhile_toLower : (cs.map Char.toLower).dropWhile p = (cs.dropWhile p).map Char.toLower := by
  rw [dropWhile_map, show p ∘ Char.toLower = p from funext hp]

theorem dropAround_toLower : dropAround p (cs.map Char.toLower) = (dropAround p cs).map Char.toLower := by
  rw [dropAround, dropTrailing, dropWhile_toLower hp, ← map_reverse, dropWhile_toLower hp, ← map_reverse]
  rfl

theorem all_toLower : (cs.map Char.toLower).all p = cs.all p := by
  rw [all_map, show p ∘ Char.toLower = p from funext hp]

theorem head?_map_toLower : ((cs.map Char.toLower).head?.map p).getD false = (cs.head?.map p).getD false := by
  cases cs with
  | nil => rfl
  | cons c cs => exact hp c

end Lists

theorem head?_toLower (hx : x.isAlpha = false) (cs : List Char) :
    (cs.map Char.toLower).head? = some x ↔ cs.head? = some x := by
  cases cs with
  | nil => simp
  | cons c cs => simpa using toLower_eq_iff hx c

/-! ## Texts -/

theorem toList_toLower (s : String) : s.toLower.toList = s.toList.map Char.toLower := String.toList_map

theorem toLower_eq_empty {s : String} : s.toLower = "" ↔ s = "" := by
  rw [← String.toList_inj, ← String.toList_inj, toList_toLower]
  exact map_eq_nil_iff

theorem casedAhead_toLower (cs : List Char) : casedAhead (cs.map Char.toLower) = casedAhead cs := by
  rw [casedAhead, casedAhead, dropWhile_toLower isCaseIgnorable_toLower]
  cases cs.dropWhile isCaseIgnorable with
  | nil => rfl
  | cons c rest => exact isCased_toLower c

theorem lowerChar_toLower (before : List Char) (c : Char) (after : List Char) :
    lowerChar (before.map Char.toLower) c.toLower (after.map Char.toLower) = lowerChar before c after := by
  rw [lowerChar, lowerChar, casedAhead_toLower, casedAhead_toLower]
  rcases toLower_cases c with hc | ⟨i, hi, hupper, hlower⟩
  · rw [hc, hc]
  · have hsmall : ∀ i < 26, (Char.ofNat (65 + i)).toNat < 128 ∧ (Char.ofNat (97 + i)).toNat < 128 ∧
        (Char.ofNat (97 + i)).toLower = Char.ofNat (97 + i) := by decide
    rw [hlower, hupper, if_pos (hsmall i hi).1, if_pos (hsmall i hi).2.1, (hsmall i hi).2.2, ← hlower, hupper]

theorem lowerFrom_toLower (before cs : List Char) :
    lowerFrom (before.map Char.toLower) (cs.map Char.toLower) = lowerFrom before cs := by
  induction cs generalizing before with
  | nil => rfl
  | cons c cs ih =>
    have hrest := ih (c :: before)
    rw [map_cons] at hrest
    rw [map_cons, lowerFrom, lowerFrom, lowerChar_toLower, hrest]

theorem lower_toLower (s : String) : lower s.toLower = lower s := by
  rw [lower, lower, toList_toLower, ← lowerFrom_toLower [] s.toList, map_nil]

theorem toLower_ofList (cs : List Char) : (String.ofList cs).toLower = String.ofList (cs.map Char.toLower) := by
  rw [← String.toList_inj, toList_toLower, String.toList_ofList, String.toList_ofList]

theorem strip_toLower (s : String) : (strip s).toLower = strip s.toLower := by
  rw [strip, strip, toLower_ofList, toList_toLower, dropAround_toLower isBlank_toLower]

theorem decimalNumber_toLower (cs : List Char) : decimalNumber (cs.map Char.toLower) = decimalNumber cs := by
  simp only [decimalNumber, foldl_map, digitValue?_toLower]

end Text

open Text

theorem wholeNumber?_toLower (s : String) : wholeNumber? s.toLower = wholeNumber? s := by
  simp only [wholeNumber?, numeral, toList_toLower, isEmpty_map, all_toLower isDigitForm_toLower, length_map,
    decimalNumber_toLower]

def Comment.toLower (c : Comment) : Comment := { c with text := c.text.toLower }

/-- Sees texts without the case of ASCII letters. -/
def View.caseless : View where
  see := String.toLower
  raw := String.toLower
  place s := s
  offset n := n
  notes := List.map Comment.toLower
  raw_eq := id
  notes_append _ _ := map_append
  lower_see := lower_toLower
  see_strip := strip_toLower
  wholeNumber?_see := wholeNumber?_toLower

theorem View.place_caseless (s : Span) : View.caseless.place s = s := rfl

theorem View.place_caseless_eq {s s' : Span} (h : s = s') : View.caseless.place s = View.caseless.place s' := by
  rw [place_caseless, place_caseless, h]

/-- Tokens that look the same without the case of letters. -/
def Likeness.caseless : Likeness where
  toView := .caseless
  toWatch := .none
  Like t t' := t.seen .caseless = t'.seen .caseless
  At := Eq
  remark _ := .openComment
  seen_eq := id
  docs_eq := by
    -- whether a comment is documentation can be seen
    have hdocs : ∀ t : Token, t.docs.map Comment.toLower =
        ((t.leading.map Comment.toLower).reverse.takeWhile (·.kind == .doc)).reverse := by
      intro t
      rw [Token.docs, ← map_reverse, takeWhile_map, map_reverse]
      rfl
    intro t t' h
    have hleading : t.leading.map Comment.toLower = t'.leading.map Comment.toLower := congrArg Token.leading h
    show t.docs.map Comment.toLower = t'.docs.map Comment.toLower
    rw [hdocs, hdocs, hleading]
  start_lt_iff {t t' u u'} ht hu := by
    have ht : t.start = t'.start := (congrArg Token.start ht :)
    have hu : u.start = u'.start := (congrArg Token.start hu :)
    rw [ht, hu]
  at_covering {t t' u u'} ht hu := by
    have ht : t.span = t'.span := (congrArg Token.span ht :)
    have hu : u.span = u'.span := (congrArg Token.span hu :)
    rw [ht, hu]
  place_eq := @View.place_caseless_eq
  remark_eq _ _ := rfl

instance : Likeness.caseless.ForFiles := ⟨fun _ => trivial, rfl⟩

theorem Likeness.toView_caseless : Likeness.caseless.toView = .caseless := rfl

theorem Token.likes_caseless (h : ts.map (seen .caseless) = ts'.map (seen .caseless)) : Likes .caseless ts ts' :=
  List.Forall₂.imp (fun _ _ ht => ⟨⟨ht⟩, trivial⟩) (forall₂_of_map_eq h)

/-! ## Pieces -/

namespace Piece

theorem run_toLower {p : Char → Bool} (hp : ∀ c : Char, p c.toLower = p c) (cs : List Char) :
    run p (cs.map Char.toLower) = run p cs := by
  rw [run, run, takeWhile_toLower hp, length_map]

theorem lineLength_toLower (cs : List Char) : lineLength (cs.map Char.toLower) = lineLength cs :=
  run_toLower (toLower_invariant (by decide)) cs

theorem commentLength_toLower (cs : List Char) : commentLength (cs.map Char.toLower) = commentLength cs := by
  induction cs with
  | nil => rfl
  | cons c cs ih =>
    simp only [map_cons, commentLength_cons, ih, toLower_eq_iff (x := '*') (by decide),
      head?_toLower (x := '/') (by decide)]

/-- After a pair of quotes the string goes on, so the induction is over the length. -/
theorem stringLength_toLower (cs : List Char) : stringLength (cs.map Char.toLower) = stringLength cs := by
  match cs with
  | [] => rfl
  | c :: cs =>
    have hrest := stringLength_toLower cs
    have htail := stringLength_toLower cs.tail
    simp only [map_cons, stringLength_cons, ← map_tail, hrest, htail, toLower_eq_iff (x := '\'') (by decide),
      toLower_eq_iff (x := '\n') (by decide), head?_toLower (x := '\'') (by decide)]
termination_by cs.length
decreasing_by
  · simp
  · simp only [length_cons, length_tail]
    omega

theorem isNumberMark_toLower (cs : List Char) : isNumberMark (cs.map Char.toLower) = isNumberMark cs := by
  match cs with
  | [] => rfl
  | [c] => exact toLower_invariant (f := fun c => isNumberMark [c]) (by decide) c
  | [c, d] =>
    have hfirst := toLower_invariant (f := fun c => c == 'd' || c == 'D') (by decide)
    have hsecond := toLower_invariant (f := fun c => c == 't' || c == 'T') (by decide)
    simp only [map_cons, map_nil, isNumberMark, hfirst, hsecond]
  | _ :: _ :: _ :: _ => rfl

theorem fractionLength_toLower (cs : List Char) : fractionLength (cs.map Char.toLower) = fractionLength cs := by
  cases cs with
  | nil => rfl
  | cons c cs =>
    simp only [map_cons, fractionLength_cons, head?_map_toLower isDecimal_toLower,
      toLower_eq_iff (x := '.') (by decide), ← map_tail, run_toLower isDecimal_toLower]

theorem numberLength_toLower (cs : List Char) : numberLength (cs.map Char.toLower) = numberLength cs := by
  simp only [numberLength, run_toLower isDecimal_toLower, ← map_drop, fractionLength_toLower,
    takeWhile_toLower isWordChar_toLower, isNumberMark_toLower, length_map]

theorem isPair_toLower (c : Char) (cs : List Char) : isPair c.toLower (cs.map Char.toLower) = isPair c cs := by
  cases cs with
  | nil => rfl
  | cons d cs => simp [isPair, pairOperators, toLower_eq_iff]

theorem singleOperators_toLower : ∀ c : Char, singleOperators.contains c.toLower = singleOperators.contains c :=
  toLower_invariant (by decide)

theorem plainExtent_toLower (c : Char) (cs : List Char) :
    plainExtent c.toLower (cs.map Char.toLower) = plainExtent c cs := by
  simp only [plainExtent, isGap_toLower, isDecimal_toLower, isWordStart_toLower, isPair_toLower,
    singleOperators_toLower, run_toLower isGap_toLower, run_toLower isWordChar_toLower, numberLength_toLower]

/-- **The case of letters does not decide where a piece ends, or what it is.** -/
theorem extent_toLower (c : Char) (cs : List Char) : extent c.toLower (cs.map Char.toLower) = extent c cs := by
  have hinner : ∀ d : Char, (d.toLower != '"' && d.toLower != '\n') = (d != '"' && d != '\n') :=
    toLower_invariant (f := fun d => d != '"' && d != '\n') (by decide)
  have hname := run_toLower (p := fun d => d != '"' && d != '\n') hinner
  simp only [extent_eq, plainExtent_toLower, ← map_tail, ← map_drop, lineLength_toLower, commentLength_toLower,
    stringLength_toLower, hname, length_map, toLower_eq_iff (x := '\n') (by decide),
    toLower_eq_iff (x := '\r') (by decide), toLower_eq_iff (x := '/') (by decide),
      toLower_eq_iff (x := '#') (by decide),
    toLower_eq_iff (x := '"') (by decide), toLower_eq_iff (x := '\'') (by decide),
      head?_toLower (x := '\n') (by decide),
    head?_toLower (x := '/') (by decide), head?_toLower (x := '*') (by decide), head?_toLower (x := '"') (by decide)]

def toLower (piece : Piece) : Piece := { piece with chars := piece.chars.map Char.toLower }

theorem cut_toLower (cs : List Char) : cut (cs.map Char.toLower) = (cut cs).map toLower := by
  fun_induction cut cs with
  | case1 => rw [map_nil, cut, map_nil]
  | case2 c cs ih =>
    rw [map_cons, cut, extent_toLower, ← map_drop, ih, ← map_take]
    rfl

theorem map_toLower_of_operator {cs : List Char} {piece : Piece} (hmem : piece ∈ cut cs)
    (h : piece.kind = .operator) :
    piece.chars.map Char.toLower = piece.chars := by
  fun_induction cut cs with
  | case1 => cases hmem
  | case2 c cs ih =>
    rcases mem_cons.1 hmem with rfl | hmem
    · have hsingles : ∀ c ∈ singleOperators, c.toLower = c := by
        have hall : (singleOperators.all fun c => c.toLower == c) = true := by decide
        exact fun c hc => beq_iff_eq.1 (all_eq_true.1 hall c hc)
      have hpairs : ∀ p ∈ pairOperators, p.1.toLower = p.1 ∧ p.2.toLower = p.2 := by decide
      rcases extent_operator (Prod.ext h rfl) with ⟨hpair, hlength⟩ | ⟨hsingle, hlength⟩
      · cases cs with
        | nil => cases hpair
        | cons d cs =>
          obtain ⟨hc, hd⟩ := hpairs (c, d) (contains_iff_mem.1 hpair)
          simp only [hlength, take_succ_cons, take_zero, map_cons, map_nil, hc, hd]
      · simp only [hlength, take_zero, map_cons, map_nil, hsingles c hsingle]
    · exact ih hmem

end Piece

/-! ## Tokens -/

namespace Scan

theorem unpaired_cons (c : Char) (rest : List Char) : unpaired (c :: rest) =
    if c = '\'' ∧ rest.head? = some '\'' then '\'' :: unpaired rest.tail else c :: unpaired rest := by
  rw [unpaired.eq_def]
  split
  · contradiction
  · next heq =>
    obtain ⟨rfl, rfl⟩ := List.cons.inj heq
    rfl
  · next hnot heq =>
    obtain ⟨rfl, rfl⟩ := List.cons.inj heq
    rw [if_neg]
    rintro ⟨hc, hhead⟩
    obtain ⟨more, rfl⟩ := head?_eq_some_iff.1 hhead
    exact hnot _ hc rfl

theorem unpaired_toLower (cs : List Char) : unpaired (cs.map Char.toLower) = (unpaired cs).map Char.toLower := by
  match cs with
  | [] => rfl
  | c :: cs =>
    have hrest := unpaired_toLower cs
    have htail := unpaired_toLower cs.tail
    simp only [map_cons, unpaired_cons, ← map_tail, hrest, htail, toLower_eq_iff (x := '\'') (by decide),
      head?_toLower (x := '\'') (by decide)]
    split <;> rfl
termination_by cs.length
decreasing_by
  · simp
  · simp only [length_cons, length_tail]
    omega

theorem valueOf_toLower (piece : Piece) : valueOf piece.toLower = (valueOf piece).map Char.toLower := by
  obtain ⟨kind, chars⟩ := piece
  cases kind <;>
    simp only [valueOf, Piece.toLower, ← map_tail, ← map_dropLast, unpaired_toLower]

theorem after_toLower (p : Position) (cs : List Char) : p.after (cs.map Char.toLower) = p.after cs := by
  have hstep : ∀ (p : Position) (c : Char), p.step c.toLower = p.step c := by
    intro p c
    simp only [Position.step, toLower_eq_iff (x := '\n') (by decide)]
  simp only [Position.after, foldl_map, hstep]

/-- One scan is what is seen of another one. Of the issues only the places are seen. -/
structure SeenAs (v : View) (scan shown : Scan) : Prop where
  tokens : shown.tokens = scan.tokens.map (Token.seen v)
  eof : shown.eof = scan.eof.seen v
  issues : shown.issues.map Issue.span = scan.issues.map Issue.span

theorem issues_seen (piece : Piece) (span : Span) :
    ((complaint? piece.toLower).map (Issue.mk · span)).toList.map Issue.span =
    ((complaint? piece).map (Issue.mk · span)).toList.map Issue.span := by
  obtain ⟨kind, chars⟩ := piece
  cases kind <;> rfl

theorem ofPiece_toLower (p q : Position) (pending : List Comment) {piece : Piece}
    (hoperator : piece.kind = .operator → piece.chars.map Char.toLower = piece.chars) :
    let content := Content.ofPiece p q pending piece
    let shown := Content.ofPiece p q (pending.map Comment.toLower) piece.toLower
    shown.token? = content.token?.map (Token.seen .caseless) ∧
      shown.waiting (pending.map Comment.toLower) = (content.waiting pending).map Comment.toLower := by
  have htoken : ∀ {kind : TokenKind}, (kind = .op → piece.chars.map Char.toLower = piece.chars) →
      (⟨kind, String.ofList piece.toLower.chars, String.ofList (valueOf piece.toLower),
        p.spanTo q, p.offset, q.offset, pending.map Comment.toLower⟩ : Token) =
      Token.seen .caseless ⟨kind, String.ofList piece.chars, String.ofList (valueOf piece), p.spanTo q,
        p.offset, q.offset, pending⟩ := by
    intro kind hop
    rw [valueOf_toLower, ← toLower_ofList]
    by_cases hkind : kind = .op
    · rw [Piece.toLower, hop hkind]
      simp [Token.seen, hkind, View.caseless]
    · rw [Piece.toLower, ← toLower_ofList]
      simp [Token.seen, hkind, View.caseless]
  obtain ⟨kind, chars⟩ := piece
  cases kind
  case operator => exact ⟨congrArg some (htoken fun _ => hoperator rfl), rfl⟩
  all_goals first
    | exact ⟨rfl, rfl⟩
    | exact ⟨congrArg some (htoken TokenKind.noConfusion), rfl⟩
    | simp [Content.ofPiece, commentKind?, Content.token?, Content.waiting, Piece.toLower,
        Comment.toLower, toLower_ofList]

theorem place_seenAs (p : Position) (pending : List Comment) {pieces : List Piece}
    (hoperators : ∀ piece ∈ pieces, piece.kind = .operator → piece.chars.map Char.toLower = piece.chars) :
    SeenAs .caseless (place p pending pieces)
      (place p (pending.map Comment.toLower) (pieces.map Piece.toLower)) := by
  induction pieces generalizing p pending with
  | nil =>
    have hempty : ("" : String).toLower = "" := toLower_ofList []
    refine ⟨rfl, ?_, rfl⟩
    simp only [map_nil, place, Token.seen, View.caseless, hempty, ite_self]
  | cons piece pieces ih =>
    obtain ⟨hpiece, hpieces⟩ := forall_mem_cons.1 hoperators
    obtain ⟨htoken, hwaiting⟩ := ofPiece_toLower p (p.after piece.chars) pending hpiece
    have hnext := ih (p.after piece.chars)
      ((Content.ofPiece p (p.after piece.chars) pending piece).waiting pending) hpieces
    rw [map_cons, place_cons, place_cons, show p.after piece.toLower.chars = p.after piece.chars from
      after_toLower p piece.chars]
    rw [htoken, hwaiting]
    refine ⟨?_, hnext.eof, ?_⟩
    · rw [map_append, hnext.tokens, Option.toList_map]
    · rw [map_append, map_append, issues_seen, hnext.issues]

theorem ofText_seenAs (text : String) : SeenAs .caseless (ofText text) (ofText text.toLower) := by
  rw [ofText_eq_place, ofText_eq_place, toList_toLower, Piece.cut_toLower]
  exact place_seenAs .start [] fun _ => Piece.map_toLower_of_operator

variable {text text' : String} (h : text.toLower = text'.toLower)

include h

theorem tokens_like : Token.Likes .caseless (ofText text).tokens (ofText text').tokens := by
  refine Token.likes_caseless ?_
  rw [← (ofText_seenAs text).tokens, h, (ofText_seenAs text').tokens]

theorem eof_like : (ofText text).eof.Like .caseless (ofText text').eof := by
  refine ⟨?_⟩
  show (ofText text).eof.seen .caseless = (ofText text').eof.seen .caseless
  rw [← (ofText_seenAs text).eof, h, (ofText_seenAs text').eof]

theorem issues_like : (ofText text).issues.map Issue.span = (ofText text').issues.map Issue.span := by
  rw [← (ofText_seenAs text).issues, h, (ofText_seenAs text').issues]

theorem slice_like (start stop : Nat) :
    (((ofText text).open text).1.slice start stop).toLower =
      (((ofText text').open text').1.slice start stop).toLower := by
  have hchars : text.toList.map Char.toLower = text'.toList.map Char.toLower := by
    rw [← toList_toLower, h, toList_toLower]
  simp only [Scan.open, Reading.Input.slice, toLower_ofList, map_take, map_drop, hchars]

theorem textOf_like (hts : Token.Likes .caseless ts ts') :
    (((ofText text).open text).1.textOf ts).toLower = (((ofText text').open text').1.textOf ts').toLower := by
  cases hts with
  | nil => rfl
  | @cons t t' ts ts' ht hts =>
    have hlast := Token.Likes.getLastD hts ht.toLike
    have hgetLast : ∀ (u : Token) us, (u :: us).getLast (cons_ne_nil u us) = us.getLast?.getD u := by
      intro u us
      rw [← Option.some_inj, ← getLast?_eq_some_getLast, getLast?_cons]
    have hstart : t.start = t'.start := ht.start_eq
    have hstop : (ts.getLast?.getD t).stop = (ts'.getLast?.getD t').stop := (congrArg Token.stop hlast.seen_eq :)
    rw [Reading.Input.textOf, Reading.Input.textOf, hgetLast, hgetLast, hstart, hstop]
    exact slice_like h _ _

/-- **Readers of two texts that differ in case only are given what looks the same.** -/
theorem open_like : ((ofText text).open text).1.Like .caseless ((ofText text').open text').1 ∧
    ((ofText text).open text).2.Like .caseless ((ofText text').open text').2 := by
  refine ⟨⟨eof_like h, textOf_like h, fun hts => ?_, fun {t t' u u'} ht hu => ?_⟩,
    .ofLikes ((tokens_like h).headD (eof_like h)) (tokens_like h) ⟨_, rfl, ?_⟩ trivial⟩
  · exact Reading.affirms_eq (v := .caseless) (textOf_like h hts)
  · have hstart : t.start = t'.start := ht.start_eq
    have hstop : u.start = u'.start := hu.start_eq
    rw [hstart, hstop]
    exact View.strip_eq (v := .caseless) (slice_like h _ _)
  · exact List.Forall₂.imp (fun _ _ hi => ⟨rfl, hi⟩) (forall₂_of_map_eq (f := Issue.span) (issues_like h))

end Scan

end AlLint
