import AlLint.Proofs.Reading.Arguments
import AlLint.Proofs.Source.Layout

/-!
# Layout does not matter

Readers see the tokens of a text and not how they are laid out. Two texts with the same tokens are read to trees
that differ in places, in comments and in copied text, and in nothing else; what is wrong is found at the same
tokens. So what stands on one line or on several is the same node.

Tokens are matched by their place in the order (`Matching`), which is a likeness of tokens
(`SameTokens.likeness`). One decision is made on copied text, whether it says "true". There layout could matter,
for blanks around the word are dropped: but a text of several tokens never says so, since a word goes on as long
as letters follow (`Layout.affirms_slice`).
-/

namespace AlLint

open Text Piece List Bool

variable {c : Char} {t u : Token} {p : Position} {i j : Nat}

/-! ## Characters -/

namespace Text

theorem exists_range_of_mem {rs : Ranges} {n : Nat} (h : rs.mem n = true) : ∃ r ∈ rs, r.1 ≤ n ∧ n ≤ r.2 := by
  induction rs with
  | nil => cases h
  | cons r rs ih =>
    rw [Ranges.mem] at h
    split at h
    · cases h
    split at h
    · exact ⟨r, mem_cons_self, by omega, by omega⟩
    · obtain ⟨r', hr', hn⟩ := ih h
      exact ⟨r', mem_cons_of_mem _ hr', hn⟩

def blanks : List Char := blankRanges.flatMap fun r => (List.range' r.1 (r.2 + 1 - r.1)).map Char.ofNat

theorem mem_blanks (h : isBlank c = true) : c ∈ blanks := by
  obtain ⟨r, hr, hlo, hhi⟩ := exists_range_of_mem h
  refine mem_flatMap.2 ⟨r, hr, mem_map.2 ⟨c.toNat, ?_, Char.ofNat_toNat c⟩⟩
  rw [mem_range'_1]
  omega

theorem not_blank (h : (isWordChar c || isDecimal c) = true ∨ c ∈ '"' :: '\'' :: singleOperators) :
    isBlank c = false := by
  have hall : blanks.all (fun c => !(isWordChar c || isDecimal c) &&
    !('"' :: '\'' :: singleOperators).contains c) = true := by
    decide +kernel
  by_contra hblank
  have hc := all_eq_true.1 hall c (mem_blanks (not_eq_false _ ▸ hblank))
  simp only [and_eq_true, not_eq_true', contains_eq_mem, decide_eq_false_iff_not] at hc
  rcases h with h | h
  · rw [hc.1] at h
    cases h
  · exact hc.2 h

theorem exists_shift {shifts : List Shift} {n : Nat} :
    shifted shifts n = n ∨ ∃ s ∈ shifts, s.lo ≤ n ∧ n ≤ s.hi ∧ shifted shifts n = (n + s.delta).toNat := by
  induction shifts with
  | nil => exact .inl rfl
  | cons s rest ih =>
    rw [shifted]
    split
    · exact .inl rfl
    split
    · next hle hin =>
      simp only [and_eq_true, decide_eq_true_eq] at hin
      exact .inr ⟨s, mem_cons_self, by omega, hin.1, rfl⟩
    · rcases ih with h | ⟨s', hs', h⟩
      · exact .inl h
      · exact .inr ⟨s', mem_cons_of_mem _ hs', h⟩

theorem toNat_ofNat (n : Nat) : (Char.ofNat n).toNat = n ∨ (Char.ofNat n).toNat = 0 := by
  by_cases h : n.isValidChar
  · rw [Char.ofNat, dif_pos h]
    exact .inl rfl
  · rw [Char.ofNat, dif_neg h]
    exact .inr rfl

/-- Only letters become letters of the word "true" in lower case. -/
theorem isWordStart_of_lowerChar {before after : List Char} {x : Char} (hx : x ∈ lowerChar before c after)
    (h : x ∈ "true".toList) : isWordStart c = true := by
  rw [lowerChar] at hx
  split at hx
  · next hascii =>
    have hall : (List.range 128).all (fun n => !"true".toList.contains (Char.ofNat n).toLower || isWordStart
      (Char.ofNat n)) = true := by
      decide +kernel
    have hc := all_eq_true.1 hall c.toNat (mem_range.2 hascii)
    rw [Char.ofNat_toNat, ← mem_singleton.1 hx, contains_eq_mem, decide_eq_true h] at hc
    exact hc
  next hascii =>
  split at hx
  · split at hx <;> rw [mem_singleton.1 hx] at h <;> exact absurd h (by decide)
  rw [mapCase] at hx
  split at hx
  · next codes hcodes =>
    have hall : lowerExpansions.all (fun e => e.2.all fun n => !"true".toList.contains (Char.ofNat n)) =
      true := by decide +kernel
    obtain ⟨n, hn, rfl⟩ := mem_map.1 hx
    obtain ⟨l₁, l₂, hl, -⟩ := lookup_eq_some_iff.1 hcodes
    have hmem : (c.toNat, codes) ∈ lowerExpansions := hl ▸ mem_append_right _ mem_cons_self
    have hnone := all_eq_true.1 (all_eq_true.1 hall _ hmem) n hn
    rw [contains_eq_mem, decide_eq_true h] at hnone
    cases hnone
  · -- a character beyond ASCII moves to none of the letters
    have hall : lowerShifts.all (fun s => "true".toList.all fun x =>
        !decide (128 ≤ x.toNat - s.delta ∧ s.lo ≤ x.toNat - s.delta ∧ x.toNat - s.delta ≤ s.hi)) = true := by
          decide +kernel
    have hx := mem_singleton.1 hx
    have hletters : "true".toList.all (fun x => decide (0 < x.toNat ∧ x.toNat < 128)) = true := by decide +kernel
    have hletter := of_decide_eq_true (all_eq_true.1 hletters x h)
    have hcode : x.toNat = shifted lowerShifts c.toNat ∨ x.toNat = 0 := by
      rw [hx]
      exact toNat_ofNat _
    rcases @exists_shift lowerShifts c.toNat with hsame | ⟨s, hs, hlo, hhi, hmove⟩
    · omega
    · have hnot := all_eq_true.1 (all_eq_true.1 hall s hs) x h
      simp only [not_eq_true', decide_eq_false_iff_not] at hnot
      omega

theorem exists_lowerChar_subset {cs : List Char} (before : List Char) (h : c ∈ cs) :
    ∃ b a, lowerChar b c a ⊆ lowerFrom before cs := by
  induction cs generalizing before with
  | nil => cases h
  | cons d cs ih =>
    rcases mem_cons.1 h with rfl | h
    · exact ⟨before, cs, subset_append_left _ _⟩
    · obtain ⟨b, a, hsub⟩ := ih (d :: before) h
      exact ⟨b, a, List.Subset.trans hsub (subset_append_right _ _)⟩

theorem lowerChar_ne_nil (before : List Char) (c : Char) (after : List Char) : lowerChar before c after ≠ [] := by
  have hall : lowerExpansions.all (fun e => !e.2.isEmpty) = true := by decide +kernel
  rw [lowerChar, mapCase]
  split
  · exact cons_ne_nil _ _
  split
  · split <;> exact cons_ne_nil _ _
  split
  · next codes hcodes =>
    obtain ⟨l₁, l₂, hl, -⟩ := lookup_eq_some_iff.1 hcodes
    have hmem : (c.toNat, codes) ∈ lowerExpansions := hl ▸ mem_append_right _ mem_cons_self
    simpa using all_eq_true.1 hall _ hmem
  · exact cons_ne_nil _ _

theorem isWordStart_of_lower {cs : List Char} (h : lower (String.ofList cs) = "true") :
    ∀ c ∈ cs, isWordStart c = true := by
  have hlist : lowerFrom [] cs = "true".toList := by
    rw [← h, lower, String.toList_ofList, String.toList_ofList]
  intro c hc
  obtain ⟨b, a, hsub⟩ := exists_lowerChar_subset [] hc
  obtain ⟨x, hx⟩ := exists_mem_of_ne_nil _ (lowerChar_ne_nil b c a)
  exact isWordStart_of_lowerChar hx (hlist ▸ hsub hx)

end Text

/-! ## Single tokens -/

/-- A token starts with a letter or a digit, and then no letter follows it, or with another sign. -/
theorem TokenKind.Shaped.head {kind : TokenKind} {chars rest : List Char} (h : kind.Shaped (c :: chars) rest) :
    (isWordChar c || isDecimal c) = true ∧ EndsWord rest ∨ c ∈ '"' :: '\'' :: singleOperators := by
  cases kind with
  | ident =>
    obtain ⟨d, more, heq, hstart, -, hends⟩ := h
    cases heq
    rw [isWordStart, and_eq_true] at hstart
    exact .inl ⟨by rw [hstart.1, Bool.true_or], hends⟩
  | number =>
    obtain ⟨_ | ⟨d, whole⟩, fraction, mark, heq, hne, hdigits, -, -, hends⟩ := h
    · exact absurd rfl hne
    · cases heq
      exact .inl ⟨by rw [hdigits _ mem_cons_self, Bool.or_true], hends⟩
  | quoted => obtain ⟨inner, -, -, heq | ⟨heq, -⟩⟩ := h <;> cases heq <;> exact .inr (by decide)
  | string => obtain ⟨inner, ⟨-, heq⟩ | ⟨-, -, heq, -⟩⟩ := h <;> cases heq <;> exact .inr (by decide)
  | op =>
    have hpairs : ∀ p ∈ pairOperators, p.1 ∈ singleOperators := by decide
    refine .inr (mem_cons_of_mem _ (mem_cons_of_mem _ ?_))
    obtain ⟨d, e, heq, hpair⟩ | ⟨d, heq, hsingle, -⟩ := h
    · cases heq
      exact hpairs _ hpair
    · cases heq
      exact hsingle
  | eof => cases h

theorem TokenKind.Shaped.not_blank {kind : TokenKind} {chars rest : List Char} (h : kind.Shaped (c :: chars) rest) :
    isBlank c = false := Text.not_blank (h.head.imp_left And.left)

theorem TokenKind.Shaped.endsWord {kind : TokenKind} {chars rest : List Char} (h : kind.Shaped (c :: chars) rest)
    (hc : isWordStart c = true) : EndsWord rest := by
  have hstart : ('"' :: '\'' :: singleOperators).all (fun c => !isWordStart c) = true := by decide +kernel
  refine h.head.elim And.right fun hmem => ?_
  have := all_eq_true.1 hstart c hmem
  rw [hc] at this
  cases this

namespace Layout

variable {cs : List Char} {o : Nat} {pending : List Comment} {scan : Scan} {xs : List Tile}

theorem exists_head (h : Layout cs o pending scan xs) (ht : t ∈ scan.tokens) :
    ∃ c chars, cs[t.start]? = some c ∧ t.kind.Shaped (c :: chars) (cs.drop t.stop) := by
  obtain ⟨hlt, hle⟩ := h.start_lt_stop ht
  have hshaped := (h.shaped ht).2
  have hget : cs[t.start]? = ((cs.take t.stop).drop t.start).head? := by
    rw [head?_drop, getElem?_take_of_lt hlt]
  obtain ⟨c, hc⟩ : ∃ c, cs[t.start]? = some c := ⟨_, getElem?_eq_getElem (by omega)⟩
  obtain ⟨chars, hchars⟩ := head?_eq_some_iff.1 (hget.symm.trans hc)
  exact ⟨c, chars, hc, hchars ▸ hshaped⟩

theorem stop_le_start (h : Layout cs o pending scan xs) (ht : t ∈ scan.tokens) (hu : u ∈ scan.tokens)
    (hlt : t.start < u.start) : t.stop ≤ u.start := by
  obtain ⟨i, hi, rfl⟩ := getElem_of_mem ht
  obtain ⟨j, hj, rfl⟩ := getElem_of_mem hu
  have hpairs := pairwise_iff_getElem.1 (pairwise_append.1 h.pairwise_tokens).1
  have hstop := (h.start_lt_stop hu).1
  rcases Nat.lt_trichotomy i j with hij | rfl | hij
  · exact hpairs i j hi hj hij
  · omega
  · have := hpairs j i hj hi hij
    omega

theorem affirms_slice (h : Layout cs o pending scan xs) (ht : t ∈ scan.tokens) (hu : u ∈ scan.tokens)
    (hlt : t.start < u.start) : Reading.affirms (String.ofList ((cs.drop t.start).take (u.stop - t.start))) =
    false := by
  obtain ⟨c, chars, hc, hshaped⟩ := h.exists_head ht
  obtain ⟨d, _, hd, hshaped'⟩ := h.exists_head hu
  have hstop := h.stop_le_start ht hu hlt
  have hlen := h.start_lt_stop hu
  have hlen' := h.start_lt_stop ht
  generalize hs : (cs.drop t.start).take (u.stop - t.start) = s
  have hget : ∀ k, t.start + k < u.stop → s[k]? = cs[t.start + k]? := by
    intro k hk
    rw [← hs, getElem?_take_of_lt (by omega), getElem?_drop]
  by_contra hyes
  rw [not_eq_false, Reading.affirms, beq_iff_eq, strip, String.toList_ofList] at hyes
  have hletters := isWordStart_of_lower hyes
  -- the text starts with the first token, so there are blanks at its end only
  have hfirst : s.dropWhile isBlank = s := by
    have hhead : s[0]? = some c := by rw [hget 0 (by omega), Nat.add_zero, hc]
    obtain ⟨rest, rfl⟩ := head?_eq_some_iff.1 (head?_eq_getElem? ▸ hhead)
    rw [dropWhile_cons_of_neg (by rw [hshaped.not_blank]; decide)]
  rw [dropAround, hfirst] at hletters
  have hsplit : s = dropTrailing isBlank s ++ (s.reverse.takeWhile isBlank).reverse := by
    rw [dropTrailing, ← reverse_append, takeWhile_append_dropWhile, reverse_reverse]
  generalize dropTrailing isBlank s = w at hletters hsplit
  have hw : ∀ k, k < w.length → s[k]? = w[k]? := by
    intro k hk
    rw [hsplit, getElem?_append_left hk]
  have hletter : ∀ k x, k < w.length → s[k]? = some x → isWordStart x = true := by
    intro k x hk hx
    exact hletters x (mem_of_getElem? ((hw k hk).symm.trans hx))
  -- the second token does not start with a blank, so it starts among the letters
  have hinside : u.start - t.start < w.length := by
    by_contra hout
    have hsu : s[u.start - t.start]? = some d := by
      rw [hget _ (by omega), show t.start + (u.start - t.start) = u.start by omega, hd]
    rw [hsplit, getElem?_append_right (by omega)] at hsu
    have hblank := mem_takeWhile_imp (mem_reverse.1 (mem_of_getElem? hsu))
    rw [hshaped'.not_blank] at hblank
    cases hblank
  -- but then the first token, which is a word, would go on
  have hends := hshaped.endsWord (hletter 0 c (by omega) (by rw [hget 0 (by omega), Nat.add_zero, hc]))
  obtain ⟨x, hx⟩ : ∃ x, cs[t.stop]? = some x := ⟨_, getElem?_eq_getElem (by omega)⟩
  have hword := hletter (t.stop - t.start) x (by omega)
    (by rw [hget _ (by omega), show t.start + (t.stop - t.start) = t.stop by omega, hx])
  rw [isWordStart, hends x (by rw [head?_drop, hx]; rfl)] at hword
  cases hword

end Layout

/-! ## Texts with the same tokens -/

/-- The value of a token with these characters that is not damaged. -/
def TokenKind.valueOf (chars : List Char) : TokenKind → List Char
  | .quoted => chars.tail.dropLast
  | .string => Scan.unpaired chars.tail.dropLast
  | _ => chars

namespace Scan

/-- The tokens of a text and its end. -/
def all (scan : Scan) : List Token := scan.tokens ++ [scan.eof]

theorem value_ofPiece {q : Position} {pending : List Comment} {piece : Piece} (h : complaint? piece = none)
    (ht : (Content.ofPiece p q pending piece).token? = some t) :
    t.value = String.ofList (t.kind.valueOf t.text.toList) := by
  obtain ⟨kind, chars⟩ := piece
  cases kind with
  | number | word | quotedName | string | operator =>
    cases ht
    rw [String.toList_ofList]
    rfl
  | openName | openString => cases h
  | _ => cases ht

/-- Where nothing is damaged, a token has the value that its text stands for. -/
theorem value_of_place {pending : List Comment} {pieces : List Piece} (h : (place p pending pieces).issues = []) :
    ∀ t ∈ (place p pending pieces).all, t.value = String.ofList (t.kind.valueOf t.text.toList) := by
  induction pieces generalizing p pending with
  | nil =>
    intro t ht
    rw [mem_singleton.1 ht]
    rfl
  | cons piece pieces ih =>
    have hcons := place_cons p pending piece pieces
    dsimp only at hcons
    rw [hcons] at h ⊢
    obtain ⟨hpiece, hrest⟩ := append_eq_nil_iff.1 h
    intro t ht
    rw [all, append_assoc] at ht
    rcases mem_append.1 ht with ht | ht
    · rw [Option.toList_eq_nil_iff, Option.map_eq_none_iff] at hpiece
      exact value_ofPiece hpiece (Option.mem_toList.1 ht)
    · exact ih hrest t ht

theorem value_of_sound {text : String} (h : (ofText text).issues = []) :
    ∀ t ∈ (ofText text).all, t.value = String.ofList (t.kind.valueOf t.text.toList) := by
  rw [ofText_eq_place] at h ⊢
  exact value_of_place h

/-- Two texts with the same tokens, and nothing damaged in either. -/
structure SameTokens (text text' : String) : Prop where
  sound : (ofText text).issues = []
  sound' : (ofText text').issues = []
  tokens : (ofText text).tokens.map (fun t => (t.kind, t.text)) = (ofText text').tokens.map fun t => (t.kind, t.text)

/-- Tokens of two texts that come at the same place in the order. -/
def Matching (text text' : String) (t t' : Token) : Prop :=
  ∃ i : Nat, (ofText text).all[i]? = some t ∧ (ofText text').all[i]? = some t'

/-- Places in two texts that go from the same token to the same token. -/
def SpansMatch (text text' : String) (s s' : Span) : Prop :=
  ∃ t u t' u', Matching text text' t t' ∧ Matching text text' u u' ∧
  s = Span.covering t.span u.span ∧ s' = Span.covering t'.span u'.span

theorem start_lt_iff {text : String} (hi : (ofText text).all[i]? = some t) (hj : (ofText text).all[j]? = some u) :
    t.start < u.start ↔ i < j := by
  obtain ⟨xs, hlayout, -⟩ := layout_ofText text
  have hrising := pairwise_iff_getElem.1 hlayout.rising
  obtain ⟨hi', rfl⟩ := List.getElem?_eq_some_iff.1 hi
  obtain ⟨hj', rfl⟩ := List.getElem?_eq_some_iff.1 hj
  refine ⟨fun hlt => ?_, hrising i j hi' hj'⟩
  by_contra hle
  rcases Nat.lt_or_eq_of_le (Nat.le_of_not_lt hle) with hji | rfl
  · exact Nat.lt_asymm hlt (hrising j i hj' hi' hji)
  · exact Nat.lt_irrefl _ hlt

namespace SameTokens

variable {text text' : String} (h : SameTokens text text')

include h

theorem length_eq : (ofText text).tokens.length = (ofText text').tokens.length := by
  simpa using congrArg List.length h.tokens

theorem map_all : (ofText text).all.map (fun t => (t.kind, t.text)) = (ofText text').all.map fun t =>
    (t.kind, t.text) := by
  obtain ⟨_, hlayout, -⟩ := layout_ofText text
  obtain ⟨_, hlayout', -⟩ := layout_ofText text'
  rw [all, all, map_append, map_append, h.tokens, map_singleton, map_singleton, hlayout.eof.1, hlayout.eof.2.1,
    hlayout'.eof.1, hlayout'.eof.2.1]

theorem seen_eq {t' : Token} (ht : Matching text text' t t') : t.seen .bare = t'.seen .bare := by
  obtain ⟨i, hi, hi'⟩ := ht
  have hsame := congrArg (·[i]?) h.map_all
  simp only [getElem?_map, hi, hi', Option.map_some, Option.some.injEq, Prod.mk.injEq] at hsame
  have hvalue := value_of_sound h.sound t (mem_of_getElem? hi)
  have hvalue' := value_of_sound h.sound' t' (mem_of_getElem? hi')
  simp only [Token.seen, hvalue, hvalue', hsame.1, hsame.2]
  rfl

/-- Tokens at the same place in the order of two texts are alike, and so are the places from one token to
another one. -/
def likeness : Likeness where
  toView := .bare
  toWatch := { Watch.none with Inner := (·.kind ≠ .eof) }
  Like := Matching text text'
  At := SpansMatch text text'
  remark _ := .openComment
  seen_eq := h.seen_eq
  docs_eq _ := rfl
  start_lt_iff := by
    rintro t t' u u' ⟨i, hi, hi'⟩ ⟨j, hj, hj'⟩
    rw [start_lt_iff hi hj, start_lt_iff hi' hj']
  at_covering ht hu := ⟨_, _, _, _, ht, hu, rfl, rfl⟩
  place_eq _ := rfl
  remark_eq _ _ := rfl

instance : h.likeness.ForFiles := ⟨fun _ => trivial, rfl⟩

omit h in
theorem affirms_slice_eq (hi : (ofText text).all[i]? = some t) (hj : (ofText text).all[j]? = some u)
    (ht : t.kind ≠ .eof) (hu : u.kind ≠ .eof) (eof : Token) :
    Reading.affirms (Reading.Input.slice ⟨text, eof⟩ t.start u.stop) =
      (decide (i = j) && Reading.affirms t.text) := by
  obtain ⟨xs, hlayout, -⟩ := layout_ofText text
  have hmem : ∀ {k : Nat} {w : Token}, (ofText text).all[k]? = some w → w.kind ≠ .eof → w ∈ (ofText text).tokens := by
    intro k w hk hw
    rcases mem_append.1 (mem_of_getElem? hk) with h | h
    · exact h
    · exact absurd (mem_singleton.1 h ▸ hlayout.eof.1) hw
  rw [Reading.Input.slice]
  rcases Nat.lt_trichotomy i j with hij | rfl | hji
  · rw [hlayout.affirms_slice (hmem hi ht) (hmem hj hu) ((start_lt_iff hi hj).2 hij),
      decide_eq_false (by omega), Bool.false_and]
  · cases hi.symm.trans hj
    rw [(hlayout.text_eq (hmem hi ht)).1, drop_take, decide_eq_true rfl, Bool.true_and]
  · have hstop := hlayout.stop_le_start (hmem hj hu) (hmem hi ht) ((start_lt_iff hj hi).2 hji)
    rw [show u.stop - t.start = 0 by omega, take_zero, decide_eq_false (by omega), Bool.false_and]
    decide

theorem input_like : Reading.Input.Like h.likeness ⟨text, (ofText text).eof⟩ ⟨text', (ofText text').eof⟩ where
  eof := ⟨(ofText text).tokens.length, getElem?_concat_length, by rw [h.length_eq, all, getElem?_concat_length]; rfl⟩
  textOf _ := rfl
  affirms := by
    intro ts ts' hts
    cases hts with
    | nil => rfl
    | @cons t t' ts ts' ht hts =>
      have hlast : ((t :: ts).getLast (cons_ne_nil _ _)).Same h.likeness ((t' :: ts').getLast (cons_ne_nil _ _)) :=
        Token.Likes.getLast hts ht
      have hkind := ht.kind_eq
      have htext := ht.see_text
      have hkind' := hlast.kind_eq
      obtain ⟨⟨i, hi, hi'⟩, hinner⟩ := ht
      obtain ⟨⟨j, hj, hj'⟩, hinner'⟩ := hlast
      rw [Reading.Input.textOf, Reading.Input.textOf, affirms_slice_eq hi hj hinner hinner',
        affirms_slice_eq hi' hj' (hkind ▸ hinner) (hkind' ▸ hinner'), show t.text = t'.text from htext]
  between _ _ := rfl

theorem cursor_like : ((ofText text).open text).2.Like h.likeness ((ofText text').open text').2 := by
  obtain ⟨xs, hlayout, -⟩ := layout_ofText text
  have hrest : Token.Likes h.likeness (ofText text).tokens (ofText text').tokens := by
    rw [Token.Likes, forall₂_iff_get]
    refine ⟨h.length_eq, fun i hi hi' => ⟨⟨i, ?_, ?_⟩, (hlayout.text_eq (get_mem ..)).2⟩⟩
    · rw [all, getElem?_append_left hi, getElem?_eq_getElem hi, get_eq_getElem]
    · rw [all, getElem?_append_left hi', getElem?_eq_getElem hi', get_eq_getElem]
  have hissues : ((ofText text').open text').2.issues = [] := h.sound'
  refine .intro (hrest.headD h.input_like.eof) hrest ⟨[], h.sound, ?_⟩
  rw [hissues]
  exact .nil

end SameTokens

end Scan

namespace SyntaxTree

/-- **Layout does not matter.** Two texts with the same tokens are both refused for the same number, or both
read: to objects that look the same but for places, comments and copied text, and with as many issues, each from
the same token to the same token. -/
theorem layout_irrelevant {text text' : String} (h : Scan.SameTokens text text') :
    (∃ oversized, ofText text = .error oversized ∧ ofText text' = .error oversized) ∨
    ∃ tree tree', ofText text = .ok tree ∧ ofText text' = .ok tree' ∧
      tree.objects.map (ObjectSyntax.seen .bare) = tree'.objects.map (ObjectSyntax.seen .bare) ∧
      List.Forall₂ (fun i i' => Scan.SpansMatch text text' i.span i'.span) tree.issues tree'.issues := by
  obtain ⟨oversized, hfound, hfound'⟩ | ⟨os, issues, os', issues', hfound, hfound', hos, ⟨new, hnew, hissues⟩, -⟩ :=
    Reading.objects_like h.input_like h.cursor_like
  · exact .inl ⟨oversized, congrArg (Except.map _) hfound, congrArg (Except.map _) hfound'⟩
  · refine .inr ⟨_, _, congrArg (Except.map _) hfound, congrArg (Except.map _) hfound', hos, ?_⟩
    rw [hnew]
    exact hissues.imp fun _ _ hi => hi.place

/-- A codeunit on one line, and on several with comments and a directive; a statement is damaged. -/
theorem layout_irrelevant_lines :
    let text := "codeunit 5 A \x7b procedure P(T: Text[10]) begin X := (1; if T then Y(); end; \x7d"
    let text' := "codeunit 5 A // note\n\x7b\n#pragma warning disable\nprocedure P(T : Text [ 10 ])\nbegin\n  X:=(1;\n" ++
      "  /* T */ if T then\n    Y();\nend;\n\x7d\n"
    Scan.SameTokens text text' ∧ ∃ tree tree', ofText text = .ok tree ∧ ofText text' = .ok tree' ∧
      tree.objects.map (ObjectSyntax.seen .bare) = tree'.objects.map (ObjectSyntax.seen .bare) ∧
      List.Forall₂ (fun i i' => Scan.SpansMatch text text' i.span i'.span) tree.issues tree'.issues := by
  intro text text'
  have hsame : Scan.SameTokens text text' := ⟨by decide +kernel, by decide +kernel, by decide +kernel⟩
  have hlength : text.toList.length ≤ maxDigits := by decide
  obtain ⟨tree, htree⟩ := exists_ofText (Scan.fits_ofText fun t ht _ =>
    Nat.le_trans (Scan.digits_le_length ht) hlength)
  rcases layout_irrelevant hsame with ⟨_, herror, -⟩ | hok
  · cases htree.symm.trans herror
  · exact ⟨hsame, hok⟩

end SyntaxTree

end AlLint
