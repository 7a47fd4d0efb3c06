import AlLint.Declaration.Build
import AlLint.Proofs.Checked
import AlLint.Proofs.Reading.ObjectsAlike
import AlLint.Proofs.Reading.Round

/-!
# Where arguments come from

An element keeps the tokens of its arguments, and numbers are only read from them when declarations are built.
Here is where those tokens come from: they are tokens of the text. So a text in which no number has too many
digits is read and built to the end (`SourceFile.exists_ofText`).
-/

namespace AlLint

open List Element Reading

variable {t : Token} {s : LineCount} {pending : List Comment} {pieces : List Piece} {arg : List Token}

theorem Element.tokens_eq (e : Element) : e.tokens = e.args.flatten ++ Element.allTokens e.children := by
  cases e
  rw [tokens]

theorem Element.mem_allTokens {es : List Element} {e : Element} (he : e ∈ es) (ht : t ∈ e.tokens) :
    t ∈ Element.allTokens es := by
  induction es with
  | nil => cases he
  | cons e' es ih =>
    rw [allTokens, mem_append]
    rcases mem_cons.1 he with rfl | he
    · exact .inl ht
    · exact .inr (ih he)

namespace Reading

open Cursor

/-- **The arguments in an object are tokens of the text.** -/
theorem tokens_objects (inp : Input) (c : Cursor) {found : List ObjectSyntax × List Issue}
    (h : objects inp c = .ok found) : ∀ o ∈ found.1, ∀ t ∈ o.body.tokens, t ∈ c.rest := by
  obtain ⟨_, h', -⟩ | ⟨_, _, _, _, h', -, -, -, hinner⟩ := objects_like (.exact inp) (.among c.last c.rest c.issues)
  · cases h.symm.trans h'
  · cases h.symm.trans h'
    exact hinner

end Reading

/-! ## Numbers that can be read -/

def Token.digits (t : Token) : Nat := t.text.toList.countP Text.isDigitForm

/-- A token can be read as a number, if it is to be: it does not have too many digits. -/
def Token.Fits (t : Token) : Prop := t.kind = .number → t.value = t.text ∧ t.digits ≤ maxDigits

theorem Scan.value_eq_text
    (ht : t ∈ (through s pending pieces).tokens) (hkind : t.kind = .number) : t.value = t.text := by
  induction pieces generalizing s pending with
  | nil => cases ht
  | cons piece pieces ih =>
    rw [through, put] at ht
    split at ht
    · exact ih ht
    · next kind hcomment htoken =>
      rcases mem_cons.1 ht with rfl | ht
      · obtain rfl : kind = .number := hkind
        have hpiece : piece.kind = .number := by
          revert htoken
          cases piece.kind <;> simp [tokenKind?]
        show String.ofList (valueOf piece) = String.ofList piece.chars
        rw [valueOf, hpiece]
      · exact ih ht
    · exact ih ht

theorem Scan.exists_piece
    (ht : t ∈ (through s pending pieces).tokens) : ∃ piece ∈ pieces, t.text = String.ofList piece.chars := by
  induction pieces generalizing s pending with
  | nil => cases ht
  | cons piece pieces ih =>
    have hlater : ∀ {q pending}, t ∈ (through q pending pieces).tokens →
        ∃ x ∈ piece :: pieces, t.text = String.ofList x.chars := by
      intro q pending ht
      obtain ⟨x, hx, htext⟩ := ih ht
      exact ⟨x, mem_cons_of_mem _ hx, htext⟩
    rw [through, put] at ht
    split at ht
    · exact hlater ht
    · rcases mem_cons.1 ht with rfl | ht
      · exact ⟨piece, mem_cons_self, rfl⟩
      · exact hlater ht
    · exact hlater ht

theorem Scan.digits_le_length {text : String} (ht : t ∈ (Scan.ofText text).tokens) :
    t.digits ≤ text.toList.length := by
  obtain ⟨piece, hpiece, htext⟩ := exists_piece ht
  have hchars : piece.chars.Sublist text.toList := by
    have hsub : piece.chars.Sublist ((Piece.cut text.toList).flatMap Piece.chars) :=
      sublist_flatten_of_mem (mem_map_of_mem hpiece)
    rwa [Piece.flatMap_cut] at hsub
  rw [Token.digits, htext, String.toList_ofList]
  exact Nat.le_trans countP_le_length hchars.length_le

theorem Scan.fits_ofText {text : String} (h : ∀ t ∈ (Scan.ofText text).tokens, t.kind = .number →
    t.digits ≤ maxDigits) :
    ∀ t ∈ (Scan.ofText text).tokens, t.Fits :=
  fun t ht hkind => ⟨value_eq_text ht hkind, h t ht hkind⟩

theorem Token.Fits.exists_wholeNumber? (h : t.Fits) (hkind : t.kind = .number) :
    ∃ n, wholeNumber? t.value = .ok n := by
  obtain ⟨hvalue, hdigits⟩ := h hkind
  cases hread : wholeNumber? t.value with
  | ok n => exact ⟨n, rfl⟩
  | error o =>
    obtain ⟨hall, hlength, hlong⟩ := wholeNumber?_eq_error_iff.1 hread
    rw [hvalue] at hall hlength
    have hcount : t.digits = o.digits := by
      rw [digits, countP_eq_length.2 fun c hc => all_eq_true.1 hall c hc, hlength]
    rw [hcount, maxDigits] at hdigits
    omega

namespace Declaration

theorem exists_number? (h : ∀ t ∈ arg, t.Fits) : ∃ n, number? arg = .ok n := by
  rcases arg with _ | ⟨t, _ | ⟨u, more⟩⟩
  · exact ⟨none, rfl⟩
  · rw [number?]
    split
    · next hkind => exact (h t mem_cons_self).exists_wholeNumber? (beq_iff_eq.1 hkind)
    · exact ⟨none, rfl⟩
  · exact ⟨none, rfl⟩

variable {e : Element}

theorem fits_of_mem_args (h : ∀ t ∈ e.tokens, t.Fits) (harg : arg ∈ e.args) : ∀ t ∈ arg, t.Fits := by
  intro t ht
  rw [tokens_eq] at h
  exact h t (mem_append_left _ (mem_flatten.2 ⟨arg, harg, ht⟩))

theorem exists_field (inp : Reading.Input) (h : ∀ t ∈ e.tokens, t.Fits) : ∃ b, field inp e = .ok b := by
  rw [field]
  split
  · next id nameArg first rest more hargs =>
    have hid : id ∈ e.args := by rw [hargs]; exact mem_cons_self
    obtain ⟨n, hn⟩ := exists_number? (fits_of_mem_args h hid)
    rw [hn]
    cases n <;> cases name? nameArg <;> exact ⟨_, rfl⟩
  · exact ⟨_, rfl⟩

theorem exists_fieldOrChange (inp : Reading.Input) (h : ∀ t ∈ e.tokens, t.Fits) :
    ∃ b, fieldOrChange inp e = .ok b := by
  unfold fieldOrChange
  split
  · obtain ⟨b, hb⟩ := exists_field inp h
    rw [hb]
    exact ⟨_, rfl⟩
  · exact ⟨_, rfl⟩
  · exact ⟨_, rfl⟩

theorem exists_enumValue (h : ∀ t ∈ e.tokens, t.Fits) : ∃ b, enumValue e = .ok b := by
  have hfirst : ∀ t ∈ e.args.headD [], t.Fits := by
    cases hargs : e.args with
    | nil =>
      intro t ht
      cases ht
    | cons arg args => exact fits_of_mem_args h (by rw [hargs]; exact mem_cons_self)
  obtain ⟨n, hn⟩ := exists_number? hfirst
  rw [enumValue, hn]
  cases n <;> cases name? (e.args.getD 1 []) <;> exact ⟨_, rfl⟩

theorem fits_of_mem_children (h : ∀ t ∈ e.tokens, t.Fits) {child : Element} (hchild : child ∈ e.children) :
    ∀ t ∈ child.tokens, t.Fits := by
  intro t ht
  rw [tokens_eq] at h
  exact h t (mem_append_right _ (mem_allTokens hchild ht))

theorem fits_of_mem_inSections {keyword : String} (h : ∀ t ∈ e.tokens, t.Fits) {inner : Element}
    (hinner : inner ∈ inSections keyword e) : ∀ t ∈ inner.tokens, t.Fits := by
  obtain ⟨child, hchild, hinner⟩ := mem_flatMap.1 hinner
  exact fits_of_mem_children (fits_of_mem_children h (mem_filter.1 hchild).1) hinner

theorem exists_contents? (inp : Reading.Input) (h : ∀ t ∈ e.tokens, t.Fits) : ∃ x, contents? inp e = .ok x := by
  have htable : ∃ x, tableContents inp e = .ok x := by
    obtain ⟨built, hbuilt⟩ := exists_mapM_eq_ok fun inner (hinner : inner ∈ inSections "fields" e) =>
      exists_fieldOrChange inp (fits_of_mem_inSections h hinner)
    rw [tableContents, hbuilt]
    exact ⟨_, rfl⟩
  have henum : ∃ x, enumContents e = .ok x := by
    obtain ⟨built, hbuilt⟩ := exists_mapM_eq_ok
      fun inner (hinner : inner ∈ e.children.filter (·.keyword == "value")) =>
      exists_enumValue (fits_of_mem_children h (mem_filter.1 hinner).1)
    rw [enumContents, hbuilt]
    exact ⟨_, rfl⟩
  obtain ⟨table, htable⟩ := htable
  obtain ⟨values, henum⟩ := henum
  unfold contents?
  split <;> first | exact ⟨_, rfl⟩ | (rw [htable]; exact ⟨_, rfl⟩) | (rw [henum]; exact ⟨_, rfl⟩)

theorem exists_ofObject (inp : Reading.Input) {o : ObjectSyntax} (h : ∀ t ∈ o.body.tokens, t.Fits) :
    ∃ b, ofObject inp o = .ok b := by
  obtain ⟨contents, hcontents⟩ := exists_contents? inp h
  rw [ofObject, hcontents]
  cases contents <;> exact ⟨_, rfl⟩

end Declaration

theorem SyntaxTree.exists_ofText {text : String} (h : ∀ t ∈ (Scan.ofText text).tokens, t.Fits) :
    ∃ tree, SyntaxTree.ofText text = .ok tree := by
  cases hobjects : Reading.objects ((Scan.ofText text).open text).1 ((Scan.ofText text).open text).2 with
  | ok found =>
    exact ⟨⟨found.1, (Scan.ofText text).comments, found.2⟩, congrArg (Except.map fun found => _) hobjects⟩
  | error o =>
    obtain ⟨d, hrounds, hover⟩ := objects_eq_error_iff.1 hobjects
    obtain ⟨keyword, number, rest, hd, -, hkind, hdigits⟩ := hover
    have hmem : number ∈ (Scan.ofText text).tokens := by
      refine (leads_of_rounds hrounds).suffix.subset ?_
      rw [hd]
      exact mem_cons_of_mem _ mem_cons_self
    obtain ⟨n, hn⟩ := (h number hmem).exists_wholeNumber? hkind
    rw [wholeNumber?_eq_error_iff.2 hdigits] at hn
    cases hn

/-- **A text in which no number has too many digits is read and built to the end.** -/
theorem SourceFile.exists_ofText {text : String}
    (h : ∀ t ∈ (Scan.ofText text).tokens, t.kind = .number → t.digits ≤ maxDigits) (path : String) :
    ∃ file issues, SourceFile.ofText path text = .ok (file, issues) := by
  have hfits := Scan.fits_ofText h
  obtain ⟨tree, htree⟩ := SyntaxTree.exists_ofText hfits
  have hobjects : ∀ o ∈ tree.objects, ∃ b, Declaration.ofObject ⟨text, (Scan.ofText text).eof⟩ o = .ok b := by
    intro o ho
    obtain ⟨found, hfound, rfl⟩ := exists_of_map_eq_ok htree
    exact Declaration.exists_ofObject _ fun t ht => hfits t (tokens_objects _ _ hfound o ho t ht)
  obtain ⟨built, hbuilt⟩ := exists_mapM_eq_ok hobjects
  rw [SourceFile.ofText, htree]
  simp only [bind, Except.bind, hbuilt]
  exact ⟨_, _, rfl⟩

end AlLint
