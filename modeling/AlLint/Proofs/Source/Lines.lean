import AlLint.Declaration.Basic
import AlLint.Proofs.Source.Layout

/-!
# Lines by number

A token knows the number of its line, and a file gives the text of the line with a number. The two count
differently: for positions only a line feed ends a line, while the text is split at every line end. They agree
up to the first line end of another kind (`lineText_starts_with_token`), and may disagree from there on
(`lineText_misses_token`).
-/

namespace AlLint

open List

variable {c : Char} {cs : List Char}

namespace Text

/-- Whether lines end with a line feed only, alone or behind a carriage return. -/
def feedsOnly : List Char → Bool
  | [] => true
  | '\r' :: '\n' :: rest => feedsOnly rest
  | c :: rest => (c == '\n' || !isLineEnd c) && feedsOnly rest

theorem feedsOnly_cons (hc : c ≠ '\r') :
    feedsOnly (c :: cs) = ((c == '\n' || !isLineEnd c) && feedsOnly cs) := by
  simp [feedsOnly, hc]

/-- A carriage return that no line feed follows ends a line of another kind. -/
theorem feedsOnly_return (h : cs.head? ≠ some '\n') : feedsOnly ('\r' :: cs) = false := by
  rcases cs with _ | ⟨c, cs⟩
  · rfl
  · have hc : c ≠ '\n' := fun heq => h (by simp [heq])
    simp [feedsOnly, hc]
    intro hend
    exact absurd hend (by decide)

theorem isLineEnd_eq_false (h : feedsOnly cs = true) (hfeed : '\n' ∉ cs) : ∀ c ∈ cs, isLineEnd c = false := by
  induction cs with
  | nil => simp
  | cons c cs ih =>
    obtain ⟨hc, hcs⟩ : '\n' ≠ c ∧ '\n' ∉ cs := by simpa using hfeed
    have hreturn : c ≠ '\r' := by
      rintro rfl
      rw [feedsOnly_return] at h
      · cases h
      · exact fun hhead => hcs (mem_of_head? hhead)
    rw [feedsOnly_cons hreturn] at h
    simp [hc.symm] at h
    simpa [h.1] using ih h.2 hcs

theorem splitLines_cons {line : List Char} (hc : c ≠ '\r') :
    splitLines line (c :: cs) =
      if isLineEnd c then (line.reverse, [c]) :: splitLines [] cs else splitLines (c :: line) cs := by
  -- the equations of `splitLines` take long to prove, the definition as a whole does not
  rw [splitLines.eq_def]
  split
  · next h => cases h
  · next h => exact absurd (cons_eq_cons.1 h).1 hc
  · next h =>
    obtain ⟨rfl, rfl⟩ := cons_eq_cons.1 h
    rfl

theorem splitLines_append {chars : List Char} (h : ∀ c ∈ chars, isLineEnd c = false) (line rest : List Char) :
    splitLines line (chars ++ rest) = splitLines (chars.reverse ++ line) rest := by
  induction chars generalizing line with
  | nil => rfl
  | cons c chars ih =>
    obtain ⟨hc, hchars⟩ := forall_mem_cons.1 h
    have hreturn : c ≠ '\r' := fun heq => absurd hc (by rw [heq]; decide)
    rw [cons_append, splitLines_cons hreturn, hc, if_neg (by decide), ih hchars]
    simp

theorem splitLines_head {line : List Char} (h : line ≠ []) (rest : List Char) :
    ∃ l more, splitLines line rest = l :: more ∧ line.reverse <+: l.1 := by
  fun_induction splitLines line rest with
  | case1 line hempty => exact absurd (List.isEmpty_iff.1 hempty) h
  | case2 line hempty => exact ⟨_, _, rfl, prefix_refl _⟩
  | case3 line rest ih => exact ⟨_, _, rfl, prefix_refl _⟩
  | case4 line c rest _ hend ih => exact ⟨_, _, rfl, prefix_refl _⟩
  | case5 line c rest _ hend ih =>
    obtain ⟨l, more, hsplit, hprefix⟩ := ih (cons_ne_nil _ _)
    exact ⟨l, more, hsplit, (by simp : line.reverse <+: (c :: line).reverse).trans hprefix⟩

/-- **Where a position leads.** If lines end with line feeds only up to the end of some characters, the line
with the number of their position, from its column on, starts with them. Part of the first line has been read
before. -/
theorem splitLines_at_position {line before chars : List Char} {p : Position} (hcolumn : p.column = line.length + 1)
    (hplain : feedsOnly (before ++ chars) = true) (hfeed : '\n' ∉ chars) (hne : chars ≠ []) (rest : List Char) :
    ∃ n l, (p.after before).line = p.line + n ∧ (splitLines line (before ++ (chars ++ rest)))[n]? = some l ∧
      chars <+: l.1.drop ((p.after before).column - 1) := by
  -- the induction follows the way in which lines are split
  induction before using feedsOnly.induct generalizing line p with
  | case1 =>
    obtain ⟨l, more, hsplit, tail, hl⟩ := splitLines_head (by simp [hne] : chars.reverse ++ line ≠ []) rest
    have hchars := isLineEnd_eq_false hplain hfeed
    rw [nil_append] at hchars
    refine ⟨0, l, rfl, ?_, ⟨tail, ?_⟩⟩
    · rw [nil_append, splitLines_append hchars, hsplit]
      rfl
    · simp [← hl, hcolumn]
  | case2 before ih =>
    obtain ⟨n, l, hline, hl⟩ := ih (p := (p.step '\r').step '\n') (rfl : _ = ([] : List Char).length + 1) hplain
    exact ⟨n + 1, l, hline.trans (Nat.add_right_comm p.line 1 n), hl⟩
  | case3 c before hpair ih =>
    have hreturn : c ≠ '\r' := by
      rintro rfl
      have hhead : (before ++ chars).head? ≠ some '\n' := by
        rcases before with _ | ⟨d, before⟩
        · exact fun hhead => hfeed (mem_of_head? hhead)
        · intro hhead
          exact hpair before rfl (by rw [Option.some.inj hhead])
      rw [cons_append, feedsOnly_return hhead] at hplain
      cases hplain
    rw [cons_append, feedsOnly_cons hreturn, Bool.and_eq_true] at hplain
    rw [cons_append, splitLines_cons hreturn]
    by_cases hc : c = '\n'
    · obtain ⟨n, l, hline, hl⟩ := ih (p := p.step c)
        (by simp [Position.step, hc] : _ = ([] : List Char).length + 1) hplain.2
      rw [if_pos (by rw [hc]; decide)]
      refine ⟨n + 1, l, hline.trans ?_, hl⟩
      simp [Position.step, hc]
      omega
    · obtain ⟨n, l, hline, hl⟩ := ih (p := p.step c)
        (by simp [Position.step, hc, hcolumn] : _ = (c :: line).length + 1) hplain.2
      rw [if_neg (by simpa [hc] using hplain.1)]
      exact ⟨n, l, hline.trans (by simp [Position.step, hc]), hl⟩

end Text

/-- The position at an offset is the one that walking over the text before it leads to. -/
theorem Position.after_take {o : Nat} (h : o ≤ cs.length) : start.after (cs.take o) = ofOffset cs o := by
  have hwalk := after_ofOffset [] (cs.take o) (cs.drop o)
  rw [nil_append, take_append_drop, length_nil, Nat.zero_add, length_take_of_le h] at hwalk
  exact hwalk

theorem SourceFile.lineText_eq (f : SourceFile) {n : Nat} {l : List Char × List Char}
    (h : (Text.splitLines [] f.text.toList)[n]? = some l) :
    (f.lineText (Position.start.line + n : Nat)).toList = l.1 := by
  have hpos : ¬ ((Position.start.line + n : Nat) : Int) ≤ 0 := by simp [Position.start]; omega
  have hindex : ((Position.start.line + n : Nat) : Int).toNat - 1 = n := by simp [Position.start]; omega
  rw [lineText, if_neg hpos, hindex, getD_eq_getElem?_getD, Text.lines, getElem?_map, h]
  exact String.toList_ofList

/-- **Lines found by number are those of the positions.** If lines end with line feeds only up to the end of a
token, the line with the number of the token's line, from the token's column on, starts with the token. -/
theorem lineText_starts_with_token (f : SourceFile) {t : Token}
    (ht : t ∈ (Scan.ofText f.text).tokens ++ [(Scan.ofText f.text).eof])
    (hsingle : t.span.line = t.span.endLine) (hplain : Text.feedsOnly (f.text.toList.take t.stop) = true) :
    t.text.toList <+: (f.lineText t.span.line).toList.drop (t.span.column - 1) := by
  obtain ⟨xs, hlayout, hlocated⟩ := Scan.layout_ofText f.text
  have hspan := hlayout.span_eq hlocated t ht
  rcases mem_append.1 ht with ht | ht
  · obtain ⟨hlt, hle⟩ := hlayout.start_lt_stop ht
    set cs := f.text.toList with hcs
    set before := cs.take t.start with hbefore
    set chars := (cs.take t.stop).drop t.start with hchars
    have hstop : before ++ chars = cs.take t.stop := by
      rw [hbefore, hchars, ← Nat.min_eq_left (Nat.le_of_lt hlt), ← take_take, Nat.min_eq_left (Nat.le_of_lt hlt),
        take_append_drop]
    have htext : before ++ (chars ++ cs.drop t.stop) = cs := by rw [← append_assoc, hstop, take_append_drop]
    -- a token on one line holds no line feed
    have hfeed : '\n' ∉ chars := by
      have hcount : (cs.take t.stop).count '\n' = before.count '\n' := by
        simpa [hspan, Span.ofOffsets, Position.spanTo, Position.ofOffset] using hsingle.symm
      rw [← hstop, count_append, Nat.add_eq_left] at hcount
      exact count_eq_zero.1 hcount
    have hne : chars ≠ [] := by
      rw [hchars, ← length_pos_iff, length_drop, length_take_of_le hle]
      omega
    obtain ⟨n, l, hline, hl, hstarts⟩ := Text.splitLines_at_position (p := .start)
      (rfl : _ = ([] : List Char).length + 1) (hstop ▸ hplain) hfeed hne (cs.drop t.stop)
    rw [hbefore, Position.after_take (by omega)] at hline hstarts
    rw [htext] at hl
    rw [(hlayout.text_eq ht).1, String.toList_ofList, hspan]
    show chars <+: (f.lineText (Position.ofOffset cs t.start).line).toList.drop _
    rw [hline, SourceFile.lineText_eq f hl]
    exact hstarts
  · rw [mem_singleton.1 ht, hlayout.eof.2.1]
    exact nil_prefix

/-- Two lines, the first of them with a carriage return at its end, and a form feed behind the last token. -/
theorem lineText_starts_with_token_mixed :
    let f : SourceFile := ⟨"", "A :=\r\n  'B';\x0c", [], []⟩
    (Scan.ofText f.text).tokens.length = 4 ∧
      ∀ t ∈ (Scan.ofText f.text).tokens, t.text.toList <+: (f.lineText t.span.line).toList.drop
        (t.span.column - 1) := by
  intro f
  have hplain : ∀ t ∈ (Scan.ofText f.text).tokens, t.span.line = t.span.endLine ∧
      Text.feedsOnly (f.text.toList.take t.stop) = true := by decide +kernel
  refine ⟨by decide +kernel, fun t ht => ?_⟩
  exact lineText_starts_with_token f (mem_append_left _ ht) (hplain t ht).1 (hplain t ht).2

/-- **Behind a form feed, a token is looked for in the wrong line.** `B` stands in the first line of the text by
its position, but that line is `A`. -/
theorem lineText_misses_token :
    let f : SourceFile := ⟨"", "A\x0cB", [], []⟩
    ∃ t ∈ (Scan.ofText f.text).tokens, t.span.line = t.span.endLine ∧
      ¬ t.text.toList <+: (f.lineText t.span.line).toList.drop (t.span.column - 1) := by
  decide +kernel

end AlLint
