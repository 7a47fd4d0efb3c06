import AlLint.Proofs.Source.Shape
import AlLint.Source.Scan

/-!
# Counting lines

A scan counts lines by pieces: it keeps the offset at which its line starts, looks for line feeds in ends of
lines and in comments, and passes by all other pieces as if they were inside a line. `Scan.place` counts by
characters instead. The two agree (`Scan.ofText_eq_place`): the formulas for the end of a span say what a walk
over its characters says (`Position.after_eq`), and no piece that is passed by holds a line feed
(`Piece.counted_extent`).
-/

namespace AlLint

open Text Piece List

variable {c : Char} {cs : List Char} {s : LineCount} {piece : Piece}

/-! ## The count as a position -/

theorem LineCount.count_eq_zero (h : lastFeed? cs = none) : cs.count '\n' = 0 := by
  induction cs with
  | nil => rfl
  | cons c cs ih =>
    rw [lastFeed?] at h
    cases hcs : lastFeed? cs with
    | some i => simp [hcs] at h
    | none =>
      have hc : c ≠ '\n' := by simpa [hcs] using h
      rw [count_cons_of_ne hc, ih hcs]

theorem LineCount.lastFeed?_eq_none_iff : lastFeed? cs = none ↔ '\n' ∉ cs := by
  refine ⟨fun h => List.count_eq_zero.1 (LineCount.count_eq_zero h), fun h => ?_⟩
  induction cs with
  | nil => rfl
  | cons c cs ih =>
    obtain ⟨hc, hcs⟩ := not_or.1 (mem_cons.not.1 h)
    rw [lastFeed?, ih hcs]
    exact if_neg fun h => hc h.symm

/-- Where a walk over some characters leads, by the number of their line feeds and the last of these. -/
theorem Position.after_eq (p : Position) (cs : List Char) : p.after cs =
    match LineCount.lastFeed? cs with
    | some i => ⟨p.offset + cs.length, p.line + cs.count '\n', cs.length - i⟩
    | none => ⟨p.offset + cs.length, p.line, p.column + cs.length⟩ := by
  induction cs generalizing p with
  | nil => rfl
  | cons c cs ih =>
    rw [show p.after (c :: cs) = (p.step c).after cs from rfl, ih, LineCount.lastFeed?]
    -- columns start again after a line feed, so this one counts for the column if it is the last
    by_cases hc : c = '\n'
    · have hstep : p.step c = ⟨p.offset + 1, p.line + 1, 1⟩ := if_pos hc
      have hcount : (c :: cs).count '\n' = cs.count '\n' + 1 := by rw [hc, count_cons_self]
      rw [hstep, hcount, length_cons]
      cases hcs : LineCount.lastFeed? cs with
      | some i =>
        simp only [Position.mk.injEq]
        omega
      | none =>
        simp only [if_pos hc, LineCount.count_eq_zero hcs, Position.mk.injEq, true_and]
        omega
    · have hstep : p.step c = ⟨p.offset + 1, p.line, p.column + 1⟩ := if_neg hc
      rw [hstep, count_cons_of_ne hc, length_cons]
      cases hcs : LineCount.lastFeed? cs with
      | some i =>
        simp only [Position.mk.injEq, true_and]
        omega
      | none =>
        simp only [if_neg hc, Position.mk.injEq, true_and]
        omega

namespace LineCount

def position (s : LineCount) : Position := ⟨s.offset, s.line, s.column⟩

/-- The line of a count starts at or before the place that it has come to. -/
def Sound (s : LineCount) : Prop := s.lineStart ≤ s.offset

theorem lastFeed?_lt {i : Nat} (h : lastFeed? cs = some i) : i < cs.length := by
  induction cs generalizing i with
  | nil => cases h
  | cons c cs ih =>
    rw [lastFeed?] at h
    cases hcs : lastFeed? cs with
    | some j =>
      obtain rfl : j + 1 = i := by simpa [hcs] using h
      exact Nat.succ_lt_succ (ih hcs)
    | none =>
      obtain rfl : 0 = i := by
        rw [hcs] at h
        by_cases hc : c = '\n'
        · simpa [hc] using h
        · simp [hc] at h
      exact Nat.succ_pos _

/-- **The formulas for a span agree with a walk over its characters.** -/
theorem span_eq (s : LineCount) (chars : List Char) : s.span chars = s.position.spanTo (s.position.after chars) := by
  rw [Position.after_eq, span]
  cases lastFeed? chars <;> rfl

theorem position_forward (hs : s.Sound) (h : '\n' ∉ cs) : (s.forward cs).position = s.position.after cs := by
  rw [Position.after_eq, lastFeed?_eq_none_iff.2 h]
  simp only [position, forward, column, Position.mk.injEq, true_and]
  have : s.lineStart ≤ s.offset := hs
  omega

theorem position_track (hs : s.Sound) (chars : List Char) : (s.track chars).position = s.position.after chars := by
  rw [track]
  cases hchars : lastFeed? chars with
  | none => exact position_forward hs (lastFeed?_eq_none_iff.1 hchars)
  | some i =>
    have hlt := lastFeed?_lt hchars
    rw [Position.after_eq, hchars]
    simp only [position, column, Position.mk.injEq, true_and]
    omega

theorem sound_track (hs : s.Sound) (chars : List Char) : (s.track chars).Sound := by
  have hs' : s.lineStart ≤ s.offset := hs
  rw [track]
  cases hchars : lastFeed? chars with
  | none => exact Nat.le_add_right_of_le hs'
  | some i =>
    have hlt := lastFeed?_lt hchars
    show s.offset + i + 1 ≤ s.offset + chars.length
    omega

end LineCount

/-! ## Pieces -/

/-- A piece is counted right: an end of line holds one line feed, as its last character, and what is neither
that nor a comment holds none. -/
def Piece.Counted (piece : Piece) : Prop :=
  match piece.kind with
  | .newline => piece.chars = ['\n'] ∨ piece.chars = ['\r', '\n']
  | .docComment | .lineComment | .blockComment | .openComment => True
  | _ => '\n' ∉ piece.chars

namespace LineCount

theorem past_eq (hs : s.Sound) (h : piece.Counted) :
    (s.past piece).Sound ∧ (s.past piece).position = s.position.after piece.chars := by
  have hforward : '\n' ∉ piece.chars →
      (s.forward piece.chars).Sound ∧ (s.forward piece.chars).position = s.position.after piece.chars :=
    fun hfeed => ⟨Nat.le_add_right_of_le hs, position_forward hs hfeed⟩
  have htrack : (s.track piece.chars).Sound ∧ (s.track piece.chars).position = s.position.after piece.chars :=
    ⟨sound_track hs _, position_track hs _⟩
  obtain ⟨kind, chars⟩ := piece
  -- comments are searched for line feeds, and of the pieces that are not only the ends of lines hold any
  cases kind with
  | newline =>
    refine ⟨Nat.le_refl _, ?_⟩
    rcases h with h | h
    all_goals
      dsimp only at h
      rw [h]
      simp [past, position, column, Position.after, Position.step]
  | docComment | lineComment | blockComment | openComment => exact htrack
  | gap | directive | number | word | quotedName | openName | string | openString | operator | stray =>
    exact hforward h

end LineCount

namespace Piece

theorem feed_notMem_of_paired (h : Paired cs) : '\n' ∉ cs := by
  fun_induction Paired cs with
  | case1 => simp
  | case2 rest ih => simpa using ih h
  | case3 c rest hnot ih => simpa [h.2.1.symm] using ih h.2.2

theorem feed_notMem_of_all {p : Char → Bool} (hp : p '\n' = false) (h : ∀ d ∈ cs, p d = true) : '\n' ∉ cs := by
  intro hmem
  rw [h _ hmem] at hp
  cases hp

theorem feed_notMem_of_shaped {kind : TokenKind} {rest : List Char} (h : kind.Shaped cs rest) : '\n' ∉ cs := by
  cases kind with
  | ident =>
    obtain ⟨c, more, rfl, hc, hmore, -⟩ := h
    refine feed_notMem_of_all (p := isWordChar) (by decide) fun d hd => ?_
    rcases mem_cons.1 hd with rfl | hd
    · exact (Bool.and_eq_true_iff.1 hc).1
    · exact hmore d hd
  | number =>
    obtain ⟨whole, fraction, mark, rfl, -, hwhole, hfraction, hmark, -⟩ := h
    have hdigits : ∀ {ds : List Char}, (∀ d ∈ ds, isDecimal d = true) → '\n' ∉ ds := feed_notMem_of_all (by decide)
    have hfraction : '\n' ∉ fraction := by
      rcases hfraction with rfl | ⟨ds, rfl, -, hds⟩
      · exact not_mem_nil
      · exact fun hmem => (mem_cons.1 hmem).elim (by decide) (hdigits hds)
    have hmark : '\n' ∉ mark := fun hmem => by simpa using mem_of_isNumberMark hmark _ hmem
    simp only [mem_append, not_or]
    exact ⟨⟨hdigits hwhole, hfraction⟩, hmark⟩
  | quoted =>
    obtain ⟨inner, -, hfeed, rfl | ⟨rfl, -⟩⟩ := h <;> simp [hfeed]
  | string =>
    obtain ⟨inner, ⟨hpaired, rfl⟩ | ⟨-, hfeed, rfl, -⟩⟩ := h
    · simp [feed_notMem_of_paired hpaired]
    · simp [hfeed]
  | op =>
    obtain ⟨c, d, rfl, hmem⟩ | ⟨c, rfl, hmem, -⟩ := h
    · have hpairs : ∀ x ∈ pairOperators, '\n' ∉ [x.1, x.2] := by decide
      exact hpairs _ hmem
    · have hsingles : '\n' ∉ singleOperators := by decide
      exact fun hfeed => hsingles (mem_singleton.1 hfeed ▸ hmem)
  | eof => exact h.elim

theorem counted_plainExtent (hfeed : c ≠ '\n') :
    Counted ⟨(plainExtent c cs).1, c :: cs.take (plainExtent c cs).2⟩ := by
  have hsingle : '\n' ∉ [c] := fun h => hfeed (mem_singleton.1 h).symm
  unfold plainExtent
  split_ifs with hgap hdigit hword hpair
  · refine feed_notMem_of_all (p := isGap) rfl fun d hd => ?_
    rcases mem_cons.1 hd with rfl | hd
    · exact hgap
    · rw [take_run] at hd
      exact mem_takeWhile_imp hd
  · cases hn : numberLength cs with
    | none => exact hsingle
    | some n => exact feed_notMem_of_shaped (shaped_number hdigit hn)
  · exact feed_notMem_of_shaped (shaped_word hword)
  · exact feed_notMem_of_shaped (shaped_pair hpair cs)
  · exact hsingle
  · exact hsingle

/-- **Line feeds are counted where they are**: in ends of lines, of which each holds one, and in comments. -/
theorem counted_extent (c : Char) (cs : List Char) : Counted ⟨(extent c cs).1, c :: cs.take (extent c cs).2⟩ := by
  rw [extent_eq]
  dsimp only
  split_ifs with hfeed hreturn hslash hdoc hstar hhash hname hclosed hquote
  · exact .inl (by rw [hfeed]; rfl)
  · obtain ⟨rfl, hhead⟩ := hreturn
    obtain ⟨rest, rfl⟩ := head?_eq_some_iff.1 hhead
    exact .inr rfl
  · trivial
  · trivial
  · cases commentLength cs.tail <;> trivial
  · exact fun hmem => (mem_cons.1 hmem).elim (fun h => hfeed h.symm) (feed_notMem_line cs)
  · obtain rfl := hname
    exact feed_notMem_of_shaped (shaped_quotedName rfl hclosed []).1
  · obtain rfl := hname
    exact feed_notMem_of_shaped (shaped_openName rfl hclosed).1
  · obtain rfl := hquote
    cases hn : stringLength cs with
    | some n => exact feed_notMem_of_shaped (shaped_string hn []).1
    | none => exact feed_notMem_of_shaped (shaped_openString hn).1
  · exact counted_plainExtent hfeed

theorem counted_cut (cs : List Char) : ∀ piece ∈ cut cs, piece.Counted := by
  fun_induction cut cs with
  | case1 => exact fun _ h => absurd h not_mem_nil
  | case2 c cs ih =>
    intro piece hpiece
    rcases mem_cons.1 hpiece with rfl | hpiece
    · exact counted_extent c cs
    · exact ih piece hpiece

end Piece

/-! ## The scan -/

namespace Scan

/-- What is found in pieces that start at a position, by a walk over all their characters. -/
def place (p : Position) (pending : List Comment) : List Piece → Scan
  | [] => ⟨[], ⟨.eof, "", "", p.spanTo p, p.offset, p.offset, pending⟩, [], []⟩
  | piece :: pieces =>
    let q := p.after piece.chars
    put piece (p.spanTo q) p.offset q.offset pending fun pending => place q pending pieces

theorem through_eq_place {pieces : List Piece} (h : ∀ piece ∈ pieces, piece.Counted) (hs : s.Sound)
    (pending : List Comment) :
    through s pending pieces = place s.position pending pieces := by
  -- the count stays sound and at the position of the walk, whatever the piece
  induction pieces generalizing s pending with
  | nil =>
    rw [through, LineCount.span_eq]
    rfl
  | cons piece pieces ih =>
    obtain ⟨hpiece, hpieces⟩ := forall_mem_cons.1 h
    obtain ⟨hsound, hpast⟩ := LineCount.past_eq hs hpiece
    have hoffset : (s.past piece).offset = (s.position.after piece.chars).offset := congrArg Position.offset hpast
    rw [through, place, LineCount.span_eq, hoffset, ← hpast]
    exact congrArg _ (funext fun pending => ih hpieces hsound pending)

/-- **Counting lines by pieces is counting them by characters.** -/
theorem ofText_eq_place (text : String) : ofText text = place .start [] (cut text.toList) :=
  through_eq_place (counted_cut text.toList) (Nat.le_refl _) []

end Scan

end AlLint
