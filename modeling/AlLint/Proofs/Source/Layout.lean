import AlLint.Proofs.Source.LineCount
import AlLint.Proofs.Source.Offset

/-!
# The layout of a text

A text is laid out in tiles: each starts where the one before it ends, none is empty, and together they reach
from the start of the text to its end. A tile holds a token, a comment, blanks, a directive, or something that
is damaged. What a scan returns is read off the tiles from left to right: its tokens, its comments, and one
issue for each damaged tile and no other.

The proof goes over the pieces of the text as the scanner places them, with what stands before a piece as a
variable (`exists_layout`). Positions are then no more than a property of the tiles: wherever a tile starts and
ends, its span is the one that the text tells.
-/

namespace AlLint

open Text Piece List

variable {c : Char} {a b n : Nat} {t : Token}

/-- What a tile holds. -/
inductive Content where
  | token (t : Token)
  | comment (c : Comment)
  /-- The end of a line, or blanks inside a line. -/
  | blank
  /-- `#` to the end of the line. -/
  | directive
  /-- `/*` that is never closed. -/
  | openComment
  /-- A character that starts nothing. -/
  | stray (c : Char)

namespace Content

def token? : Content → Option Token
  | .token t => some t
  | _ => none

def comment? : Content → Option Comment
  | .comment c => some c
  | _ => none

/-- What is wrong with the content. A quoted name or a string is damaged if its closing quote is missing. -/
def complaint? : Content → Option Complaint
  | .token t =>
    match t.kind with
    | .quoted => if lacksQuote '"' t.text.toList then some .openQuotedName else none
    | .string => if lacksQuote '\'' t.text.toList then some .openString else none
    | _ => none
  | .openComment => some .openComment
  | .stray c => some (.unexpectedCharacter c)
  | _ => none

/-- The form of the content, where `chars` are its characters and `rest` is what follows. -/
def Shaped (chars rest : List Char) : Content → Prop
  | .token t => t.text = String.ofList chars ∧ t.kind.Shaped chars rest
  | .comment c => c.text = String.ofList chars ∧ c.kind.Shaped chars rest
  | .blank => chars = ['\n'] ∨ chars = ['\r', '\n'] ∨ ∀ c ∈ chars, isGap c = true
  | .directive => ['#'] <+: chars ∧ '\n' ∉ chars ∧ EndsLine rest
  | .openComment => ∃ inner, chars = '/' :: '*' :: inner ∧ ¬['*', '/'] <:+: inner ∧ rest = []
  | .stray c => chars = [c] ∧ Stray c rest

/-- The comments that wait for a token after the content. -/
def waiting (pending : List Comment) : Content → List Comment
  | .token _ => []
  | .comment c => pending ++ [c]
  | _ => pending

def ofPiece (p q : Position) (pending : List Comment) (piece : Piece) : Content :=
  match Scan.commentKind? piece.kind, Scan.tokenKind? piece.kind with
  | some kind, _ => .comment ⟨kind, String.ofList piece.chars, p.spanTo q⟩
  | none, some kind =>
    .token ⟨kind, String.ofList piece.chars, String.ofList (Scan.valueOf piece), p.spanTo q,
      p.offset, q.offset, pending⟩
  | none, none =>
    match piece.kind with
    | .openComment => .openComment
    | .directive => .directive
    | .stray => .stray (piece.chars.headD ' ')
    | _ => .blank

end Content

/-- A part of a text, from one offset up to another, and what it holds. -/
structure Tile where
  start : Nat
  stop : Nat
  content : Content

namespace Tile

def token? (x : Tile) : Option Token := x.content.token?

def comment? (x : Tile) : Option Comment := x.content.comment?

/-- The span of a tile, as the text tells it. -/
def span (cs : List Char) (x : Tile) : Span := Span.ofOffsets cs x.start x.stop

def issue? (cs : List Char) (x : Tile) : Option Issue := x.content.complaint?.map (Issue.mk · (x.span cs))

/-- A tile holds what the text has there, and its token knows where it is. -/
structure Fits (cs : List Char) (x : Tile) : Prop where
  shaped : x.content.Shaped ((cs.take x.stop).drop x.start) (cs.drop x.stop)
  located : ∀ t ∈ x.token?, t.start = x.start ∧ t.stop = x.stop

/-- The token or the comment of a tile has the span that the text tells. -/
structure Exact (cs : List Char) (x : Tile) : Prop where
  token : ∀ t ∈ x.token?, t.span = x.span cs
  comment : ∀ c ∈ x.comment?, c.span = x.span cs

end Tile

/-- Tiles that follow on each other from `a` to `b`, none of them empty. -/
def Tiles (a b : Nat) : List Tile → Prop
  | [] => a = b
  | x :: xs => x.start = a ∧ x.start < x.stop ∧ Tiles x.stop b xs

/-- How a scan lies on a text from the offset `o` on, with the comments `pending` still without a token. -/
structure Layout (cs : List Char) (o : Nat) (pending : List Comment) (scan : Scan) (xs : List Tile) : Prop where
  tiles : Tiles o cs.length xs
  fits : ∀ x ∈ xs, x.Fits cs
  tokens : scan.tokens = xs.filterMap Tile.token?
  comments : scan.comments = xs.filterMap Tile.comment?
  issues : scan.issues = xs.filterMap (Tile.issue? cs)
  leading : (scan.tokens ++ [scan.eof]).flatMap Token.leading = pending ++ scan.comments
  eof : scan.eof.kind = .eof ∧ scan.eof.text = "" ∧ scan.eof.start = cs.length ∧ scan.eof.stop = cs.length

/-- Every token and comment of a scan has the span that the text tells, and the end of the text too. -/
structure Located (cs : List Char) (scan : Scan) (xs : List Tile) : Prop where
  tiles : ∀ x ∈ xs, x.Exact cs
  eof : scan.eof.span = Span.ofOffsets cs cs.length cs.length

/-! ## One piece -/

/-- What it takes to read `c` and the characters after it as a piece of some kind and length: the piece has the
form of what it is read as, and it is complained about exactly if that form is damaged. -/
def Piece.ReadsAs (c : Char) (cs : List Char) (e : PieceKind × Nat) : Prop :=
  ∀ p q pending, (Content.ofPiece p q pending ⟨e.1, c :: cs.take e.2⟩).Shaped (c :: cs.take e.2) (cs.drop e.2) ∧
    (Content.ofPiece p q pending ⟨e.1, c :: cs.take e.2⟩).complaint? = Scan.complaint? ⟨e.1, c :: cs.take e.2⟩

namespace Piece

/-- A quoted name or a string is complained about if its closing quote is missing. -/
theorem readsAs_quote {cs : List Char} {kind : PieceKind} {quote : Char} {tokenKind : TokenKind} {lacks : Bool}
    (hkind : (kind, tokenKind, quote, lacks) ∈ [(PieceKind.quotedName, TokenKind.quoted, '"', false),
    (.openName, .quoted, '"', true),
      (.string, .string, '\'', false), (.openString, .string, '\'', true)])
    (h : tokenKind.Shaped (c :: cs.take n) (cs.drop n) ∧ lacksQuote quote (c :: cs.take n) = lacks) :
    ReadsAs c cs (kind, n) := by
  intro p q pending
  simp only [mem_cons, Prod.mk.injEq, not_mem_nil, or_false] at hkind
  rcases hkind with ⟨rfl, rfl, rfl, rfl⟩ | ⟨rfl, rfl, rfl, rfl⟩ | ⟨rfl, rfl, rfl, rfl⟩ | ⟨rfl, rfl, rfl, rfl⟩ <;>
    exact ⟨⟨rfl, h.1⟩, by simp [Content.ofPiece, Content.complaint?, Scan.commentKind?, Scan.tokenKind?,
      Scan.complaint?, h.2]⟩

/-- A piece that starts with none of the marks of lines, comments and quotes. -/
theorem readsAs_plainExtent {cs : List Char} (hfeed : c ≠ '\n') (hmark : c ∉ ['#', '"', '\'']) :
    ReadsAs c cs (plainExtent c cs) := by
  unfold plainExtent
  intro p q pending
  split_ifs with hgap hdigit hword hpair hsingle
  · refine ⟨.inr (.inr ?_), rfl⟩
    intro d hd
    rcases mem_cons.1 hd with rfl | hd
    · exact hgap
    · rw [take_run] at hd
      exact mem_takeWhile_imp hd
  · cases hn : numberLength cs with
    | some n => exact ⟨⟨rfl, shaped_number hdigit hn⟩, rfl⟩
    | none =>
      -- a digit from which no number can be read is a stray character
      refine ⟨⟨rfl, ⟨by simpa using hgap, hfeed⟩, hmark, by simp [isWordStart, hdigit], ?_, ?_⟩, rfl⟩
      · intro (hop : c ∈ singleOperators)
        exact absurd hdigit (by simp [isDecimal_operator hop])
      · exact fun _ => not_endsWord_of_numberLength_none hn
  · exact ⟨⟨rfl, shaped_word hword⟩, rfl⟩
  · exact ⟨⟨rfl, shaped_pair hpair _⟩, rfl⟩
  · exact ⟨⟨rfl, shaped_single (by simpa using hpair) (contains_iff_mem.1 hsingle)⟩, rfl⟩
  · refine ⟨⟨rfl, ⟨by simpa using hgap, hfeed⟩, hmark, by simpa using hword, ?_, fun h => absurd h hdigit⟩, rfl⟩
    exact fun h => hsingle (contains_iff_mem.2 h)

/-- **Every piece has the form of what it is read as.** -/
theorem readsAs_extent (c : Char) (cs : List Char) : ReadsAs c cs (extent c cs) := by
  rw [extent_eq]
  dsimp only
  split_ifs with hfeed hreturn hslash hdoc hstar hhash hname hclosed hquote
  · exact fun _ _ _ => ⟨.inl (by rw [hfeed]; rfl), rfl⟩
  · obtain ⟨rfl, hhead⟩ := hreturn
    obtain ⟨rest, rfl⟩ := head?_eq_some_iff.1 hhead
    exact fun _ _ _ => ⟨.inr (.inl rfl), rfl⟩
  · obtain ⟨rfl, hhead⟩ := hslash
    obtain ⟨rest, rfl⟩ := head?_eq_some_iff.1 hhead
    obtain ⟨more, rfl⟩ := head?_eq_some_iff.1 hdoc
    exact fun _ _ _ => ⟨⟨rfl, shaped_doc more⟩, rfl⟩
  · obtain ⟨rfl, hhead⟩ := hslash
    obtain ⟨rest, rfl⟩ := head?_eq_some_iff.1 hhead
    exact fun _ _ _ => ⟨⟨rfl, shaped_line hdoc⟩, rfl⟩
  · obtain ⟨rfl, hhead⟩ := hstar
    obtain ⟨rest, rfl⟩ := head?_eq_some_iff.1 hhead
    rw [tail_cons]
    cases hn : commentLength rest with
    | some n => exact fun _ _ _ => ⟨⟨rfl, shaped_block hn _⟩, rfl⟩
    | none =>
      refine fun _ _ _ => ⟨⟨rest, ?_, commentLength_none hn, ?_⟩, rfl⟩
      · rw [take_length]
      · rw [drop_length]
  · refine fun _ _ _ => ⟨⟨⟨_, by rw [hhash]; rfl⟩, ?_, endsLine_drop_lineLength cs⟩, rfl⟩
    rw [hhash, mem_cons]
    rintro (h | h)
    · exact absurd h (by decide)
    · exact feed_notMem_line cs h
  · obtain rfl := hname
    exact readsAs_quote (by decide) (shaped_quotedName rfl hclosed _)
  · obtain rfl := hname
    exact readsAs_quote (by decide) (shaped_openName rfl hclosed)
  · obtain rfl := hquote
    cases hn : stringLength cs with
    | some n => exact readsAs_quote (by decide) (shaped_string hn _)
    | none => exact readsAs_quote (by decide) (shaped_openString hn)
  · exact readsAs_plainExtent hfeed (by simp [hhash, hname, hquote])

end Piece

namespace Content

/-- A token or a comment that a piece is has the place of the piece. -/
theorem exact_ofPiece (cs : List Char) (a b : Nat) (pending : List Comment) (piece : Piece) :
    let x := Tile.mk a b (ofPiece (.ofOffset cs a) (.ofOffset cs b) pending piece)
    x.Exact cs ∧ ∀ t ∈ x.token?, t.start = a ∧ t.stop = b := by
  unfold ofPiece
  split
  · exact ⟨⟨nofun, by rintro c ⟨⟩; rfl⟩, nofun⟩
  · exact ⟨⟨by rintro t ⟨⟩; rfl, nofun⟩, by rintro t ⟨⟩; exact ⟨rfl, rfl⟩⟩
  · split <;> exact ⟨⟨nofun, nofun⟩, nofun⟩

/-- What leads the token of a piece, and what waits after the piece, are the comments that waited before and
that of the piece. -/
theorem waiting_ofPiece (p q : Position) (pending : List Comment) (piece : Piece) :
    (ofPiece p q pending piece).token?.toList.flatMap Token.leading ++ (ofPiece p q pending piece).waiting pending =
      pending ++ (ofPiece p q pending piece).comment?.toList := by
  unfold ofPiece
  split
  · simp [token?, comment?, waiting]
  · simp [token?, comment?, waiting]
  · split <;> simp [token?, comment?, waiting]

end Content

/-! ## All pieces -/

namespace Scan

theorem place_cons (p : Position) (pending : List Comment) (piece : Piece) (pieces : List Piece) :
    let q := p.after piece.chars
    let content := Content.ofPiece p q pending piece
    let rest := place q (content.waiting pending) pieces
    place p pending (piece :: pieces) = ⟨content.token?.toList ++ rest.tokens, rest.eof,
      content.comment?.toList ++ rest.comments,
      ((complaint? piece).map (Issue.mk · (p.spanTo q))).toList ++ rest.issues⟩ := by
  obtain ⟨kind, chars⟩ := piece
  cases kind <;> rfl

theorem toList_append_filterMap {α β : Type} (f : α → Option β) (x : α) (xs : List α) :
    (f x).toList ++ xs.filterMap f = (x :: xs).filterMap f := by
  cases h : f x with
  | none => rw [filterMap_cons_none h]; rfl
  | some y => rw [filterMap_cons_some h]; rfl

theorem layout_cons (before chars rest : List Char) (pending : List Comment) (kind : PieceKind)
    {pieces : List Piece} {xs : List Tile} (hchars : chars ≠ []) :
    let cs := before ++ chars ++ rest
    let p := Position.ofOffset cs before.length
    let q := Position.ofOffset cs (before.length + chars.length)
    let content := Content.ofPiece p q pending ⟨kind, chars⟩
    content.Shaped chars rest → content.complaint? = complaint? ⟨kind, chars⟩ →
    Layout cs (before.length + chars.length) (content.waiting pending) (place q (content.waiting pending) pieces) xs →
    Layout cs before.length pending (place p pending (⟨kind, chars⟩ :: pieces))
      (⟨before.length, before.length + chars.length, content⟩ :: xs) := by
  intro cs p q content hshaped hcomplaint hrest
  have hq : p.after chars = q := Position.after_ofOffset before chars rest
  have hplace := place_cons p pending ⟨kind, chars⟩ pieces
  dsimp only at hplace
  rw [hq] at hplace
  rw [hplace]
  have hlength : 0 < chars.length := length_pos_iff.2 hchars
  constructor
  · exact ⟨rfl, by dsimp only; omega, hrest.tiles⟩
  · intro x hx
    rcases mem_cons.1 hx with rfl | hx
    · refine ⟨?_, (Content.exact_ofPiece cs _ _ pending _).2⟩
      have htake : (cs.take (before.length + chars.length)).drop before.length = chars := by
        rw [take_left' (by simp), drop_left]
      have hdrop : cs.drop (before.length + chars.length) = rest := drop_left' (by simp)
      dsimp only
      rw [htake, hdrop]
      exact hshaped
    · exact hrest.fits x hx
  · dsimp only
    rw [hrest.tokens]
    exact toList_append_filterMap Tile.token? ⟨_, _, content⟩ xs
  · dsimp only
    rw [hrest.comments]
    exact toList_append_filterMap Tile.comment? ⟨_, _, content⟩ xs
  · dsimp only
    rw [hrest.issues, ← hcomplaint]
    exact toList_append_filterMap (Tile.issue? cs) ⟨_, _, content⟩ xs
  · dsimp only
    rw [append_assoc, flatMap_append, hrest.leading, ← append_assoc, Content.waiting_ofPiece, append_assoc]
  · exact hrest.eof

/-- **The pieces of what is left of a text are tiles of the whole text**, and each of them is where the text tells. -/
theorem exists_layout (before suffix : List Char) (pending : List Comment) :
    ∃ xs, Layout (before ++ suffix) before.length pending
        (place (.ofOffset (before ++ suffix) before.length) pending (cut suffix)) xs ∧
      Located (before ++ suffix) (place (.ofOffset (before ++ suffix) before.length) pending (cut suffix)) xs := by
  fun_induction cut suffix generalizing before pending with
  | case1 =>
    have hnone : ∀ {p : Tile → Prop}, ∀ x ∈ ([] : List Tile), p x := fun x hx => absurd hx not_mem_nil
    refine ⟨[], ⟨?_, hnone, rfl, rfl, rfl, ?_, ?_⟩, hnone, ?_⟩
    all_goals simp [place, Tiles, Position.ofOffset, Span.ofOffsets]
  | case2 c cs ih =>
    -- the piece moves from what is left to what is before, and the text stays the same
    set chars := c :: cs.take (extent c cs).2 with hchars
    set rest := cs.drop (extent c cs).2 with hrest
    have hsuffix : before ++ c :: cs = before ++ chars ++ rest := by
      rw [hchars, hrest, append_assoc, cons_append, take_append_drop]
    rw [hsuffix]
    have hshape := readsAs_extent c cs (.ofOffset (before ++ chars ++ rest) before.length)
      (.ofOffset (before ++ chars ++ rest) (before.length + chars.length)) pending
    obtain ⟨xs, hlayout, hlocated⟩ := ih (before ++ chars)
      ((Content.ofPiece (.ofOffset (before ++ chars ++ rest) before.length)
      (.ofOffset (before ++ chars ++ rest) (before.length + chars.length)) pending
        ⟨(extent c cs).1, chars⟩).waiting pending)
    rw [length_append] at hlayout hlocated
    refine ⟨_, layout_cons before chars rest pending _ (cons_ne_nil _ _) hshape.1 hshape.2 hlayout, ?_, ?_⟩
    · intro x hx
      rcases mem_cons.1 hx with rfl | hx
      · exact (Content.exact_ofPiece _ _ _ pending _).1
      · exact hlocated.tiles x hx
    · rw [place_cons]
      dsimp only
      rw [Position.after_ofOffset]
      exact hlocated.eof

theorem layout_ofText (text : String) :
    ∃ xs, Layout text.toList 0 [] (ofText text) xs ∧ Located text.toList (ofText text) xs := by
  rw [ofText_eq_place]
  exact exists_layout [] text.toList []

end Scan

/-! ## Order -/

theorem Tiles.bounds {xs : List Tile} (h : Tiles a b xs) :
    a ≤ b ∧ ∀ x ∈ xs, a ≤ x.start ∧ x.start < x.stop ∧ x.stop ≤ b := by
  induction xs generalizing a with
  | nil => exact ⟨Nat.le_of_eq h, nofun⟩
  | cons x xs ih =>
    obtain ⟨hstart, hlt, hrest⟩ := h
    obtain ⟨hle, hall⟩ := ih hrest
    refine ⟨by omega, ?_⟩
    intro y hy
    rcases mem_cons.1 hy with rfl | hy
    · omega
    · have := hall y hy
      omega

theorem Tiles.pairwise {xs : List Tile} (h : Tiles a b xs) : xs.Pairwise (fun x y => x.stop ≤ y.start) := by
  induction xs generalizing a with
  | nil => exact .nil
  | cons x xs ih =>
    obtain ⟨-, -, hrest⟩ := h
    exact .cons (fun y hy => (hrest.bounds.2 y hy).1) (ih hrest)

namespace Layout

variable {cs : List Char} {o : Nat} {pending : List Comment} {scan : Scan} {xs : List Tile}

theorem exists_tile (h : Layout cs o pending scan xs) (ht : t ∈ scan.tokens) :
    ∃ x ∈ xs, x.token? = some t ∧ t.start = x.start ∧ t.stop = x.stop := by
  rw [h.tokens] at ht
  obtain ⟨x, hx, htoken⟩ := mem_filterMap.1 ht
  exact ⟨x, hx, htoken, (h.fits x hx).located t htoken⟩

/-- A token has the text that stands between its offsets, and its form. -/
theorem shaped (h : Layout cs o pending scan xs) (ht : t ∈ scan.tokens) :
    t.text = String.ofList ((cs.take t.stop).drop t.start) ∧ t.kind.Shaped ((cs.take t.stop).drop t.start)
      (cs.drop t.stop) := by
  obtain ⟨x, hx, htoken, hstart, hstop⟩ := h.exists_tile ht
  have hshaped := (h.fits x hx).shaped
  obtain ⟨a, b, content⟩ := x
  cases content with
  | token u =>
    cases htoken
    rw [hstart, hstop]
    exact hshaped
  | _ => cases htoken

theorem text_eq (h : Layout cs o pending scan xs) (ht : t ∈ scan.tokens) :
    t.text = String.ofList ((cs.take t.stop).drop t.start) ∧ t.kind ≠ .eof := by
  obtain ⟨htext, hshaped⟩ := h.shaped ht
  refine ⟨htext, fun heof => ?_⟩
  rw [heof] at hshaped
  exact hshaped

theorem start_lt_stop (h : Layout cs o pending scan xs) (ht : t ∈ scan.tokens) :
    t.start < t.stop ∧ t.stop ≤ cs.length := by
  obtain ⟨x, hx, -, hstart, hstop⟩ := h.exists_tile ht
  have := h.tiles.bounds.2 x hx
  omega

theorem pairwise_tokens (h : Layout cs o pending scan xs) :
    (scan.tokens ++ [scan.eof]).Pairwise (fun t u => t.stop ≤ u.start) := by
  rw [pairwise_append]
  refine ⟨?_, pairwise_singleton _ _, ?_⟩
  · rw [h.tokens, pairwise_filterMap]
    refine h.tiles.pairwise.imp_of_mem ?_
    intro x y hx hy hxy t ht u hu
    have hstop := ((h.fits x hx).located t ht).2
    have hstart := ((h.fits y hy).located u hu).1
    omega
  · intro t ht u hu
    rw [mem_singleton] at hu
    rw [hu, h.eof.2.2.1]
    exact (h.start_lt_stop ht).2

theorem rising (h : Layout cs o pending scan xs) :
    (scan.tokens ++ [scan.eof]).Pairwise (fun t u => t.start < u.start) := by
  have hpairs := pairwise_append.1 h.pairwise_tokens
  refine pairwise_append.2 ⟨hpairs.1.imp_of_mem ?_, pairwise_singleton _ _, ?_⟩
  · intro t u ht _ htu
    exact Nat.lt_of_lt_of_le (h.start_lt_stop ht).1 htu
  · intro t ht u hu
    exact Nat.lt_of_lt_of_le (h.start_lt_stop ht).1 (hpairs.2.2 t ht u hu)

theorem span_eq (h : Layout cs o pending scan xs) (hspans : Located cs scan xs) :
    ∀ t ∈ scan.tokens ++ [scan.eof], t.span = Span.ofOffsets cs t.start t.stop := by
  intro t ht
  rcases mem_append.1 ht with ht | ht
  · obtain ⟨x, hx, htoken, hstart, hstop⟩ := h.exists_tile ht
    rw [(hspans.tiles x hx).token t htoken, hstart, hstop]
    rfl
  · rw [mem_singleton.1 ht, hspans.eof, h.eof.2.2.1, h.eof.2.2.2]

end Layout

namespace Scan

/-- **Scanning loses nothing.** The tiles of a text are its tokens, its comments, and what is neither; the
tokens come in the order of the text with the text that stands there, and one more token marks its end. -/
theorem loses_nothing (text : String) :
    ∃ xs, Layout text.toList 0 [] (ofText text) xs ∧
      ((ofText text).tokens ++ [(ofText text).eof]).Pairwise (fun t u => t.start < u.start) ∧
      ∀ t ∈ (ofText text).tokens, t.text = String.ofList ((text.toList.take t.stop).drop t.start) ∧
        t.kind ≠ .eof := by
  obtain ⟨xs, hlayout, -⟩ := layout_ofText text
  exact ⟨xs, hlayout, hlayout.rising, fun t ht => hlayout.text_eq ht⟩

/-- **Positions are exact.** Every token, comment and issue has the line and column of its offsets, as the text
tells them, and a later offset has a later place. -/
theorem positions_exact (text : String) :
    (∃ xs, Layout text.toList 0 [] (ofText text) xs ∧ Located text.toList (ofText text) xs) ∧
      (∀ t ∈ (ofText text).tokens ++ [(ofText text).eof], t.span = Span.ofOffsets text.toList t.start t.stop) ∧
      StrictMonoOn (fun o => (Position.ofOffset text.toList o).place) {o | o ≤ text.toList.length} := by
  obtain ⟨xs, hlayout, hlocated⟩ := layout_ofText text
  exact ⟨⟨xs, hlayout, hlocated⟩, hlayout.span_eq hlocated, Position.strictMonoOn_place text.toList⟩

end Scan

end AlLint
