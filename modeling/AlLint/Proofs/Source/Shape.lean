import Mathlib.Data.List.TakeWhile
import Mathlib.Tactic.Common
import AlLint.Proofs.Source.Extent
import AlLint.Source.Token

/-!
# What the pieces of a text look like

The forms of tokens, comments and all else that a text is made of, told by their characters and by what follows
them, without regard to how the scanner finds them: a word is made of word characters and no word character
follows it, a block comment goes to the first `*/`, a string holds quotes only in pairs, and so on.

Each rule by which the scanner measures a piece yields the form that the rule stands for.
-/

namespace AlLint

open Text Piece List

variable {p : Char → Bool} {cs : List Char} {c : Char} {n : Nat}

def EndsLine (rest : List Char) : Prop := ∀ c ∈ rest.head?, c = '\n'

def EndsWord (rest : List Char) : Prop := ∀ c ∈ rest.head?, isWordChar c = false

/-- The inside of a string: it stays on its line, and quotes come in pairs. -/
def Paired : List Char → Prop
  | [] => True
  | '\'' :: '\'' :: rest => Paired rest
  | c :: rest => c ≠ '\'' ∧ c ≠ '\n' ∧ Paired rest

/-- A point and the digits after it, or nothing. -/
def IsFraction (cs : List Char) : Prop :=
  cs = [] ∨ ∃ digits, cs = '.' :: digits ∧ digits ≠ [] ∧ ∀ d ∈ digits, isDecimal d = true

/-- The forms of comments, where `rest` is what follows the comment. A block comment goes to the first `*/`
after its start. -/
def CommentKind.Shaped (chars rest : List Char) : CommentKind → Prop
  | .doc => ['/', '/', '/'] <+: chars ∧ '\n' ∉ chars ∧ EndsLine rest
  | .line => ['/', '/'] <+: chars ∧ ¬['/', '/', '/'] <+: chars ∧ '\n' ∉ chars ∧ EndsLine rest
  | .block => ∃ inner, chars = '/' :: '*' :: (inner ++ ['*', '/']) ∧ ¬['*', '/'] <:+: inner ++ ['*']

/-- The forms of tokens, where `rest` is what follows the token. A quoted name or a string that is not closed
goes to the end of its line and holds no quote. -/
def TokenKind.Shaped (chars rest : List Char) : TokenKind → Prop
  | .ident => ∃ c more, chars = c :: more ∧ isWordStart c = true ∧ (∀ d ∈ more, isWordChar d = true) ∧ EndsWord rest
  | .number => ∃ whole fraction mark, chars = whole ++ fraction ++ mark ∧ whole ≠ [] ∧
      (∀ d ∈ whole, isDecimal d = true) ∧
      IsFraction fraction ∧ isNumberMark mark = true ∧ EndsWord rest
  | .quoted => ∃ inner, '"' ∉ inner ∧ '\n' ∉ inner ∧
      (chars = '"' :: (inner ++ ['"']) ∨ chars = '"' :: inner ∧ EndsLine rest)
  | .string => ∃ inner, Paired inner ∧ chars = '\'' :: (inner ++ ['\'']) ∨
      '\'' ∉ inner ∧ '\n' ∉ inner ∧ chars = '\'' :: inner ∧ EndsLine rest
  | .op => (∃ c d, chars = [c, d] ∧ (c, d) ∈ pairOperators) ∨
      ∃ c, chars = [c] ∧ c ∈ singleOperators ∧ isPair c rest = false
  | .eof => False

/-- A character that starts nothing. A digit does so if the number that it starts would run on as a word. -/
structure Stray (c : Char) (rest : List Char) : Prop where
  notBlank : isGap c = false ∧ c ≠ '\n'
  notMark : c ∉ ['#', '"', '\'']
  notWord : isWordStart c = false
  notOperator : c ∉ singleOperators
  notNumber : isDecimal c = true → ¬EndsWord (rest.dropWhile isDecimal)

/-- Whether the quote that should close a text is missing. -/
def lacksQuote (quote : Char) (chars : List Char) : Bool := chars.length < 2 || chars.getLast? != some quote

theorem lacksQuote_closed (quote : Char) (inner : List Char) :
    lacksQuote quote (quote :: (inner ++ [quote])) = false := by
  rw [lacksQuote, ← cons_append, getLast?_concat]
  simp

theorem lacksQuote_open {quote : Char} {inner : List Char} (h : quote ∉ inner) :
    lacksQuote quote (quote :: inner) = true := by
  cases inner with
  | nil => rfl
  | cons c inner =>
    have hlast : (c :: inner).getLast? ≠ some quote := fun hlast => h (mem_of_getLast? hlast)
    simp [lacksQuote, getLast?_cons_cons, hlast]

namespace Piece

/-! ## Runs of characters -/

theorem take_run (p : Char → Bool) (cs : List Char) : cs.take (run p cs) = cs.takeWhile p :=
  (prefix_iff_eq_take.1 ( takeWhile_prefix p)).symm

theorem drop_run (p : Char → Bool) (cs : List Char) : cs.drop (run p cs) = cs.dropWhile p := by
  have hcut := take_append_drop (run p cs) cs
  rw [take_run] at hcut
  exact append_cancel_left (hcut.trans takeWhile_append_dropWhile.symm)

theorem eq_false_of_head?_dropWhile (h : c ∈ (cs.dropWhile p).head?) :
    p c = false := by
  have hstop := head?_dropWhile_not p cs
  rw [Option.mem_def.1 h] at hstop
  exact hstop

theorem endsWord_dropWhile (cs : List Char) : EndsWord (cs.dropWhile isWordChar) :=
  fun _ hc => eq_false_of_head?_dropWhile hc

theorem feed_notMem_line (cs : List Char) : '\n' ∉ cs.take (lineLength cs) := by
  intro h
  rw [lineLength, take_run] at h
  exact absurd (mem_takeWhile_imp h) (by decide)

theorem endsLine_drop_lineLength (cs : List Char) : EndsLine (cs.drop (lineLength cs)) := by
  intro c hc
  rw [lineLength, drop_run] at hc
  simpa using eq_false_of_head?_dropWhile hc

/-! ## Comments -/

/-- What stands before the first `*/` holds none, not even together with the star of that one. -/
theorem commentLength_some (h : commentLength cs = some n) :
    ∃ inner rest, cs = inner ++ '*' :: '/' :: rest ∧ n = inner.length + 2 ∧ ¬['*', '/'] <:+: inner ++ ['*'] := by
  induction cs generalizing n with
  | nil => cases h
  | cons c cs ih =>
    rw [commentLength_cons] at h
    split_ifs at h with hclose
    · obtain ⟨rfl, hhead⟩ := hclose
      obtain ⟨rest, rfl⟩ := head?_eq_some_iff.1 hhead
      cases h
      exact ⟨[], rest, rfl, rfl, by decide⟩
    · obtain ⟨m, hm, rfl⟩ := Option.map_eq_some_iff.1 h
      obtain ⟨inner, rest, rfl, rfl, hinner⟩ := ih hm
      refine ⟨c :: inner, rest, rfl, rfl, ?_⟩
      rw [cons_append, infix_cons_iff]
      rintro (hfirst | hlater)
      · -- a `*/` at the front would have ended the comment here
        obtain ⟨rfl, hrest⟩ := cons_prefix_cons.1 hfirst
        cases inner with
        | nil => exact absurd (cons_prefix_cons.1 hrest).1 (by decide)
        | cons d inner =>
          obtain ⟨rfl, -⟩ := cons_prefix_cons.1 hrest
          exact hclose ⟨rfl, rfl⟩
      · exact hinner hlater

theorem commentLength_none (h : commentLength cs = none) : ¬['*', '/'] <:+: cs := by
  induction cs with
  | nil => decide
  | cons c cs ih =>
    rw [commentLength_cons] at h
    split_ifs at h with hclose
    rw [infix_cons_iff]
    rintro (hfirst | hlater)
    · obtain ⟨rfl, hrest⟩ := cons_prefix_cons.1 hfirst
      obtain ⟨rest, rfl⟩ := hrest
      exact hclose ⟨rfl, rfl⟩
    · exact ih (Option.map_eq_none_iff.1 h) hlater

theorem shaped_doc (cs : List Char) :
    CommentKind.doc.Shaped ('/' :: ('/' :: '/' :: cs).take (lineLength cs + 2))
      (('/' :: '/' :: cs).drop (lineLength cs + 2)) := by
  refine ⟨⟨cs.take (lineLength cs), rfl⟩, ?_, endsLine_drop_lineLength cs⟩
  simpa using feed_notMem_line cs

theorem shaped_line (h : cs.head? ≠ some '/') :
    CommentKind.line.Shaped ('/' :: ('/' :: cs).take (lineLength cs + 1)) (('/' :: cs).drop (lineLength cs + 1)) := by
  refine ⟨⟨cs.take (lineLength cs), rfl⟩, ?_, ?_, endsLine_drop_lineLength cs⟩
  · rintro hdoc
    simp only [take_succ_cons, cons_prefix_cons, true_and] at hdoc
    obtain ⟨more, hmore⟩ := hdoc
    have hcs : cs = '/' :: (more ++ cs.drop (lineLength cs)) := by
      conv_lhs => rw [← take_append_drop (lineLength cs) cs, ← hmore]
      rfl
    exact h (by rw [hcs]; rfl)
  · simpa using feed_notMem_line cs

theorem shaped_block (h : commentLength cs = some n) (rest : List Char) :
    CommentKind.block.Shaped ('/' :: ('*' :: cs).take (n + 1)) rest := by
  obtain ⟨inner, after, rfl, rfl, hinner⟩ := commentLength_some h
  refine ⟨inner, ?_, hinner⟩
  have hsplit : inner ++ '*' :: '/' :: after = (inner ++ ['*', '/']) ++ after := by simp
  rw [take_succ_cons, hsplit, take_left' (by simp)]

/-! ## Names and strings -/

theorem shaped_word (h : isWordStart c = true) :
    TokenKind.ident.Shaped (c :: cs.take (run isWordChar cs)) (cs.drop (run isWordChar cs)) := by
  rw [take_run, drop_run]
  exact ⟨c, _, rfl, h, fun _ hd => mem_takeWhile_imp hd, endsWord_dropWhile cs⟩

theorem shaped_quotedName (hp : p = fun d => d != '"' && d != '\n')
    (h : (cs.drop (run p cs)).head? = some '"') (rest : List Char) :
    TokenKind.quoted.Shaped ('"' :: cs.take (run p cs + 1)) rest ∧
      lacksQuote '"' ('"' :: cs.take (run p cs + 1)) = false := by
  obtain ⟨more, hmore⟩ := head?_eq_some_iff.1 h
  have hchars : cs.take (run p cs + 1) = cs.takeWhile p ++ ['"'] := by
    rw [take_add, take_run, hmore]
    rfl
  rw [hchars]
  refine ⟨⟨cs.takeWhile p, ?_, ?_, .inl rfl⟩, lacksQuote_closed _ _⟩
  all_goals
    intro hmem
    have := mem_takeWhile_imp hmem
    simp [hp] at this

theorem shaped_openName (hp : p = fun d => d != '"' && d != '\n')
    (h : (cs.drop (run p cs)).head? ≠ some '"') :
    TokenKind.quoted.Shaped ('"' :: cs.take (run p cs)) (cs.drop (run p cs)) ∧
      lacksQuote '"' ('"' :: cs.take (run p cs)) = true := by
  rw [drop_run] at h ⊢
  rw [take_run]
  have hquote : '"' ∉ cs.takeWhile p := by
    intro hmem
    have := mem_takeWhile_imp hmem
    simp [hp] at this
  have hfeed : '\n' ∉ cs.takeWhile p := by
    intro hmem
    have := mem_takeWhile_imp hmem
    simp [hp] at this
  refine ⟨⟨cs.takeWhile p, hquote, hfeed, .inr ⟨rfl, ?_⟩⟩, lacksQuote_open hquote⟩
  -- the name stops at a quote or at the end of the line, and it is no quote
  intro c hc
  have hstop := eq_false_of_head?_dropWhile hc
  rw [hp, Bool.and_eq_false_iff] at hstop
  rcases hstop with hstop | hstop
  · exact absurd (bne_eq_false_iff_eq.1 hstop ▸ hc) h
  · exact bne_eq_false_iff_eq.1 hstop

theorem paired_cons (hquote : c ≠ '\'') (hfeed : c ≠ '\n') (h : Paired cs) : Paired (c :: cs) := by
  unfold Paired
  split
  · trivial
  · next heq => exact absurd (List.cons.inj heq).1 hquote
  · next heq =>
    obtain ⟨rfl, rfl⟩ := List.cons.inj heq
    exact ⟨hquote, hfeed, h⟩

/-- A string is closed by a quote with only pairs of quotes before it. -/
theorem stringLength_some (h : stringLength cs = some n) :
    ∃ inner rest, cs = inner ++ '\'' :: rest ∧ n = inner.length + 1 ∧ Paired inner := by
  fun_induction stringLength cs generalizing n with
  | case1 => cases h
  | case2 rest m hm ih =>
    obtain ⟨inner, after, rfl, rfl, hinner⟩ := ih hm
    cases h
    exact ⟨'\'' :: '\'' :: inner, after, rfl, rfl, hinner⟩
  | case3 rest hnone ih =>
    cases h
    exact ⟨[], '\'' :: rest, rfl, rfl, trivial⟩
  | case4 rest =>
    cases h
    exact ⟨[], rest, rfl, rfl, trivial⟩
  | case5 => cases h
  | case6 c rest _ hquote hfeed ih =>
    obtain ⟨m, hm, rfl⟩ := Option.map_eq_some_iff.1 h
    obtain ⟨inner, after, rfl, rfl, hinner⟩ := ih hm
    exact ⟨c :: inner, after, rfl, rfl, paired_cons hquote hfeed hinner⟩

theorem stringLength_none (h : stringLength cs = none) : '\'' ∉ cs.take (lineLength cs) := by
  rw [lineLength, take_run]
  induction cs with
  | nil => exact not_mem_nil
  | cons c cs ih =>
    rw [stringLength_cons] at h
    split_ifs at h with hquote hpair hfeed
    · rw [hfeed, takeWhile_cons_of_neg (by decide)]
      exact not_mem_nil
    · rw [takeWhile_cons_of_pos (by simpa using hfeed), mem_cons]
      rintro (rfl | hmem)
      · exact hquote rfl
      · exact ih (Option.map_eq_none_iff.1 h) hmem

theorem shaped_string (h : stringLength cs = some n) (rest : List Char) :
    TokenKind.string.Shaped ('\'' :: cs.take n) rest ∧ lacksQuote '\'' ('\'' :: cs.take n) = false := by
  obtain ⟨inner, after, rfl, rfl, hinner⟩ := stringLength_some h
  have hchars : (inner ++ '\'' :: after).take (inner.length + 1) = inner ++ ['\''] := by
    rw [append_cons, take_left' (by simp)]
  rw [hchars]
  exact ⟨⟨inner, .inl ⟨hinner, rfl⟩⟩, lacksQuote_closed _ _⟩

theorem shaped_openString (h : stringLength cs = none) :
    TokenKind.string.Shaped ('\'' :: cs.take (lineLength cs)) (cs.drop (lineLength cs)) ∧
      lacksQuote '\'' ('\'' :: cs.take (lineLength cs)) = true := by
  have hquote := stringLength_none h
  exact ⟨⟨_, .inr ⟨hquote, feed_notMem_line cs, rfl, endsLine_drop_lineLength cs⟩⟩, lacksQuote_open hquote⟩

/-! ## Numbers -/

theorem mem_of_isNumberMark {mark : List Char} (h : isNumberMark mark = true) :
    ∀ d ∈ mark, d ∈ ['d', 'D', 't', 'T', 'l', 'L'] := by
  rcases mark with _ | ⟨c, _ | ⟨d, _ | _⟩⟩
  · simp
  · simpa [isNumberMark] using h
  · simp [isNumberMark] at h
    rcases h with ⟨rfl | rfl, rfl | rfl⟩ <;> simp
  · cases h

theorem isFraction_take (cs : List Char) : IsFraction (cs.take (fractionLength cs)) := by
  cases cs with
  | nil => exact .inl rfl
  | cons c cs =>
    rw [fractionLength_cons]
    split_ifs with h
    · obtain ⟨rfl, hdigit⟩ := h
      cases cs with
      | nil => cases hdigit
      | cons d cs =>
        refine .inr ⟨d :: cs.takeWhile isDecimal, ?_, cons_ne_nil _ _, ?_⟩
        · rw [tail_cons, take_succ_cons, take_succ_cons, take_run]
        · intro e he
          rcases mem_cons.1 he with rfl | he
          · exact hdigit
          · exact mem_takeWhile_imp he
    · exact .inl rfl

theorem endsWord_of_fractionLength_pos (h : 0 < fractionLength cs) : EndsWord cs := by
  cases cs with
  | nil => exact absurd h (by decide)
  | cons c cs =>
    rw [fractionLength_cons] at h
    split_ifs at h with hpoint
    · rintro d hd
      cases hd
      rw [hpoint.1]
      decide
    · exact absurd h (Nat.lt_irrefl 0)

theorem shaped_number (hc : isDecimal c = true) (h : numberLength cs = some n) :
    TokenKind.number.Shaped (c :: cs.take n) (cs.drop n) := by
  have hwhole : ∀ d ∈ c :: cs.takeWhile isDecimal, isDecimal d = true := by
    intro d hd
    rcases mem_cons.1 hd with rfl | hd
    · exact hc
    · exact mem_takeWhile_imp hd
  unfold numberLength at h
  simp only [drop_run] at h
  split_ifs at h with hmark hfraction
  · cases h
    refine ⟨_, _, _, ?_, cons_ne_nil _ _, hwhole, isFraction_take (cs.dropWhile isDecimal), hmark, ?_⟩
    · rw [take_add, take_add, ← drop_drop, take_run, drop_run]
      rw [cons_append, cons_append]
      congr 2
      exact take_run isWordChar _
    · rw [← drop_drop, ← drop_drop, drop_run]
      exact drop_run isWordChar _ ▸ endsWord_dropWhile _
  · cases h
    rw [take_run, drop_run]
    exact ⟨_, [], [], by simp, cons_ne_nil _ _, hwhole, .inl rfl, rfl, endsWord_of_fractionLength_pos hfraction⟩

theorem not_endsWord_of_numberLength_none (h : numberLength cs = none) :
    ¬EndsWord (cs.dropWhile isDecimal) := by
  unfold numberLength at h
  simp only [drop_run] at h
  split_ifs at h with hmark hfraction
  intro hend
  have hzero : fractionLength (cs.dropWhile isDecimal) = 0 := by omega
  rw [hzero, drop_zero] at hmark
  apply hmark
  cases hrest : cs.dropWhile isDecimal with
  | nil => rfl
  | cons c rest =>
    rw [hrest] at hend
    rw [takeWhile_cons_of_neg (by simp [hend c rfl])]
    rfl

/-! ## Operators and what is left over -/

theorem shaped_pair (h : isPair c cs = true) (rest : List Char) :
    TokenKind.op.Shaped (c :: cs.take 1) rest := by
  cases cs with
  | nil => cases h
  | cons d cs => exact .inl ⟨c, d, rfl, contains_iff_mem.1 h⟩

theorem shaped_single (hpair : isPair c cs = false) (h : c ∈ singleOperators) :
    TokenKind.op.Shaped (c :: cs.take 0) (cs.drop 0) :=
  .inr ⟨c, rfl, h, hpair⟩

theorem isDecimal_operator (h : c ∈ singleOperators) : isDecimal c = false := by
  have hall : singleOperators.all (fun c => !isDecimal c) = true := by decide
  simpa using all_eq_true.1 hall c h

end Piece

end AlLint
