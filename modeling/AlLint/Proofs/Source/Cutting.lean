import AlLint.Proofs.Reading.Writing
import AlLint.Proofs.Source.LineCount

/-!
# Scanning what was written

The other direction of scanning: characters in the form of a token are cut off as that token, where what follows
does not run on with them. `Scans cs xs` says that a whole text is scanned as some lexemes, without an issue,
and `Writes cs xs` that some characters are scanned so in front of any text that does not run on with them. Such
characters are put together by the rules at the end, one for each way in which an expression is written.
-/

namespace AlLint

open Text Piece List

variable {p : Char → Bool} {w : String}

/-- Characters of a list are gone through one by one. -/
theorem forall_of_all {q : Char → Prop} [DecidablePred q] {cs : List Char}
    (h : (cs.all fun c => decide (q c)) = true) :
    ∀ c ∈ cs, q c :=
  fun c hc => of_decide_eq_true (all_eq_true.1 h c hc)

/-- A blank, and the signs that may stand right behind a name, a number or a string. -/
def stopSigns : List Char := ['.', ' ', '(', ')', '[', ']', ',', ':']

/-- What follows runs on with no name, number or string. -/
structure Stops (rest : List Char) : Prop where
  head : ∀ c ∈ rest.head?, c ∈ stopSigns
  fraction : fractionLength rest = 0

namespace Stops

variable {rest : List Char}

theorem head_eq_false (h : Stops rest) (hp : ∀ c ∈ stopSigns, p c = false) : ∀ c ∈ rest.head?, p c = false :=
  fun c hc => hp c (h.head c hc)

theorem endsWord (h : Stops rest) : EndsWord rest := h.head_eq_false (forall_of_all rfl)

theorem nil : Stops [] := ⟨by simp, rfl⟩

theorem cons {c : Char} (h : c ∈ stopSigns.tail) : Stops (c :: rest) := by
  have hdot : ∀ d ∈ stopSigns.tail, d ≠ '.' := forall_of_all rfl
  refine ⟨fun d hd => ?_, by rw [fractionLength_cons, if_neg fun heq => hdot c h heq.1]⟩
  obtain rfl := Option.some.inj hd
  exact mem_of_mem_tail h

end Stops

namespace Piece

variable {c : Char} {chars rest : List Char}

theorem run_append (h : ∀ d ∈ chars, p d = true) (hrest : ∀ d ∈ rest.head?, p d = false) :
    run p (chars ++ rest) = chars.length := by
  have hstop : rest.takeWhile p = [] := by
    cases rest with
    | nil => rfl
    | cons d rest => simp [hrest d rfl]
  rw [run, takeWhile_append_of_pos h, hstop, append_nil]

theorem cut_append {kind : PieceKind} (h : extent c (chars ++ rest) = (kind, chars.length)) :
    cut (c :: chars ++ rest) = ⟨kind, c :: chars⟩ :: cut rest := by
  rw [cons_append, cut, h]
  simp

/-- A character of some kind starts no comment, line end or quoted text if none of the characters that do so is
of that kind. -/
theorem extent_of_plain (h : p c = true)
    (hp : ∀ d ∈ ['\n', '\r', '/', '#', '"', '\'', ' ', '\t', '\x0c', '\x0b'], p d = false) (cs : List Char) :
    extent c cs = plainExtent c cs ∧ isGap c = false := by
  have hne : ∀ d ∈ ['\n', '\r', '/', '#', '"', '\'', ' ', '\t', '\x0c', '\x0b'], c ≠ d := by
    rintro d hd rfl
    exact absurd (hp _ hd) (by simp [h])
  simp [extent_eq, isGap, hne]

theorem cut_word (h : TokenKind.ident.Shaped chars rest) : cut (chars ++ rest) = ⟨.word, chars⟩ :: cut rest := by
  obtain ⟨c, more, rfl, hc, hmore, hrest⟩ := h
  refine cut_append ?_
  obtain ⟨hplain, hgap⟩ := extent_of_plain hc (forall_of_all rfl) (more ++ rest)
  have hdigit : isDecimal c = false := by
    simp [isWordStart] at hc
    exact hc.2
  simp [hplain, plainExtent, hgap, hdigit, hc, run_append hmore hrest]

theorem numberLength_append {whole fraction mark : List Char} (hwhole : ∀ d ∈ whole, isDecimal d = true)
    (hfraction : IsFraction fraction) (hmark : isNumberMark mark = true) (hrest : Stops rest) :
    numberLength (whole ++ fraction ++ mark ++ rest) = some (whole ++ fraction ++ mark).length := by
  -- neither a mark nor what follows it goes on with digits or with a fraction
  have hmarks : ∀ d ∈ ['d', 'D', 't', 'T', 'l', 'L'], isWordChar d = true ∧ isDecimal d = false ∧ d ≠ '.' :=
    forall_of_all rfl
  have hmarks : ∀ d ∈ mark, _ := fun d hd => hmarks d (mem_of_isNumberMark hmark d hd)
  obtain ⟨hdigit, hzero⟩ : (∀ d ∈ (mark ++ rest).head?, isDecimal d = false) ∧ fractionLength (mark ++ rest) = 0 := by
    cases mark with
    | nil => exact ⟨hrest.head_eq_false (forall_of_all rfl), hrest.fraction⟩
    | cons d mark =>
      obtain ⟨-, hdigit, hdot⟩ := hmarks d mem_cons_self
      exact ⟨by simpa using hdigit, by rw [cons_append, fractionLength_cons, if_neg fun h => hdot h.1]⟩
  have hdigit' : ∀ d ∈ (fraction ++ (mark ++ rest)).head?, isDecimal d = false := by
    rcases hfraction with rfl | ⟨digits, rfl, -⟩
    · exact hdigit
    · simp; decide
  have hlength : fractionLength (fraction ++ (mark ++ rest)) = fraction.length := by
    rcases hfraction with rfl | ⟨digits, rfl, hne, hdigits⟩
    · exact hzero
    · cases digits with
      | nil => exact absurd rfl hne
      | cons d digits =>
        obtain ⟨hd, hdigits⟩ := forall_mem_cons.1 hdigits
        simp [fractionLength, hd, run_append hdigits hdigit]
  have htake : (mark ++ rest).takeWhile isWordChar = mark := by
    rw [← take_run, run_append (fun d hd => (hmarks d hd).1) hrest.endsWord, take_left]
  rw [append_assoc, append_assoc, numberLength, run_append hwhole hdigit']
  simp [hlength, htake, hmark]
  omega

theorem cut_number (h : TokenKind.number.Shaped chars []) (hrest : Stops rest) :
    cut (chars ++ rest) = ⟨.number, chars⟩ :: cut rest := by
  obtain ⟨whole, fraction, mark, rfl, hne, hwhole, hfraction, hmark, -⟩ := h
  cases whole with
  | nil => exact absurd rfl hne
  | cons c whole =>
    obtain ⟨hc, hwhole⟩ := forall_mem_cons.1 hwhole
    show cut (c :: (whole ++ fraction ++ mark) ++ rest) = ⟨.number, c :: (whole ++ fraction ++ mark)⟩ :: cut rest
    refine cut_append ?_
    obtain ⟨hplain, hgap⟩ := extent_of_plain hc (forall_of_all rfl) (whole ++ fraction ++ mark ++ rest)
    rw [hplain, plainExtent, hgap, hc, numberLength_append hwhole hfraction hmark hrest]
    rfl

theorem cut_quotedName {inner : List Char} (hquote : '"' ∉ inner) (hfeed : '\n' ∉ inner) :
    cut ('"' :: (inner ++ ['"']) ++ rest) = ⟨.quotedName, '"' :: (inner ++ ['"'])⟩ :: cut rest := by
  refine cut_append ?_
  have hinner : ∀ d ∈ inner, (d != '"' && d != '\n') = true := by
    intro d hd
    simp only [Bool.and_eq_true, bne_iff_ne]
    exact ⟨fun heq => hquote (heq ▸ hd), fun heq => hfeed (heq ▸ hd)⟩
  have hrun : run _ (inner ++ '"' :: rest) = inner.length := run_append hinner (by simp)
  simp [extent, hrun]

def doubled (value : List Char) : List Char := value.flatMap fun c => if c = '\'' then ['\'', '\''] else [c]

/-- A string whose quotes are doubled goes to the quote behind it. -/
theorem stringLength_doubled {value : List Char} (hfeed : '\n' ∉ value) (hrest : rest.head? ≠ some '\'') :
    stringLength (doubled value ++ '\'' :: rest) = some ((doubled value).length + 1) := by
  induction value with
  | nil => simp [doubled, stringLength_cons, hrest]
  | cons c value ih =>
    obtain ⟨hc, hfeed⟩ : '\n' ≠ c ∧ '\n' ∉ value := by simpa using hfeed
    have ih := ih hfeed
    rw [doubled, flatMap_cons, ← doubled]
    by_cases hquote : c = '\''
    · simp [hquote, stringLength, ih]
    · rw [if_neg hquote, cons_append, nil_append, cons_append, stringLength_cons, if_neg hquote,
        if_neg (Ne.symm hc), ih]
      simp

theorem unpaired_doubled (value : List Char) : Scan.unpaired (doubled value) = value := by
  induction value with
  | nil => rfl
  | cons c value ih =>
    rw [doubled, flatMap_cons, ← doubled]
    by_cases hquote : c = '\''
    · simp [hquote, Scan.unpaired, ih]
    · simp [hquote, Scan.unpaired, ih]

theorem cut_string {value : List Char} (hfeed : '\n' ∉ value) (hrest : Stops rest) :
    cut ('\'' :: (doubled value ++ ['\'']) ++ rest) = ⟨.string, '\'' :: (doubled value ++ ['\''])⟩ :: cut rest := by
  refine cut_append ?_
  have hquote : rest.head? ≠ some '\'' := fun hhead => absurd (hrest.head _ hhead) (by decide)
  have hlength := stringLength_doubled hfeed hquote
  simp [extent, hlength]

theorem isPair_eq_false (h : ∀ x ∈ pairOperators, x.1 = c → x.2 ∉ rest.head?) : isPair c rest = false := by
  cases rest with
  | nil => rfl
  | cons d rest =>
    rw [isPair, ← Bool.not_eq_true, contains_iff_mem]
    exact fun hmem => h _ hmem rfl rfl

theorem cut_operator (h : TokenKind.op.Shaped chars rest) (hslash : chars = ['/'] → rest.head? ≠ some '/' ∧
    rest.head? ≠ some '*') :
    cut (chars ++ rest) = ⟨.operator, chars⟩ :: cut rest := by
  rcases h with ⟨c, d, rfl, hpair⟩ | ⟨c, rfl, hsingle, hpair⟩
  · have hextent : ∀ x ∈ pairOperators, isGap x.1 = false ∧ isDecimal x.1 = false ∧ isWordStart x.1 = false ∧
        x.1 ∉ ['\n', '\r', '#', '"', '\''] ∧ x.2 ≠ '/' ∧ x.2 ≠ '*' := by decide
    have h := hextent _ hpair
    simp only [mem_cons, not_mem_nil, or_false, not_or] at h
    refine cut_append ?_
    simp [extent_eq, plainExtent, isPair, h, hpair]
  · have hextent : ∀ x ∈ singleOperators, isGap x = false ∧ isDecimal x = false ∧ isWordStart x = false ∧
        x ∉ ['\n', '\r', '#', '"', '\''] := forall_of_all (by decide)
    have h := hextent _ hsingle
    simp only [mem_cons, not_mem_nil, or_false, not_or] at h
    have hnot : ¬(c = '/' ∧ rest.head? = some '/') ∧ ¬(c = '/' ∧ rest.head? = some '*') :=
      ⟨fun hc => (hslash (by rw [hc.1])).1 hc.2, fun hc => (hslash (by rw [hc.1])).2 hc.2⟩
    refine cut_append ?_
    simp [extent_eq, plainExtent, h, hpair, hsingle, hnot]

end Piece

/-! ## Lexemes -/

/-- A text is scanned as some lexemes, and nothing is wrong with it. -/
def Scans (cs : List Char) (xs : List Lexeme) : Prop :=
  ∀ p pending, (Scan.place p pending (cut cs)).issues = [] ∧
    List.Forall₂ (fun x t => Lexeme.spelledBy x t = true) xs (Scan.place p pending (cut cs)).tokens

/-- Characters with which nothing starts that is written: blanks, and those that would join with a sign in front
of them. -/
def shut : List Char := ['=', '.', ' ', '\t', '\x0c', '\x0b', '\r']

/-- Some characters are scanned as some lexemes in front of whatever does not run on with them. -/
structure Writes (cs : List Char) (xs : List Lexeme) : Prop where
  opens : ∃ c ∈ cs.head?, c ∉ shut
  scans {rest : List Char} {ys : List Lexeme} : Stops rest → Scans rest ys → Scans (cs ++ rest) (xs ++ ys)

/-- The same where one of the closing brackets follows. There may be no characters. -/
structure WritesAll (cs : List Char) (xs : List Lexeme) : Prop where
  opens : ∀ c ∈ cs.head?, c ∉ shut
  scans {c : Char} {rest : List Char} {ys : List Lexeme} :
    c = ')' ∨ c = ']' → Scans (c :: rest) ys → Scans (cs ++ c :: rest) (xs ++ ys)

variable {chars cs ds rest : List Char} {x y : Lexeme} {xs ys : List Lexeme}

namespace Scans

theorem nil : Scans [] [] := by
  intro p pending
  rw [cut]
  exact ⟨rfl, .nil⟩

theorem token {kind : PieceKind} {tokenKind : TokenKind} (hcut : cut (chars ++ rest) = ⟨kind, chars⟩ :: cut rest)
    (hkind : Scan.tokenKind? kind = some tokenKind) (hsound : Scan.complaint? ⟨kind, chars⟩ = none)
    (hx : ∀ t : Token, t.kind = tokenKind → t.text = String.ofList chars →
    t.value = String.ofList (Scan.valueOf ⟨kind, chars⟩) →
      x.spelledBy t = true) (h : Scans rest xs) : Scans (chars ++ rest) (x :: xs) := by
  intro p pending
  have hcomment : Scan.commentKind? kind = none := by
    cases kind <;> first | rfl | cases hkind
  obtain ⟨hissues, htokens⟩ := h (p.after chars) []
  rw [hcut, Scan.place, Scan.put]
  simp only [hcomment, hkind, hsound]
  exact ⟨hissues, .cons (hx _ rfl rfl rfl) htokens⟩

theorem blank (hrest : ∀ c ∈ rest.head?, isGap c = false) (h : Scans rest xs) : Scans (' ' :: rest) xs := by
  intro p pending
  have hcut : cut ([' '] ++ rest) = ⟨.gap, [' ']⟩ :: cut rest := by
    refine cut_append ?_
    have hrun : run isGap ([] ++ rest) = 0 := run_append (by simp) hrest
    rw [nil_append] at hrun
    simp [extent_eq, plainExtent, isGap, hrun]
  rw [← singleton_append, hcut]
  exact h (p.after [' ']) pending

theorem word (hw : TokenKind.ident.Shaped w.toList rest)
    (hx : ∀ t : Token, t.kind = .ident → t.value = w → x.spelledBy t = true)
    (h : Scans rest xs) : Scans (w.toList ++ rest) (x :: xs) :=
  token (cut_word hw) rfl rfl (fun t hkind _ hvalue => hx t hkind (hvalue.trans String.ofList_toList)) h

theorem sign {s : String} (hs : TokenKind.op.Shaped s.toList rest)
    (hslash : s.toList = ['/'] → rest.head? ≠ some '/' ∧ rest.head? ≠ some '*') (h : Scans rest xs) :
    Scans (s.toList ++ rest) (.sign s :: xs) :=
  token (cut_operator hs hslash) rfl rfl
    (fun _ hkind htext _ => Token.isOp_iff.2 ⟨hkind, htext.trans String.ofList_toList⟩) h

/-- Brackets and commas are signs of their own, whatever follows. -/
theorem mark {s : String} (hs : s ∈ ["(", ")", "[", "]", ","]) (h : Scans rest xs) :
    Scans (s.toList ++ rest) (.sign s :: xs) := by
  simp only [mem_cons, not_mem_nil, or_false] at hs
  rcases hs with rfl | rfl | rfl | rfl | rfl <;>
    exact sign (.inr ⟨_, rfl, by decide, isPair_eq_false fun x hx heq => absurd heq (by decide +revert)⟩)
      (fun heq => absurd heq (by decide)) h

theorem keyword (hw : w ∈ ["in", "or", "xor", "div", "mod", "and", "not", "true", "false"]) (hrest : Stops rest)
    (h : Scans rest xs) :
    Scans (w.toList ++ rest) (.word w :: xs) := by
  simp only [mem_cons, not_mem_nil, or_false] at hw
  rcases hw with rfl | rfl | rfl | rfl | rfl | rfl | rfl | rfl | rfl <;>
    exact word ⟨_, _, rfl, by decide, forall_of_all rfl, hrest.endsWord⟩
      (fun t hkind hvalue => Token.isWord_iff.2 ⟨hkind, by rw [hvalue]; decide⟩) h

/-- The operator between two operands, with a blank behind it. -/
theorem operator (op : BinaryOp) (h : Scans (' ' :: rest) xs) :
    Scans (op.text.toList ++ ' ' :: rest) (op.lexeme :: xs) := by
  cases op with
  | isIn | or | xor | wholeDivide | modulo | and => exact keyword (by decide) (.cons (by decide)) h
  | range | notEqual | lessEqual | greaterEqual =>
    exact sign (.inl ⟨_, _, rfl, by decide⟩) (fun heq => absurd heq (by decide)) h
  | _ => exact sign (.inr ⟨_, rfl, by decide, rfl⟩) (fun _ => ⟨by simp, by simp⟩) h

end Scans

theorem exists_head_of {c : Char} (hc : p c = true) (hshut : ∀ d ∈ shut, p d = false) (cs : List Char) :
    ∃ d ∈ (c :: cs).head?, d ∉ shut :=
  ⟨c, rfl, fun hmem => by simp [hshut c hmem] at hc⟩

theorem isGap_eq_false {c : Char} (h : c ∉ shut) : isGap c = false := by
  simp only [shut, mem_cons, not_mem_nil, or_false, not_or] at h
  simp [isGap, h]

namespace Writes

/-! ### Leaves -/

theorem word (hw : TokenKind.ident.Shaped w.toList []) (hx : ∀ t : Token, t.kind = .ident → t.value = w →
    x.spelledBy t = true) :
    Writes w.toList [x] := by
  obtain ⟨c, more, hchars, hc, hmore, -⟩ := hw
  refine ⟨?_, fun hrest h => .word ⟨c, more, hchars, hc, hmore, hrest.endsWord⟩ hx h⟩
  rw [hchars]
  exact exists_head_of hc (forall_of_all rfl) more

theorem number (hw : TokenKind.number.Shaped w.toList [])
    (hx : ∀ t : Token, t.kind = .number → t.text = w → t.value = w → x.spelledBy t = true) : Writes w.toList [x] := by
  refine ⟨?_, fun hrest h => .token (cut_number hw hrest) rfl rfl ?_ h⟩
  · obtain ⟨whole, fraction, mark, hchars, hne, hwhole, -⟩ := hw
    obtain ⟨c, whole, rfl⟩ := exists_cons_of_ne_nil hne
    rw [hchars]
    exact exists_head_of (hwhole c mem_cons_self) (forall_of_all rfl) _
  · exact fun t hkind htext hvalue => hx t hkind (htext.trans String.ofList_toList)
      (hvalue.trans String.ofList_toList)

theorem quotedName (hquote : '"' ∉ w.toList) (hfeed : '\n' ∉ w.toList) :
    Writes (Expr.nameText w true).toList [.name w true] := by
  have hchars : (Expr.nameText w true).toList = '"' :: (w.toList ++ ['"']) := by simp [Expr.nameText]
  rw [hchars]
  refine ⟨⟨'"', rfl, by decide⟩, fun _ h => .token (cut_quotedName hquote hfeed) rfl rfl
    (fun t hkind _ hvalue => ?_) h⟩
  simp [Lexeme.spelledBy, hkind, hvalue, Scan.valueOf]

theorem string (hfeed : '\n' ∉ w.toList) : Writes (Expr.stringText w).toList [.string w] := by
  have hchars : (Expr.stringText w).toList = '\'' :: (doubled w.toList ++ ['\'']) := by
    simp [Expr.stringText, doubled]
  rw [hchars]
  refine ⟨⟨'\'', rfl, by decide⟩, fun hrest h => .token (cut_string hfeed hrest) rfl rfl
    (fun t hkind _ hvalue => ?_) h⟩
  simp [Lexeme.spelledBy, hkind, hvalue, Scan.valueOf, unpaired_doubled]

/-! ### Operators and suffixes -/

theorem head (h : Writes cs xs) (rest : List Char) : ∀ c ∈ (cs ++ rest).head?, c ∉ shut := by
  obtain ⟨d, hd, hshut⟩ := h.opens
  intro c hc
  rw [head?_append, Option.mem_def.1 hd] at hc
  exact Option.some.inj hc ▸ hshut

theorem blank (h : Writes cs xs) (hrest : Stops rest) (hys : Scans rest ys) :
    Scans (' ' :: (cs ++ rest)) (xs ++ ys) :=
  .blank (fun c hc => isGap_eq_false (h.head rest c hc)) (h.scans hrest hys)

theorem append (h : Writes cs xs)
    (hds : ∀ {rest zs}, Stops rest → Scans rest zs → Stops (ds ++ rest) ∧ Scans (ds ++ rest) (ys ++ zs)) :
    Writes (cs ++ ds) (xs ++ ys) := by
  refine ⟨?_, fun {rest zs} hrest hzs => ?_⟩
  · obtain ⟨c, hc, hshut⟩ := h.opens
    exact ⟨c, by rw [head?_append, Option.mem_def.1 hc]; rfl, hshut⟩
  · obtain ⟨hstops, hscans⟩ := hds hrest hzs
    rw [append_assoc, append_assoc]
    exact h.scans hstops hscans

theorem binary (op : BinaryOp) (h : Writes cs xs) (h' : Writes ds ys) :
    Writes (cs ++ ' ' :: (op.text.toList ++ ' ' :: ds)) (xs ++ op.lexeme :: ys) := by
  refine h.append fun {rest zs} hrest hzs => ⟨.cons (by decide), ?_⟩
  have hop := Scans.operator op (h'.blank hrest hzs)
  have hgap : ∀ c ∈ (op.text.toList ++ ' ' :: (ds ++ rest)).head?, isGap c = false := by
    cases op <;> exact fun c hc => Option.some.inj hc ▸ rfl
  simpa using Scans.blank hgap hop

theorem sign {s : String} (hs : s ∈ ["-", "+", "."]) (h : Writes cs xs) (hrest : Stops rest) (hys : Scans rest ys) :
    Scans (s.toList ++ (cs ++ rest)) (.sign s :: (xs ++ ys)) := by
  have hpair {c : Char} (hc : ∀ x ∈ pairOperators, x.1 = c → x.2 ∈ shut) : isPair c (cs ++ rest) = false :=
    isPair_eq_false fun x hx heq hmem => h.head rest _ hmem (hc x hx heq)
  simp only [mem_cons, not_mem_nil, or_false] at hs
  rcases hs with rfl | rfl | rfl <;>
    exact .sign (.inr ⟨_, rfl, by decide, hpair (by decide)⟩) (fun heq => absurd heq (by decide)) (h.scans hrest hys)

theorem unary (op : UnaryOp) (h : Writes cs xs) :
    Writes (op.text.toList ++ ((if op = .not then " " else "").toList ++ cs)) (op.lexeme :: xs) := by
  cases op with
  | not =>
    exact ⟨⟨'n', rfl, by decide⟩, fun hrest hys => .keyword (w := "not") (by decide) (.cons (by decide))
      (h.blank hrest hys)⟩
  | minus => exact ⟨⟨'-', rfl, by decide⟩, h.sign (s := "-") (by decide)⟩
  | plus => exact ⟨⟨'+', rfl, by decide⟩, h.sign (s := "+") (by decide)⟩

theorem member (h : Writes cs xs) (hname : Writes ds ys) (hdigit : ∀ c ∈ ds.head?, isDecimal c = false) :
    Writes (cs ++ '.' :: ds) (xs ++ .sign "." :: ys) := by
  refine h.append fun {rest zs} hrest hzs => ⟨⟨by simp [stopSigns], ?_⟩, hname.sign (s := ".") (by decide) hrest hzs⟩
  obtain ⟨c, hc, -⟩ := hname.opens
  obtain ⟨ds, rfl⟩ := head?_eq_some_iff.1 hc
  simp [fractionLength_cons, hdigit c rfl]

theorem scope (h : Writes cs xs) (hname : Writes ds ys) : Writes (cs ++ ':' :: ':' :: ds) (xs ++ .sign "::" :: ys) :=
  h.append fun hrest hzs => ⟨.cons (by decide),
    .sign (s := "::") (.inl ⟨_, _, rfl, by decide⟩) (fun heq => absurd heq (by decide)) (hname.scans hrest hzs)⟩

end Writes

/-! ### Lists in brackets -/

namespace WritesAll

theorem nil : WritesAll [] [] := ⟨by simp, fun _ h => h⟩

theorem single (h : Writes cs xs) : WritesAll cs xs := by
  refine ⟨by simpa using h.head [], fun hc hys => h.scans (.cons ?_) hys⟩
  rcases hc with rfl | rfl <;> decide

theorem cons (h : Writes cs xs) (h' : WritesAll ds ys) :
    WritesAll (cs ++ ',' :: ' ' :: ds) (xs ++ .sign "," :: ys) := by
  refine ⟨h.head _, fun {c rest zs} hc hzs => ?_⟩
  have hgap : ∀ d ∈ (ds ++ c :: rest).head?, isGap d = false := by
    cases ds with
    | nil => rcases hc with rfl | rfl <;> exact fun d hd => Option.some.inj hd ▸ rfl
    | cons d ds => exact fun e he => isGap_eq_false (h'.opens e he)
  have hcomma : Scans (',' :: ' ' :: (ds ++ c :: rest)) (.sign "," :: (ys ++ zs)) :=
    Scans.mark (s := ",") (by decide) (.blank hgap (h'.scans hc hzs))
  simpa using h.scans (.cons (by decide)) hcomma

theorem between (h : WritesAll cs xs) (hys : Scans rest ys) :
    Scans ('(' :: (cs ++ [')']) ++ rest) (.sign "(" :: (xs ++ [.sign ")"]) ++ ys) ∧
      Scans ('[' :: (cs ++ [']']) ++ rest) (.sign "[" :: (xs ++ [.sign "]"]) ++ ys) := by
  simp only [cons_append, append_assoc]
  exact ⟨.mark (s := "(") (by decide) (h.scans (.inl rfl) (.mark (s := ")") (by decide) hys)),
    .mark (s := "[") (by decide) (h.scans (.inr rfl) (.mark (s := "]") (by decide) hys))⟩

end WritesAll

end AlLint
