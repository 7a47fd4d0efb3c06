import AlLint.Proofs.Flow.Shape
import AlLint.Proofs.Reading.ExprInverse

/-!
# Reading statements that were written

Reading inverts writing for statements as well, at any depth: the lexemes of a list of statements, up to a word
that ends the list, are read as those statements.

A statement is read up to the semicolon behind it (`ReadsStmt`), and a list of statements up to one of its
terminators (`ReadsList`). There is one lemma for each kind of statement, which takes its bodies as read; the
induction over statements puts them together.
-/

namespace AlLint.Reading

open Cursor List Token Bool

variable {inp : Input} {leavesOut : Expr → Bool} {xs ys : List Lexeme} {c d : Cursor} {t : Token}
  {ts : List Token} {e : Expr}
variable {s s' : Stmt} {terminators : List String} {P : Stmt → Prop} {elseBody : Option (List Stmt)} {down : Bool}
  {n : String} {span' : Span} {bs : List (Branch Stmt)}

/-! ## What is read of some lexemes -/

/-- Reading gives a value of which `P` holds, at `d`. -/
def Read.Gives {α : Type} {n : Nat} (r : Read α n) (P : α → Prop) (d : Cursor) : Prop := r.next = d ∧ P r.value

/-- The same statement, at whatever place. -/
def SameStmt (s s' : Stmt) : Prop := s'.unplaced = s.unplaced

theorem SameStmt.eq (h : SameStmt s s') : s'.unplaced = s.unplaced := h

/-- The same statements, at whatever places. -/
def SameStmts (body body' : List Stmt) : Prop := Stmt.allUnplaced body' = Stmt.allUnplaced body

theorem SameStmts.eq {body body' : List Stmt} (h : SameStmts body body') :
    Stmt.allUnplaced body' = Stmt.allUnplaced body := h

/-- The words that may end a list of statements. -/
def listEnds : List String := reservedWords.filter fun word => !(openings.map Prod.fst).contains word

/-- A token that can start a statement. -/
structure StartsStmt (t : Token) : Prop where
  kind : t.kind ≠ .eof
  op : t.isOpIn [";", "\x7d"] = false
  word : t.isWordIn listEnds = false

/-- The lexemes are read as the statement `s`, up to a semicolon. -/
def ReadsStmt (inp : Input) (xs : List Lexeme) (s : Stmt) : Prop :=
  ∀ c d, c.Spells xs d → (d.head inp).isOp ";" = true → StartsStmt (c.head inp) ∧
    (statement inp c).Gives (SameStmt s) d

/-- The lexemes are read as the statements of a list, up to a word that ends it. -/
def ReadsList (inp : Input) (xs : List Lexeme) (body : List Stmt) : Prop :=
  ∀ terminators, (∀ word ∈ terminators, word ∈ listEnds) → ∀ c d, c.Spells xs d →
    (d.head inp).isWordIn terminators = true → (statements inp terminators c).Gives (SameStmts body) d

/-! ## How statements start -/

theorem StartsOperand.not_reserved (h : StartsOperand t) : t.isWordIn reservedWords = false := by
  rw [← not_eq_true, isWordIn_iff]
  rintro ⟨hkind, hmem⟩
  rcases h with h | h
  · have hother : ∀ word ∈ reservedWords, word ∉ ["true", "false"] := by decide
    simp [Start.of?, hkind, Token.lower, hmem] at h
    exact hother _ hmem (by simpa using h)
  · have hnot : Text.lower t.value = "not" := by
      simpa [unaryOp?, Token.isWord, Token.isWordIn, Token.isOp, Token.isOpIn, hkind] using h
    rw [hnot] at hmem
    exact absurd hmem (by decide)

theorem StartsOperand.startsStmt (h : StartsOperand t) : StartsStmt t where
  kind hkind := by
    rcases h with h | h
    · simp [Start.of?, hkind] at h
    · simp [unaryOp?, Token.isWord, Token.isWordIn, Token.isOp, Token.isOpIn, hkind] at h
  op := h.not_op (by decide)
  word := isWordIn_eq_false (by decide) h.not_reserved

theorem opening_of_word {word : String} (h : t.isWord word = true) :
    Opening.of? t = (openings.find? fun entry => entry.1 == word).map Prod.snd := by
  obtain ⟨hkind, hvalue⟩ := isWord_iff.1 h
  have hsame : (fun entry : String × Opening => t.isWord entry.1) = fun entry => entry.1 == word := by
    funext entry
    rw [Bool.eq_iff_iff, isWord_iff, hvalue, beq_iff_eq]
    exact ⟨fun h => h.2.symm, fun h => ⟨hkind, h.symm⟩⟩
  rw [Opening.of?, hsame]

theorem startsStmt_of_word {word : String} (h : t.isWord word = true) (hword : word ∉ listEnds) : StartsStmt t where
  kind hkind := by
    rw [(isWord_iff.1 h).1] at hkind
    cases hkind
  op := by
    rw [← not_eq_true, isOpIn_iff, (isWord_iff.1 h).1]
    rintro ⟨hkind, -⟩
    cases hkind
  word := by
    rw [← not_eq_true, isWordIn_iff, (isWord_iff.1 h).2]
    exact fun hmem => hword hmem.2

theorem StartsStmt.not_semicolon (h : StartsStmt t) : t.isOp ";" = false := isOpIn_eq_false (by decide) h.op

theorem StartsStmt.not_endsList (h : StartsStmt t)
    (hword : ∀ word ∈ terminators, word ∈ listEnds) : endsList terminators t = false := by
  have hbrace : t.isOp "\x7d" = false := isOpIn_eq_false (by decide) h.op
  have hterminator : t.isWordIn terminators = false := isWordIn_eq_false hword h.word
  simp [endsList, h.kind, hbrace, hterminator]

/-! ## Lists of statements -/

theorem statements_end (h : (c.head inp).isWordIn terminators = true) :
    (statements inp terminators c).Gives (· = []) c := by
  rw [statements]
  split
  · exact ⟨rfl, rfl⟩
  · next t ts hc =>
    have hend : endsList terminators t = true := by
      rw [head_eq hc] at h
      simp [endsList, h]
    simp only [hend, if_true]
    exact ⟨rfl, rfl⟩

theorem statements_step {Q : List Stmt → Prop}
    (hword : ∀ word ∈ terminators, word ∈ listEnds) (hstart : StartsStmt (c.head inp))
    (hstmt : (statement inp c).Gives P d) (hd : d.rest = t :: ts) (hsemi : t.isOp ";" = true) {f : Cursor}
    (hrest : (statements inp terminators (d.past t ts)).Gives Q f) :
    (statements inp terminators c).Gives (fun body => ∃ s rest, body = s :: rest ∧ P s ∧ Q rest) f := by
  obtain ⟨s, hlt, hs, hP⟩ := hstmt
  rw [statements]
  split
  · next hc => simp [size, hc] at hlt
  · next t' ts' hc =>
    rw [head_eq hc] at hstart
    obtain ⟨hlt', haccept⟩ := acceptOp_eq_some hd hsemi
    simp only [hstart.not_endsList hword, hstart.not_semicolon, hs, haccept, false_eq_true, if_false]
    exact ⟨hrest.1, s, _, rfl, hP, hrest.2⟩

theorem statements_last
    (hword : ∀ word ∈ terminators, word ∈ listEnds) (hstart : StartsStmt (c.head inp))
    (hstmt : (statement inp c).Gives P d) (hend : (d.head inp).isWordIn terminators = true) :
    (statements inp terminators c).Gives (fun body => ∃ s, body = [s] ∧ P s) d := by
  obtain ⟨s, hlt, hs, hP⟩ := hstmt
  rw [statements]
  split
  · next hc => simp [size, hc] at hlt
  · next t' ts' hc =>
    rw [head_eq hc] at hstart
    have hplain : (d.head inp).isOp ";" = false := by
      simp [Token.isOp, Token.isOpIn, (isWordIn_iff.1 hend).1]
    have hlast : endsList terminators (d.head inp) = true := by simp [endsList, hend]
    simp only [hstart.not_endsList hword, hstart.not_semicolon, hs, acceptOp_eq_none hplain, hlast,
      false_eq_true, if_false, if_true]
    exact ⟨rfl, s, rfl, hP⟩

theorem reads_nil : ReadsList inp [] [] := by
  intro terminators _ c d hspells hend
  obtain rfl : c = d := hspells
  obtain ⟨hnext, hvalue⟩ := statements_end hend
  exact ⟨hnext, by rw [SameStmts, hvalue]⟩

theorem ReadsStmt.cons {s : Stmt} {rest : List Stmt} (h : ReadsStmt inp xs s) (hrest : ReadsList inp ys rest) :
    ReadsList inp (xs ++ .sign ";" :: ys) (s :: rest) := by
  intro terminators hword c d hspells hend
  obtain ⟨c₁, hxs, t, ts, hc₁, hsemi, hys⟩ := spells_append.1 hspells
  obtain ⟨hstart, hstmt⟩ := h c c₁ hxs (by rw [head_eq hc₁]; exact hsemi)
  have hlist := hrest terminators hword _ d hys hend
  obtain ⟨hnext, s', rest', hvalue, hsame, hsames⟩ := statements_step hword hstart hstmt hc₁ hsemi hlist
  exact ⟨hnext, by rw [SameStmts, hvalue, Stmt.allUnplaced, hsame.eq, hsames.eq, Stmt.allUnplaced]⟩

theorem reads_list {body : List Stmt} (h : ∀ s ∈ body, ReadsStmt inp (s.lexemes false leavesOut) s) :
    ReadsList inp (Stmt.listLexemes false leavesOut body) body := by
  induction body with
  | nil => exact reads_nil
  | cons s rest ih => exact (h s mem_cons_self).cons (ih fun s' hmem => h s' (mem_cons_of_mem _ hmem))

/-! ## Bodies -/

theorem gives_compound {body : List Stmt} (opener : Token) (h : ReadsList inp xs body)
    (hspells : c.Spells (xs ++ [.word "end"]) d) : (compound inp opener c).Gives (SameStmts body) d := by
  obtain ⟨c₁, hxs, t, ts, hc₁, hend, rfl⟩ := spells_append.1 hspells
  have hlist := h ["end"] (by decide) c c₁ hxs (by rw [head_eq hc₁]; exact hend)
  rw [compound]
  generalize statements inp ["end"] c = read at hlist
  obtain ⟨body', c₂, hle⟩ := read
  obtain ⟨rfl, hsame⟩ := hlist
  obtain ⟨hlt, haccept⟩ := acceptWord_eq_some hc₁ hend
  simp only [blockEnd, haccept]
  exact ⟨rfl, hsame⟩

theorem gives_block {body : List Stmt} (h : ReadsList inp xs body) (hspells : c.Spells (wrapped xs) d) :
    (statement inp c).Gives (fun s => ∃ body' span, s = .block body' span ∧ SameStmts body body') d := by
  obtain ⟨t, ts, hc, hbegin, hrest⟩ := hspells
  have hopening : Opening.of? t = some .block := opening_of_word hbegin
  obtain ⟨hlt, htake⟩ := take_eq_some hc hopening
  have hcompound := gives_compound (c.head inp) h hrest
  rw [statement, htake]
  dsimp only
  generalize compound inp (c.head inp) (c.past t ts) = read at hcompound
  obtain ⟨body', c₁, hle⟩ := read
  obtain ⟨rfl, hsame⟩ := hcompound
  exact ⟨_, _, rfl, body', _, rfl, hsame⟩

theorem gives_branch {body : List Stmt} (h : ReadsList inp xs body) (hspells : c.Spells (wrapped xs) d) :
    (branch inp c).Gives (SameStmts body) d := by
  have hblock := gives_block h hspells
  obtain ⟨t, ts, hc, hbegin, hrest⟩ := hspells
  obtain ⟨hkind, hvalue⟩ := isWord_iff.1 hbegin
  have hgoes : endsBranch (c.head inp) = false := by
    simp [head_eq hc, endsBranch, Token.isOpIn, Token.isWordIn, hkind, hvalue]
  rw [branch, if_neg (by simp [hgoes])]
  refine hblock.andThen fun s _ hs => .ok ?_
  obtain ⟨body', span, rfl, hsame⟩ := hs
  exact hsame

theorem gives_expression (hw : e.standsAlone leavesOut = true) (hspells : c.Spells (e.lexemes true leavesOut) d)
    (hstop : ¬ Continues 0 (d.head inp)) : (expression inp c).Gives (Same e) d := by
  simp only [Expr.standsAlone, and_eq_true, not_eq_true'] at hw
  exact (reads_expression hw.1 c d hspells hstop fun hopen => absurd hopen (by simp [hw.2])).2

theorem gives_expression_word {word : String} (hw : e.standsAlone leavesOut = true)
    (hspells : c.Spells (e.lexemes true leavesOut) d) (hd : d.rest = t :: ts) (hword : t.isWord word = true)
    (hop : BinaryOp.ofText? word = none) : (expression inp c).Gives (Same e) d :=
  gives_expression hw hspells (by rw [head_eq hd]; exact not_continues_of_word hword hop)

theorem gives_expression_semicolon (hw : e.standsAlone leavesOut = true)
    (hspells : c.Spells (e.lexemes true leavesOut) d)
    (hsemi : (d.head inp).isOp ";" = true) : (expression inp c).Gives (Same e) d :=
  gives_expression hw hspells (not_continues_of_sign hsemi (by decide) (by decide))

/-! ## Each kind of statement -/

theorem reads_opening {word : String} {opening : Opening}
    (hopening : (openings.find? fun entry => entry.1 == word).map Prod.snd = some opening) (hends : word ∉ listEnds)
    (h : ∀ c d t ts hlt, c.take Opening.of? = some (opening, ⟨c.past t ts, hlt⟩) → (c.past t ts).Spells xs d →
      (d.head inp).isOp ";" = true → (statement inp c).Gives (SameStmt s) d) :
        ReadsStmt inp (.word word :: xs) s := by
  intro c d hspells hsemi
  obtain ⟨t, ts, hc, hword, hxs⟩ := hspells
  refine ⟨by rw [head_eq hc]; exact startsStmt_of_word hword hends, ?_⟩
  obtain ⟨hlt, htake⟩ := take_eq_some hc ((opening_of_word hword).trans hopening)
  exact h c d t ts hlt htake hxs hsemi

theorem reads_while {body : List Stmt} {span : Span} (hcondition : e.standsAlone leavesOut = true)
    (hbody : ReadsList inp xs body) :
    ReadsStmt inp (.word "while" :: (e.lexemes true leavesOut ++ .word "do" :: wrapped xs))
      (.whileDo e body span) := by
  refine reads_opening rfl (by decide) fun c d t ts hlt htake hspells _ => ?_
  obtain ⟨c₁, he, t₁, ts₁, hc₁, hdo, hxs⟩ := spells_append.1 hspells
  rw [statement, htake]
  refine (gives_expression_word hcondition he hc₁ hdo (by decide)).andThen fun e' _ hsame => ?_
  refine (gives_expect hc₁ hdo).andThen fun _ _ _ => (gives_branch hbody hxs).andThen fun body' _ hsames => .ok ?_
  simp [SameStmt, Stmt.unplaced, hsame.eq, hsames.eq]

theorem reads_with {body : List Stmt} {span : Span} (htarget : e.standsAlone leavesOut = true)
    (hbody : ReadsList inp xs body) :
    ReadsStmt inp (.word "with" :: (e.lexemes true leavesOut ++ .word "do" :: wrapped xs)) (.withDo e body span) := by
  refine reads_opening rfl (by decide) fun c d t ts hlt htake hspells _ => ?_
  obtain ⟨c₁, he, t₁, ts₁, hc₁, hdo, hxs⟩ := spells_append.1 hspells
  rw [statement, htake]
  refine (gives_expression_word htarget he hc₁ hdo (by decide)).andThen fun e' _ hsame => ?_
  refine (gives_expect hc₁ hdo).andThen fun _ _ _ => (gives_branch hbody hxs).andThen fun body' _ hsames => .ok ?_
  simp [SameStmt, Stmt.unplaced, hsame.eq, hsames.eq]

theorem reads_block {body : List Stmt} {span : Span} (hbody : ReadsList inp xs body) :
    ReadsStmt inp (wrapped xs) (.block body span) := by
  intro c d hspells _
  have hblock := gives_block hbody hspells
  obtain ⟨t, ts, hc, hbegin, -⟩ := hspells
  refine ⟨by rw [head_eq hc]; exact startsStmt_of_word hbegin (by decide), hblock.mono fun s hs => ?_⟩
  obtain ⟨body', span', rfl, hsames⟩ := hs
  simp [SameStmt, Stmt.unplaced, hsames.eq]

theorem reads_repeat {body : List Stmt} {span : Span} (hbody : ReadsList inp xs body)
    (hcondition : e.standsAlone leavesOut = true) :
    ReadsStmt inp (.word "repeat" :: (xs ++ .word "until" :: e.lexemes true leavesOut))
      (.repeatUntil body e span) := by
  refine reads_opening rfl (by decide) fun c d t ts hlt htake hspells hsemi => ?_
  obtain ⟨c₁, hxs, t₁, ts₁, hc₁, huntil, he⟩ := spells_append.1 hspells
  have hlist := hbody ["until"] (by decide) _ c₁ hxs (by rw [head_eq hc₁]; exact huntil)
  rw [statement, htake]
  dsimp only
  generalize statements inp ["until"] (c.past t ts) = read at hlist
  obtain ⟨body', c₂, hle⟩ := read
  obtain ⟨rfl, hsames⟩ := hlist
  refine (gives_expect hc₁ huntil).andThen fun _ _ _ => ?_
  refine (gives_expression_semicolon hcondition he hsemi).andThen fun e' _ hsame => .ok ?_
  simp [SameStmt, Stmt.unplaced, hsame.eq, hsames.eq]

theorem reads_exit {span : Span} : ReadsStmt inp [.word "exit"] (.exit none span) := by
  refine reads_opening rfl (by decide) fun c d t ts hlt htake hspells hsemi => ?_
  obtain rfl : c.past t ts = d := hspells
  have hplain : ((c.past t ts).head inp).isOp "(" = false := by
    obtain ⟨hkind, htext⟩ := isOp_iff.1 hsemi
    simp [Token.isOp, Token.isOpIn, htext]
  rw [statement, htake]
  simp only [acceptOp_eq_none hplain]
  exact .ok rfl

theorem reads_exit_value {span : Span} (hvalue : e.isWritable false = true) :
    ReadsStmt inp (.word "exit" :: .sign "(" :: (e.lexemes true leavesOut ++ [.sign ")"])) (.exit (some e) span) := by
  refine reads_opening rfl (by decide) fun c d t ts hlt htake hspells _ => ?_
  obtain ⟨t₁, ts₁, hc₁, hopen, hrest⟩ := hspells
  obtain ⟨c₂, he, t₂, ts₂, hc₂, hclose, rfl⟩ := spells_append.1 hrest
  have hend : (c₂.head inp).isOpIn [",", "]", ":", ")"] = true := by
    rw [head_eq hc₂]
    exact isOpIn_of_isOp hclose (by simp)
  obtain ⟨hstart, hread⟩ := reads_expression hvalue _ c₂ he (not_continues_of_end hend) fun _ => hend
  have hgoes : (((c.past t ts).past t₁ ts₁).head inp).isOp ")" = false := hstart.not_op (by decide)
  obtain ⟨hlt', haccept⟩ := acceptOp_eq_some hc₁ hopen
  rw [statement, htake]
  simp only [haccept, hgoes, false_eq_true, if_false]
  refine hread.andThen fun e' _ hsame => (gives_expect hc₂ hclose).andThen fun _ _ _ => .ok ?_
  simp [SameStmt, Stmt.unplaced, hsame.eq]

theorem reads_if {body : List Stmt} {span : Span} (hcondition : e.standsAlone leavesOut = true)
    (hbody : ReadsList inp xs body) :
    ReadsStmt inp (.word "if" :: (e.lexemes true leavesOut ++ .word "then" :: (wrapped xs ++ [])))
      (.ifThen e body none span) := by
  refine reads_opening rfl (by decide) fun c d t ts hlt htake hspells hsemi => ?_
  obtain ⟨c₁, he, t₁, ts₁, hc₁, hthen, hrest⟩ := spells_append.1 hspells
  rw [append_nil] at hrest
  have hplain : (d.head inp).isWord "else" = false := by
    simp [Token.isWord, Token.isWordIn, (isOp_iff.1 hsemi).1]
  rw [statement, htake]
  refine (gives_expression_word hcondition he hc₁ hthen (by decide)).andThen fun e' _ hsame => ?_
  refine (gives_expect hc₁ hthen).andThen fun _ _ _ => (gives_branch hbody hrest).andThen fun body' _ hsames => ?_
  rw [acceptWord_eq_none hplain]
  exact .ok (by simp [SameStmt, Stmt.unplaced, Stmt.elseUnplaced, hsame.eq, hsames.eq])

theorem reads_if_else {thenBody elseBody : List Stmt} {span : Span} (hcondition : e.standsAlone leavesOut = true)
    (hthen : ReadsList inp xs thenBody) (helse : ReadsList inp ys elseBody) :
    ReadsStmt inp (.word "if" :: (e.lexemes true leavesOut ++ .word "then" ::
      (wrapped xs ++ .word "else" :: wrapped ys))) (.ifThen e thenBody (some elseBody) span) := by
  refine reads_opening rfl (by decide) fun c d t ts hlt htake hspells hsemi => ?_
  obtain ⟨c₁, he, t₁, ts₁, hc₁, hword, hrest⟩ := spells_append.1 hspells
  obtain ⟨c₂, hxs, t₂, ts₂, hc₂, hword', hys⟩ := spells_append.1 hrest
  obtain ⟨hlt', haccept⟩ := acceptWord_eq_some hc₂ hword'
  rw [statement, htake]
  refine (gives_expression_word hcondition he hc₁ hword (by decide)).andThen fun e' _ hsame => ?_
  refine (gives_expect hc₁ hword).andThen fun _ _ _ => (gives_branch hthen hxs).andThen fun body' _ hsames => ?_
  rw [haccept]
  refine (gives_branch helse hys).andThen fun body'' _ hsames' => .ok ?_
  simp [SameStmt, Stmt.unplaced, Stmt.elseUnplaced, hsame.eq, hsames.eq, hsames'.eq]

theorem gives_forDirection (hc : c.rest = t :: ts)
    (hword : t.isWord (if down then "downto" else "to") = true) :
    (forDirection inp c).Gives (· = down) (c.past t ts) := by
  rw [forDirection]
  cases down with
  | true =>
    have hword : t.isWord "downto" = true := hword
    obtain ⟨hlt, haccept⟩ := acceptWord_eq_some hc hword
    rw [haccept]
    exact .ok rfl
  | false =>
    have hword : t.isWord "to" = true := hword
    have hother : (c.head inp).isWord "downto" = false := by
      rw [← not_eq_true, head_eq hc, isWord_iff, (isWord_iff.1 hword).2]
      exact fun h => absurd h.2 (by decide)
    rw [acceptWord_eq_none hother]
    exact (gives_expect hc hword).map fun _ _ => rfl

theorem reads_for {quoted : Bool} {first last : Expr} {body : List Stmt} {span : Span}
    (hfirst : first.standsAlone leavesOut = true) (hlast : last.standsAlone leavesOut = true)
    (hbody : ReadsList inp xs body) :
    ReadsStmt inp (.word "for" :: ([.name n quoted] ++ .sign ":=" :: (first.lexemes true leavesOut ++
        .word (if down then "downto" else "to") :: (last.lexemes true leavesOut ++ .word "do" :: wrapped xs))))
      (.forTo (.name n quoted span') first last down body span) := by
  refine reads_opening rfl (by decide) fun c d t ts hlt htake hspells _ => ?_
  obtain ⟨t₁, ts₁, hc₁, hname, t₂, ts₂, hc₂, hassign, hrest⟩ := hspells
  obtain ⟨c₃, hfirst', t₃, ts₃, hc₃, hto, hrest⟩ := spells_append.1 hrest
  obtain ⟨c₄, hlast', t₄, ts₄, hc₄, hdo, hxs⟩ := spells_append.1 hrest
  obtain ⟨hisName, hvalue, hquoted⟩ := eq_of_spelledBy_name hname
  have hop : BinaryOp.ofText? (if down then "downto" else "to") = none := by cases down <;> decide
  rw [statement, htake]
  refine (gives_expect hc₁ hisName).andThen fun name _ hname => (gives_expect hc₂ hassign).andThen fun _ _ _ => ?_
  refine (gives_expression_word hfirst hfirst' hc₃ hto hop).andThen fun first' _ hsame => ?_
  refine (gives_forDirection hc₃ hto).andThen fun down' _ hdown => ?_
  refine (gives_expression_word hlast hlast' hc₄ hdo (by decide)).andThen fun last' _ hsame' => ?_
  refine (gives_expect hc₄ hdo).andThen fun _ _ _ => (gives_branch hbody hxs).andThen fun body' _ hsames => .ok ?_
  simp [SameStmt, Stmt.unplaced, Expr.unplaced, hname, hvalue, hquoted, hdown, hsame.eq, hsame'.eq, hsames.eq]

theorem reads_forEach {quoted : Bool} {body : List Stmt} {span : Span}
    (hiterable : e.standsAlone leavesOut = true) (hbody : ReadsList inp xs body) :
    ReadsStmt inp (.word "foreach" :: ([.name n quoted] ++ .word "in" ::
      (e.lexemes true leavesOut ++ .word "do" :: wrapped xs)))
      (.forEach (.name n quoted span') e body span) := by
  refine reads_opening rfl (by decide) fun c d t ts hlt htake hspells _ => ?_
  obtain ⟨t₁, ts₁, hc₁, hname, t₂, ts₂, hc₂, hin, hrest⟩ := hspells
  obtain ⟨c₃, he, t₃, ts₃, hc₃, hdo, hxs⟩ := spells_append.1 hrest
  obtain ⟨hisName, hvalue, hquoted⟩ := eq_of_spelledBy_name hname
  rw [statement, htake]
  refine (gives_expect hc₁ hisName).andThen fun name _ hname => (gives_expect hc₂ hin).andThen fun _ _ _ => ?_
  refine (gives_expression_word hiterable he hc₃ hdo (by decide)).andThen fun e' _ hsame => ?_
  refine (gives_expect hc₃ hdo).andThen fun _ _ _ => (gives_branch hbody hxs).andThen fun body' _ hsames => .ok ?_
  simp [SameStmt, Stmt.unplaced, Expr.unplaced, hname, hvalue, hquoted, hsame.eq, hsames.eq]

theorem reads_jump {j : Jump} {span : Span} : ReadsStmt inp [.word j.text] (.jump j span) := by
  intro c d hspells hsemi
  obtain ⟨t, ts, hc, hword, rfl⟩ := hspells
  refine ⟨by rw [head_eq hc]; exact startsStmt_of_word hword (by cases j <;> decide), ?_⟩
  have hopening : Opening.of? (c.head inp) = none := by
    rw [head_eq hc]
    exact (opening_of_word hword).trans (by cases j <;> rfl)
  have hjump : jump? t = some j := by
    obtain ⟨hkind, hvalue⟩ := isWord_iff.1 hword
    cases j <;> simp [jump?, Token.isWord, Token.isWordIn, Jump.text, hkind, hvalue]
  obtain ⟨hlt, htake⟩ := take_eq_some hc hjump
  have hends : endsJump ((c.past t ts).head inp) = true := by simp [endsJump, hsemi]
  rw [statement, take_eq_none hopening, htake]
  simp only [Option.filter_some, hends, if_true]
  exact .ok rfl

/-! ## Assignments and calls -/

/-- The first token is none of some words if the first lexeme is none of them. -/
theorem not_word_of_startsWith {words : List String} (hspells : c.Spells xs d) (h : startsWith words xs = false)
    (hd : (d.head inp).isWordIn words = false) : (c.head inp).isWordIn words = false := by
  cases xs with
  | nil =>
    obtain rfl : c = d := hspells
    exact hd
  | cons x xs =>
    obtain ⟨t, ts, hc, hx, -⟩ := hspells
    rw [head_eq hc, ← not_eq_true, isWordIn_iff]
    rintro ⟨hkind, hmem⟩
    cases x with
    | word w =>
      rw [(isWord_iff.1 hx).2] at hmem
      simp [startsWith, hmem] at h
    | name n quoted =>
      cases quoted with
      | false =>
        simp [Lexeme.spelledBy] at hx
        simp [startsWith, ← hx.2, hmem] at h
      | true => simp [Lexeme.spelledBy, hkind] at hx
    | label n =>
      simp [Lexeme.spelledBy] at hx
      simp [startsWith, ← hx.2, hmem] at h
    | _ => simp [Lexeme.spelledBy, isOp_iff, hkind] at hx

/-- Where a primary expression starts, and not with a keyword of statements, a simple statement is read. -/
theorem statement_eq_simple (hstart : StartsPrimary (c.head inp))
    (hword : (c.head inp).isWordIn statementWords = false) :
    statement inp c = simpleStatement inp c := by
  have hreserved := hstart.operand.not_reserved
  have hother : ∀ word ∈ reservedWords ++ statementWords, (c.head inp).isWord word = false := by
    intro word hmem
    rcases mem_append.1 hmem with hmem | hmem
    · exact isWordIn_eq_false (by simpa using hmem) hreserved
    · exact isWordIn_eq_false (by simpa using hmem) hword
  have hopening : Opening.of? (c.head inp) = none := by
    have hsub : ∀ entry ∈ openings, entry.1 ∈ reservedWords ++ statementWords := by decide
    rw [Opening.of?, Option.map_eq_none_iff, find?_eq_none]
    intro entry hentry
    rw [hother _ (hsub entry hentry)]
    exact Bool.false_ne_true
  have hjump : jump? (c.head inp) = none := by
    simp [jump?, Jump.text, hother "break" (by decide), hother "continue" (by decide)]
  have hlower : reservedWords.contains (c.head inp).lower = false := by
    by_cases hkind : (c.head inp).kind = .ident
    · simpa [Token.isWordIn, Token.lower, hkind] using hreserved
    · rw [Token.lower, if_neg hkind]
      decide
  rw [statement, take_eq_none hopening, take_eq_none hjump]
  simp only [Option.filter_none, hlower, false_eq_true, if_false]

theorem reads_assignment {value : Expr} {op : AssignOp} {span : Span} (htarget : ReadsAccess inp false xs e)
    (hwords : startsWith statementWords xs = false) (hvalue : value.standsAlone leavesOut = true) :
    ReadsStmt inp (xs ++ .sign op.text :: value.lexemes true leavesOut) (.assignment e op value span) := by
  intro c d hspells hsemi
  obtain ⟨c₁, hxs, t, ts, hc₁, hop, hval⟩ := spells_append.1 hspells
  have hstop : ¬ Continues 5 (c₁.head inp) := by
    rw [head_eq hc₁]
    exact not_continues_of_sign hop (by cases op <;> decide) (by cases op <;> decide)
  obtain ⟨hstart, haccess⟩ := htarget.gives hxs hstop
  have hword : (c.head inp).isWordIn statementWords = false := not_word_of_startsWith hxs hwords (by
    simp [head_eq hc₁, Token.isWordIn, (isOp_iff.1 hop).1])
  refine ⟨hstart.operand.startsStmt, ?_⟩
  have hassign : assignOp? t = some op := by
    obtain ⟨hkind, htext⟩ := isOp_iff.1 hop
    cases op <;> simp [assignOp?, Token.isOp, Token.isOpIn, AssignOp.text, hkind, htext]
  obtain ⟨hlt, htake⟩ := take_eq_some hc₁ hassign
  rw [statement_eq_simple hstart hword, simpleStatement]
  refine haccess.andThen fun e' _ hsame => ?_
  rw [htake]
  refine (gives_expression_semicolon hvalue hval hsemi).andThen fun value' _ hsame' => .ok ?_
  simp [SameStmt, Stmt.unplaced, hsame.eq, hsame'.eq]

theorem statementCall?_unplaced (e : Expr) : statementCall? e.unplaced = (statementCall? e).map Call.unplaced := by
  cases e <;> rfl

theorem exists_readsAccess_call {call : Call} (hw : call.isWritable leavesOut = true) :
    ∃ e, ReadsAccess inp false (call.toExpr.lexemes true leavesOut) e ∧
      (statementCall? e).map Call.unplaced = some call.unplaced := by
  obtain ⟨callee, args, implicit, span⟩ := call
  simp only [Call.isWritable, and_eq_true] at hw
  cases implicit with
  | false => exact ⟨_, reads_own false _ hw.1 (by simp), rfl⟩
  | true =>
    simp only [if_true, and_eq_true, List.isEmpty_iff] at hw
    obtain ⟨⟨⟨rfl, hnaming⟩, hcallee⟩, -⟩ := hw
    cases callee with
    | name n quoted span' => exact ⟨.name n quoted span', reads_name (by simpa [Expr.isWritable] using hcallee), rfl⟩
    | member target n quoted span' =>
      simp only [Expr.isWritable, and_eq_true] at hcallee
      refine ⟨named false target n quoted, reads_member ((reads_own false target hcallee.1 (by simp)).at_level 5), ?_⟩
      rw [named]
      split <;> rfl
    | scope target n span' =>
      simp only [Expr.isWritable] at hcallee
      exact ⟨.scope target n span', reads_scope ((reads_own false target hcallee (by simp)).at_level 5), rfl⟩
    | _ => cases hnaming

theorem isError_unplaced (call : Call) : call.unplaced.isError = call.isError := by
  obtain ⟨callee, args, implicit, span⟩ := call
  cases callee <;> rfl

theorem unplaced_callStatement {call call' : Call} {span : Span} (h : call'.unplaced = call.unplaced) :
    (callStatement call' span').unplaced =
      (if call.isError then Stmt.error call span else .call call span).unplaced := by
  have herror : (call'.isGlobal && call'.method == "error") = call.isError := by
    rw [← isError_unplaced call, ← h, isError_unplaced call', Call.isError]
  rw [callStatement, herror]
  split <;> simp [Stmt.unplaced, h]

theorem reads_callStatement {call : Call} {span : Span} (hw : call.isWritable leavesOut = true) :
    ReadsStmt inp (call.toExpr.lexemes true leavesOut)
      (if call.isError then .error call span else .call call span) := by
  intro c d hspells hsemi
  obtain ⟨e, hread, hcall⟩ := exists_readsAccess_call hw
  have hstop : ¬ Continues 5 (d.head inp) := not_continues_of_sign hsemi (by decide) (by decide)
  obtain ⟨hkind, htext⟩ := isOp_iff.1 hsemi
  obtain ⟨hstart, haccess⟩ := hread.gives hspells hstop
  have hword : (c.head inp).isWordIn statementWords = false := by
    simp only [Call.isWritable, and_eq_true, not_eq_true'] at hw
    exact not_word_of_startsWith hspells hw.2 (by simp [Token.isWordIn, hkind])
  refine ⟨hstart.operand.startsStmt, ?_⟩
  have hassign : assignOp? (d.head inp) = none := by
    simp [assignOp?, Token.isOp, Token.isOpIn, AssignOp.text, htext]
  rw [statement_eq_simple hstart hword, simpleStatement]
  refine haccess.andThen fun e' _ hsame => ?_
  have hcall' : (statementCall? e').map Call.unplaced = some call.unplaced := by
    rw [← statementCall?_unplaced, hsame.eq, statementCall?_unplaced, hcall]
  obtain ⟨call', hsome, hunplaced⟩ := Option.map_eq_some_iff.1 hcall'
  rw [take_eq_none hassign]
  simp only [hsome]
  exact .ok (unplaced_callStatement hunplaced)

/-! ## Case statements -/

/-- The same branches and else part, at whatever places. -/
def SameParts (bs : List (Branch Stmt)) (elseBody : Option (List Stmt))
    (parts : List (Branch Stmt) × Option (List Stmt)) :
    Prop :=
  Stmt.branchesUnplaced parts.1 = Stmt.branchesUnplaced bs ∧ Stmt.elseUnplaced parts.2 = Stmt.elseUnplaced elseBody

/-- The lexemes are read as the else part of a case statement. -/
inductive ReadsOther (inp : Input) : List Lexeme → Option (List Stmt) → Prop where
  | none : ReadsOther inp [] none
  | some {xs : List Lexeme} {body : List Stmt} : ReadsList inp xs body →
      ReadsOther inp (.word "else" :: xs) (some body)

theorem gives_branches (start : Token)
    (hbranches : ∀ b ∈ bs, b.values ≠ [] ∧ Expr.areWritable b.values = true ∧
      ReadsList inp (Stmt.listLexemes false leavesOut b.body) b.body)
    (helse : ReadsOther inp xs elseBody) (hspells : c.Spells (Stmt.branchLexemes false leavesOut bs ++ xs) d)
    (hend : (d.head inp).isWord "end" = true) : (branches inp start c).Gives (SameParts bs elseBody) d := by
  induction bs generalizing c with
  | nil =>
    cases helse with
    | none =>
      obtain rfl : c = d := hspells
      rw [branches]
      simp only [hend, if_true]
      exact .ok ⟨rfl, rfl⟩
    | @some xs body hlist =>
      obtain ⟨t, ts, hc, hword, hbody⟩ := hspells
      obtain ⟨hkind, hvalue⟩ := isWord_iff.1 hword
      have hlist := hlist ["end"] (by decide) _ d hbody hend
      obtain ⟨hlt, haccept⟩ := acceptWord_eq_some hc hword
      have hother : (c.head inp).isWord "end" = false := by simp [head_eq hc, Token.isWord, Token.isWordIn, hvalue]
      have hgoes : ((c.head inp).kind == .eof || (c.head inp).isOp "\x7d") = false := by
        simp [head_eq hc, hkind, Token.isOp, Token.isOpIn]
      have hplain : (c.head inp).isOp ";" = false := by simp [head_eq hc, Token.isOp, Token.isOpIn, hkind]
      rw [branches]
      simp only [hother, hgoes, acceptOp_eq_none hplain, haccept, false_eq_true, if_false]
      generalize statements inp ["end"] (c.past t ts) = read at hlist
      obtain ⟨body', c₁, hle⟩ := read
      obtain ⟨rfl, hsames⟩ := hlist
      exact ⟨_, _, rfl, rfl, by rw [Stmt.elseUnplaced, hsames.eq, Stmt.elseUnplaced]⟩
  | cons b bs ih =>
    obtain ⟨values, body, span⟩ := b
    obtain ⟨hne, hvalues, hbody⟩ := hbranches _ mem_cons_self
    simp only [Stmt.branchLexemes, append_assoc, cons_append] at hspells
    obtain ⟨c₁, hvalues', t₁, ts₁, hc₁, hcolon, hrest⟩ := spells_append.1 hspells
    obtain ⟨c₂, hbody', t₂, ts₂, hc₂, hsemi, hrest⟩ := spells_append.1 hrest
    have hcolon' : (c₁.head inp).isOpIn ["]", ":", ")"] = true := by
      rw [head_eq hc₁]
      exact isOpIn_of_isOp hcolon (by simp)
    obtain ⟨hstart, hread⟩ := reads_expressions hne (reads_all values hvalues) hvalues' hcolon'
    have hword : ∀ word ∈ reservedWords, (c.head inp).isWord word = false := fun word hmem =>
      isWordIn_eq_false (by simpa using hmem) hstart.not_reserved
    obtain ⟨hlt, haccept⟩ := acceptOp_eq_some hc₂ hsemi
    have hothers := ih (fun b hmem => hbranches b (mem_cons_of_mem _ hmem)) hrest
    have hplain : (c.head inp).isOp ";" = false := hstart.not_op (by decide)
    have hgoes : ((c.head inp).kind == .eof || (c.head inp).isOp "\x7d") = false := by
      simp [hstart.startsStmt.kind, show (c.head inp).isOp "\x7d" = false from hstart.not_op (by decide)]
    rw [branches]
    simp only [hword "end" (by decide), hgoes, acceptOp_eq_none hplain, acceptWord_eq_none (hword "else" (by decide)),
      false_eq_true, if_false]
    refine hread.andThen fun values' _ hsame => (gives_expect hc₁ hcolon).andThen fun _ _ _ => ?_
    refine (gives_branch hbody hbody').andThen fun body' _ hsames => ?_
    simp only [haccept]
    refine hothers.andThen fun rest _ hparts => .ok ⟨?_, hparts.2⟩
    rw [Stmt.branchesUnplaced, hsame.eq, hsames.eq, hparts.1, Stmt.branchesUnplaced]

theorem reads_case {span : Span}
    (hselector : e.standsAlone leavesOut = true)
    (hbranches : ∀ b ∈ bs, b.values ≠ [] ∧ Expr.areWritable b.values = true ∧
      ReadsList inp (Stmt.listLexemes false leavesOut b.body) b.body)
    (helse : ReadsOther inp xs elseBody) :
    ReadsStmt inp (.word "case" :: (e.lexemes true leavesOut ++ .word "of" ::
      (Stmt.branchLexemes false leavesOut bs ++ (xs ++ [.word "end"])))) (.caseOf e bs elseBody span) := by
  refine reads_opening rfl (by decide) fun c d t ts hlt htake hspells _ => ?_
  obtain ⟨c₁, he, t₁, ts₁, hc₁, hof, hrest⟩ := spells_append.1 hspells
  rw [← append_assoc] at hrest
  obtain ⟨c₂, hparts, t₂, ts₂, hc₂, hend, rfl⟩ := spells_append.1 hrest
  have hread := gives_branches (c.head inp) hbranches helse hparts (by rw [head_eq hc₂]; exact hend)
  rw [statement, htake]
  refine (gives_expression_word hselector he hc₁ hof (by decide)).andThen fun e' _ hsame => ?_
  refine (gives_expect hc₁ hof).andThen fun _ _ _ => hread.andThen fun parts _ hsames => ?_
  refine (gives_expect hc₂ hend).andThen fun _ _ _ => .ok ?_
  simp [SameStmt, Stmt.unplaced, hsame.eq, hsames.1, hsames.2]

/-! ## All statements -/

theorem isWritable_of_mem {body : List Stmt} (hw : Stmt.areWritable leavesOut body = true) (hs : s ∈ body) :
    s.isWritable leavesOut = true := by
  induction body with
  | nil => cases hs
  | cons first rest ih =>
    simp only [Stmt.areWritable, and_eq_true] at hw
    rcases mem_cons.1 hs with rfl | hs
    · exact hw.1
    · exact ih hw.2 hs

theorem areWritable_of_mem_branches {b : Branch Stmt}
    (hw : Stmt.branchesWritable leavesOut bs = true) (hb : b ∈ bs) :
    b.values ≠ [] ∧ Expr.areWritable b.values = true ∧ Stmt.areWritable leavesOut b.body = true := by
  induction bs with
  | nil => cases hb
  | cons first rest ih =>
    obtain ⟨values, body, span⟩ := first
    simp only [Stmt.branchesWritable, and_eq_true, not_eq_true', isEmpty_eq_false_iff] at hw
    rcases mem_cons.1 hb with rfl | hb
    · exact ⟨hw.1.1.1, hw.1.1.2, hw.1.2⟩
    · exact ih hw.2 hb

theorem reads_stmt (s : Stmt) (hw : s.isWritable leavesOut = true) : ReadsStmt inp (s.lexemes false leavesOut) s := by
  induction s using Stmt.induct with
  | step s ih =>
    have hbody : ∀ body ∈ s.bodies, Stmt.areWritable leavesOut body = true →
        ReadsList inp (Stmt.listLexemes false leavesOut body) body := fun body hmem hw =>
      reads_list fun t ht => ih body hmem t ht (isWritable_of_mem hw ht)
    cases s with
    | assignment target op value span =>
      simp only [Stmt.isWritable, and_eq_true, not_eq_true'] at hw
      exact reads_assignment ((reads_own false target hw.1.1 (by simp)).at_level 5) hw.2 hw.1.2
    | call call span =>
      simp only [Stmt.isWritable, and_eq_true, not_eq_true'] at hw
      have hread : ReadsStmt inp _ (if call.isError then .error call span else .call call span) :=
        reads_callStatement hw.1
      rwa [hw.2] at hread
    | error call span =>
      simp only [Stmt.isWritable, and_eq_true] at hw
      have hread : ReadsStmt inp _ (if call.isError then .error call span else .call call span) :=
        reads_callStatement hw.1
      rwa [hw.2] at hread
    | ifThen condition thenBody elseBody span =>
      simp only [Stmt.isWritable, and_eq_true] at hw
      have hthen := hbody thenBody mem_cons_self hw.1.2
      cases elseBody with
      | none => exact reads_if hw.1.1 hthen
      | some elseBody => exact reads_if_else hw.1.1 hthen (hbody elseBody (by simp [Stmt.bodies]) hw.2)
    | caseOf selector branches elseBody span =>
      simp only [Stmt.isWritable, and_eq_true] at hw
      refine reads_case hw.1.1 (fun b hb => ?_) ?_
      · obtain ⟨hne, hvalues, hwritable⟩ := areWritable_of_mem_branches hw.1.2 hb
        refine ⟨hne, hvalues, hbody b.body ?_ hwritable⟩
        exact mem_append_left _ (mem_map_of_mem hb)
      · cases elseBody with
        | none => exact .none
        | some body => exact .some (hbody body (by simp [Stmt.bodies]) hw.2)
    | repeatUntil body condition span =>
      simp only [Stmt.isWritable, and_eq_true] at hw
      exact reads_repeat (hbody body mem_cons_self hw.1) hw.2
    | whileDo condition body span =>
      simp only [Stmt.isWritable, and_eq_true] at hw
      exact reads_while hw.1 (hbody body mem_cons_self hw.2)
    | forTo counter first last down body span =>
      cases counter with
      | name n quoted span' =>
        simp only [Stmt.isWritable, and_eq_true] at hw
        exact reads_for hw.1.1 hw.1.2 (hbody body mem_cons_self hw.2)
      | _ => cases hw
    | forEach item iterable body span =>
      cases item with
      | name n quoted span' =>
        simp only [Stmt.isWritable, and_eq_true] at hw
        exact reads_forEach hw.1 (hbody body mem_cons_self hw.2)
      | _ => cases hw
    | exit value span =>
      cases value with
      | none => exact reads_exit
      | some value => exact reads_exit_value hw
    | block body span => exact reads_block (hbody body mem_cons_self hw)
    | withDo target body span =>
      simp only [Stmt.isWritable, and_eq_true] at hw
      exact reads_with hw.1 (hbody body mem_cons_self hw.2)
    | jump j span => exact reads_jump

/-- **Reading statements inverts writing them.** Let statements be written, each with a semicolon behind it, up
to a word that ends the list: with `begin` and `end` around what stands behind `then`, `else`, `do` or the
values of a case branch, without them behind `repeat` and behind the `else` of a case statement. Reading gives
the statements back, up to places, stops at that word, and notes no issue. -/
theorem statements_invert_writing {inp : Input} {leavesOut : Expr → Bool} {body : List Stmt}
    {terminators : List String} {c d : Cursor} (hwritable : Stmt.areWritable leavesOut body = true)
    (hwords : ∀ word ∈ terminators, word ∈ reservedWords ∧ word ∉ openings.map Prod.fst)
    (hspells : c.Spells (Stmt.listLexemes false leavesOut body) d) (hend : (d.head inp).isWordIn terminators = true) :
    (statements inp terminators c).next = d ∧
      Stmt.allUnplaced (statements inp terminators c).value = Stmt.allUnplaced body ∧
      d.rest = c.rest.drop (Stmt.listLexemes false leavesOut body).length ∧ d.issues = c.issues := by
  have hends : ∀ word ∈ terminators, word ∈ listEnds := fun word hmem => by
    simpa [listEnds] using hwords word hmem
  have hlist : ReadsList inp (Stmt.listLexemes false leavesOut body) body :=
    reads_list fun s hs => reads_stmt s (isWritable_of_mem hwritable hs)
  obtain ⟨hnext, hsame⟩ := hlist terminators hends c d hspells hend
  exact ⟨hnext, hsame, hspells.rest_and_issues⟩

/-- `if A then begin Error('x'); end else begin end; case B of 1, 2 ..: begin repeat C.Next; until D; end; else
exit(1); end; for I := 1 downto 0 do begin E := F; break; end;` -/
def nestedBody : List Stmt :=
  let var name : Expr := .name name false default
  let number text : Expr := .constant text .number default
  let run callee args implicit : Stmt := .call ⟨callee, args, implicit, default⟩ default
  [.ifThen (var "A") [.error ⟨var "Error", [.constant "x" .string default], false, default⟩ default]
    (some []) default,
    .caseOf (var "B")
      [⟨[number "1", .binary .range (number "2") (.constant "" .string default) default],
        [.repeatUntil [run (.member (var "C") "Next" false default) [] true] (var "D") default], default⟩]
      (some [.exit (some (number "1")) default]) default,
    .forTo (var "I") (number "1") (number "0") true
      [.assignment (var "E") .set (var "F") default, .jump .leave default] default]

theorem statements_invert_nested_writing :
    let text := Stmt.listLexemes false (fun _ => true) nestedBody
    let read := statements ⟨"", (Lexeme.word "end").token⟩ ["end"] (ofLexemes (text ++ [.word "end"]))
    Stmt.areWritable (fun _ => true) nestedBody = true ∧ read.next.rest = [(Lexeme.word "end").token] ∧
      Stmt.allUnplaced read.value = Stmt.allUnplaced nestedBody ∧ read.next.issues = [] := by
  intro text read
  have hw : Stmt.areWritable (fun _ => true) nestedBody = true := by decide
  have hplain : ∀ x ∈ text, x.spelledBy x.token = true := by decide
  obtain ⟨d, hspells, hrest⟩ := exists_spells_ofLexemes hplain [.word "end"]
  have hend : (d.head ⟨"", (Lexeme.word "end").token⟩).isWordIn ["end"] = true := by
    rw [head_eq hrest]
    decide
  obtain ⟨hnext, hsame, -, hissues⟩ := statements_invert_writing hw (by decide) hspells hend
  exact ⟨hw, by rw [hnext, hrest]; rfl, hsame, by rw [hnext, hissues]; rfl⟩

/-- What is wrapped is read as a block, also where a list of statements is read. -/
theorem reads_wrapped {body : List Stmt} (span : Span) (h : ReadsList inp xs body) :
    ReadsList inp (wrapped xs) [.block body span] := by
  intro terminators hword c d hspells hend
  have hblock := gives_block h hspells
  obtain ⟨t, ts, hc, hbegin, -⟩ := hspells
  have hstart : StartsStmt (c.head inp) := by
    rw [head_eq hc]
    exact startsStmt_of_word hbegin (by decide)
  obtain ⟨hnext, s, hvalue, body', span', rfl, hsames⟩ := statements_last hword hstart hblock hend
  exact ⟨hnext, by rw [SameStmts, hvalue]; simp [Stmt.allUnplaced, Stmt.unplaced, hsames.eq]⟩

/-- `A();` -/
def plainRun : List Stmt := [.call ⟨.name "A" false default, [], false, default⟩ default]

theorem reads_plainRun : ReadsList inp (Stmt.listLexemes true (fun _ => false) plainRun) plainRun := by
  have hw : Stmt.areWritable (fun _ => false) plainRun = true := by decide
  have hread : ReadsList inp (Stmt.listLexemes false (fun _ => false) plainRun) plainRun :=
    reads_list fun s hs => reads_stmt s (isWritable_of_mem hw hs)
  exact hread

/-- `repeat A(); until B` -/
def plainRepeat : Stmt := .repeatUntil plainRun (.name "B" false default) default

/-- `case B of 1: begin end; else A(); end` -/
def plainCase : Stmt :=
  .caseOf (.name "B" false default) [⟨[.constant "1" .number default], [], default⟩] (some plainRun) default

/-- If all bodies of a statement are wrapped, it is read up to the `end` behind it, but as another one. -/
def MisreadIfWrapped (s : Stmt) : Prop :=
  let text := Stmt.listLexemes true (fun _ => false) [s]
  let inp : Input := ⟨"", (Lexeme.word "end").token⟩
  let read := statements inp ["end"] (ofLexemes (text ++ [.word "end"]))
  Stmt.areWritable (fun _ => false) [s] = true ∧ (ofLexemes (text ++ [.word "end"])).Spells text read.next ∧
    (read.next.head inp).isWordIn ["end"] = true ∧ Stmt.allUnplaced read.value ≠ Stmt.allUnplaced [s]

theorem misreadIfWrapped_of_reads (hw : Stmt.areWritable (fun _ => false) [s] = true)
    (hplain : ∀ x ∈ Stmt.listLexemes true (fun _ => false) [s], x.spelledBy x.token = true)
    (hread : ReadsStmt ⟨"", (Lexeme.word "end").token⟩ (s.lexemes true fun _ => false) s')
    (hother : Stmt.allUnplaced [s'] ≠ Stmt.allUnplaced [s]) : MisreadIfWrapped s := by
  obtain ⟨d, hspells, hrest⟩ := exists_spells_ofLexemes hplain [.word "end"]
  have hend : (d.head ⟨"", (Lexeme.word "end").token⟩).isWordIn ["end"] = true := by
    rw [head_eq hrest]
    decide
  obtain ⟨hnext, hsame⟩ := (hread.cons reads_nil) ["end"] (by decide) _ d hspells hend
  refine ⟨hw, hnext ▸ hspells, hnext ▸ hend, ?_⟩
  rw [hsame.eq]
  exact hother

/-- **Not every body can be wrapped.** `repeat begin A(); end until B` is read as a loop around a block, and the
else part of a case statement as a block if it is wrapped. -/
theorem wrapped_bodies_misread : MisreadIfWrapped plainRepeat ∧ MisreadIfWrapped plainCase := by
  let inp : Input := ⟨"", (Lexeme.word "end").token⟩
  have hname : (Expr.name "B" false default).standsAlone (fun _ => false) = true := by decide
  have hblock : ReadsList inp _ [.block plainRun default] := reads_wrapped default reads_plainRun
  constructor
  · have hread : ReadsStmt inp (plainRepeat.lexemes true fun _ => false)
        (.repeatUntil [.block plainRun default] (.name "B" false default) default) := reads_repeat hblock hname
    exact misreadIfWrapped_of_reads (by decide) (by decide) hread nofun
  · have hbranch : ∀ b ∈ [(⟨[.constant "1" .number default], [], default⟩ : Branch Stmt)], b.values ≠ [] ∧
        Expr.areWritable b.values = true ∧ ReadsList inp (Stmt.listLexemes false (fun _ => false) b.body) b.body := by
      intro b hb
      obtain rfl := mem_singleton.1 hb
      exact ⟨cons_ne_nil _ _, by decide, reads_nil⟩
    have hread : ReadsStmt inp (plainCase.lexemes true fun _ => false)
        (.caseOf (.name "B" false default) [⟨[.constant "1" .number default], [], default⟩]
          (some [.block plainRun default]) default) := reads_case hname hbranch (.some hblock)
    exact misreadIfWrapped_of_reads (by decide) (by decide) hread nofun

end AlLint.Reading
