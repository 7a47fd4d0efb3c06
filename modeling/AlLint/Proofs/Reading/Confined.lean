import AlLint.Proofs.Reading.Alike
import AlLint.Proofs.Reading.Advance
import AlLint.Proofs.Reading.ExprInverse

/-!
# A semicolon confines a damaged statement

Whatever stands before a semicolon, what stands behind it is read as if it stood alone: if there is no block,
no case statement and no loop up to `until` among the tokens before, which have semicolons of their own, and
nothing that ends the list of statements.

No reader of expressions takes a semicolon, and those of statements that go on behind one are out of the
question. So they read the tokens before it as if the text ended there, with the semicolon for its end
(`Input.upTo`), and what is behind it is left as it is (`statement_extends`). A list of statements therefore
gets to the semicolon, over statements that can be read and over others, and it passes it
(`exists_statements_flat`). Neither the token before nor the issues noted before change how it goes on
(`statements_anywhere`).
-/

namespace AlLint.Reading

open Cursor List

/-! ## More tokens behind a semicolon -/

abbrev Semicolon := { t : Token // t.isOp ";" = true }

namespace Cursor

/-- The cursor with a semicolon and more tokens behind those that are left. -/
def extend (c : Cursor) (semi : Semicolon) (more : List Token) : Cursor :=
  { c with rest := c.rest ++ semi.1 :: more }

end Cursor

/-- The input as if it ended with a semicolon. -/
def Input.upTo (inp : Input) (semi : Semicolon) : Input := { inp with eof := semi.1 }

section

variable {α : Type} {inp : Input} {semi : Semicolon} {more : List Token} {c : Cursor}

/-- The second reading has a semicolon and more tokens behind, and no list of statements starts before. -/
def extended (semi : Semicolon) (more : List Token) : Watch where
  __ := Watch.none
  Inner t := t.isWordIn ["begin", "case", "repeat"] = false
  behind := semi.1 :: more
  semicolon := by rintro t ⟨⟩; exact semi.2

instance : (Likeness.exact (extended semi more)).ForStatements where
  keeps_past _ _ _ := trivial
  keeps_report _ := trivial
  keeps_collected _ _ _ := trivial
  keeps_resume _ _ _ _ _ := trivial
  behind_eq_or := .inr fun _ => id

theorem Cursor.Like.eq_extend {d d' : Cursor} (h : d.Like (.exact (extended semi more)) d') :
    d' = d.extend semi more := by
  obtain ⟨⟨hlast⟩, ⟨front, hfront, hrest⟩, ⟨new, hissues, hnew⟩, -⟩ := h
  obtain rfl := Token.Likes.eq_of_exact hrest
  obtain rfl := Issue.eq_of_exact hnew
  obtain ⟨last', rest', issues'⟩ := d'
  exact congr (congrArg₂ Cursor.mk hlast.symm hfront) hissues.symm

/-- A statement before a semicolon is read as if the text ended there. -/
theorem statement_extends (inp : Input) (semi : Semicolon) (more : List Token)
    (hc : ∀ t ∈ c.rest, t.isWordIn ["begin", "case", "repeat"] = false) :
    match statement (inp.upTo semi) c with
    | .fail issue d _ => ∃ h, statement inp (c.extend semi more) = .fail issue (d.extend semi more) h
    | .ok s d _ => ∃ h, statement inp (c.extend semi more) = .ok s (d.extend semi more) h := by
  have hlike : c.Like (.exact (extended semi more)) (c.extend semi more) := .exact rfl rfl rfl hc trivial
  have hs := statement_like (show (inp.upTo semi).Like _ inp from .exact inp) hlike
  generalize statement (inp.upTo semi) c = x at hs ⊢
  generalize statement inp (c.extend semi more) = x' at hs ⊢
  cases hs with
  | fail hissue hd =>
    cases Issue.eq_of_exact (.cons hissue .nil)
    cases hd.eq_extend
    exact ⟨_, rfl⟩
  | ok ha hd =>
    have ha : Stmt.seen .plain _ = Stmt.seen .plain _ := ha
    rw [Stmt.seen_plain, Stmt.seen_plain] at ha
    cases ha
    cases hd.eq_extend
    exact ⟨_, rfl⟩

/-! ## Lists of statements -/

/-- What was read, and where reading stopped. -/
def Read.result {n : Nat} (x : Read α n) : α × Cursor := (x.value, x.next)

/-- How a list goes on after a statement that starts with `t` and goes on in `ts`. -/
def goOn (inp : Input) (terminators : List String) (t : Token) (ts : List Token) {n : Nat} :
    Outcome Stmt n → List Stmt × Cursor
  | .fail issue d _ =>
    (statements inp terminators (resumeStatement terminators t ts
      (d.report issue.complaint issue.span))).result
  | .ok s d _ =>
    match d.acceptOp ";" with
    | some (_, e) => (statements inp terminators e.1).result.map (s :: ·) id
    | none =>
      if endsList terminators (d.head inp) then ([s], d)
      else (statements inp terminators (d.report (.unterminatedStatement (d.head inp).found)
        (d.head inp).span)).result.map (s :: ·) id

theorem result_statements (inp : Input) {terminators : List String} {t : Token} {ts : List Token}
    (hc : c.rest = t :: ts) (hends : endsList terminators t = false) (ht : t.isOp ";" = false) :
    (statements inp terminators c).result = goOn inp terminators t ts (statement inp c) := by
  rw [statements.eq_def]
  split
  · next hnil => cases hnil.symm.trans hc
  · next t' ts' hc' =>
    cases hc'.symm.trans hc
    simp only [hends, ht, Bool.false_eq_true, if_false]
    cases statement inp c with
    | fail issue d h => rfl
    | ok s d h =>
      dsimp only [goOn]
      cases d.acceptOp ";" with
      | some found => rfl
      | none =>
        dsimp only
        split <;> rfl

/-- Tokens among which a list of statements neither ends nor gets to a semicolon, and no other list of
statements starts. -/
def Flat (terminators : List String) (ts : List Token) : Prop :=
  ∀ t ∈ ts, t.kind ≠ .eof ∧ t.isOpIn [";", "\x7d"] = false ∧
    t.isWordIn ("begin" :: "case" :: "repeat" :: terminators) = false

namespace Flat

variable {terminators : List String} {t : Token} {ts : List Token}

theorem suffix {us : List Token} (h : Flat terminators ts) (hus : us <:+ ts) : Flat terminators us :=
  fun t ht => h t (hus.subset ht)

theorem isOp (h : Flat terminators (t :: ts)) {op : String} (hop : op ∈ [";", "\x7d"]) :
    t.isOp op = false := by
  refine Bool.eq_false_iff.2 fun heq => ?_
  have hnone := (h t mem_cons_self).2.1
  rw [Token.isOpIn_of_isOp heq hop] at hnone
  cases hnone

theorem isWordIn (h : Flat terminators (t :: ts)) {words : List String}
    (hwords : words ⊆ "begin" :: "case" :: "repeat" :: terminators) : t.isWordIn words = false := by
  refine Bool.eq_false_iff.2 fun hword => ?_
  obtain ⟨hkind, hmem⟩ := Token.isWordIn_iff.1 hword
  have hnone := (h t mem_cons_self).2.2
  rw [Token.isWordIn_iff.2 ⟨hkind, hwords hmem⟩] at hnone
  cases hnone

theorem endsList (h : Flat terminators (t :: ts)) : Reading.endsList terminators t = false := by
  rw [Reading.endsList, h.isOp (by decide), h.isWordIn (subset_append_right [_, _, _] _),
    beq_eq_false_iff_ne.2 (h t mem_cons_self).1]
  rfl

theorem closer? (h : Flat terminators (t :: ts)) : Reading.closer? t = none := by
  rw [Reading.closer?, Token.isWord, h.isWordIn (show ["begin", "case"] ⊆ _ by simp),
    h.isWordIn (show ["repeat"] ⊆ _ by simp)]
  rfl

theorem plain (h : Flat terminators ts) : ∀ t ∈ ts, t.isWordIn ["begin", "case", "repeat"] = false := by
  intro t ht
  obtain ⟨us, vs, hus⟩ := append_of_mem ht
  exact (h.suffix ⟨us, hus.symm⟩).isWordIn (by simp)

end Flat

theorem skipStatement_flat (semi : Semicolon) {terminators : List String} (stops : List String)
    {ts : List Token} (hts : Flat terminators ts) (last : Token) (issues : List Issue) :
    (∃ d : Cursor, d.rest <:+ ts ∧ ∀ more, skipStatement stops [] last issues (ts ++ semi.1 :: more) =
      d.extend semi more) ∨
    ∀ more, skipStatement stops [] last issues (ts ++ semi.1 :: more) = ⟨semi.1, more, issues⟩ := by
  induction ts generalizing last with
  | nil =>
    refine .inr fun more => ?_
    have hcloser : closer? semi.1 = none := by
      rw [closer?, isWordIn_of_isOpIn semi.2, isWord_of_isOpIn semi.2]; rfl
    simp only [nil_append, skipStatement, isOp_of_isOpIn semi.2 (show "\x7d" ∉ _ by decide), hcloser,
      semi.2, Bool.false_eq_true, if_false, if_true]
  | cons t ts ih =>
    simp only [cons_append, skipStatement, hts.isOp (show "\x7d" ∈ _ by decide),
      hts.isOp (show ";" ∈ _ by decide), hts.closer?,
      Bool.false_eq_true, if_false]
    by_cases hstop : t.isWordIn stops = true
    · exact .inl ⟨⟨last, t :: ts, issues⟩, suffix_rfl, fun more => by rw [if_pos hstop]; rfl⟩
    · simp only [hstop, Bool.false_eq_true, if_false]
      rcases ih (hts.suffix (suffix_cons t ts)) t with ⟨d, hd, hskip⟩ | hskip
      · exact .inl ⟨d, hd.trans (suffix_cons t ts), hskip⟩
      · exact .inr hskip

theorem resumeStatement_flat (semi : Semicolon) {terminators : List String} {t : Token} {ts : List Token}
    (hts : Flat terminators (t :: ts)) {d : Cursor} (hd : Flat terminators d.rest) :
    (∃ e : Cursor, e.size ≤ ts.length ∧ Flat terminators e.rest ∧
      ∀ more, resumeStatement terminators t (ts ++ semi.1 :: more) (d.extend semi more) =
        e.extend semi more) ∨
    ∀ more, resumeStatement terminators t (ts ++ semi.1 :: more) (d.extend semi more) =
      ⟨semi.1, more, d.issues⟩ := by
  have hsize : ∀ more, (d.extend semi more).size ≤ (ts ++ semi.1 :: more).length ↔ d.size ≤ ts.length := by
    intro more
    simp only [size, extend, length_append]
    omega
  simp only [resumeStatement, hsize, hts.closer?]
  by_cases hle : d.size ≤ ts.length
  · simp only [hle, if_true]
    rcases skipStatement_flat semi ("end" :: "until" :: "else" :: terminators) hd d.last d.issues
      with ⟨e, he, hskip⟩ | hskip
    · exact .inl ⟨e, Nat.le_trans he.length_le hle, hd.suffix he, hskip⟩
    · exact .inr hskip
  · simp only [hle, if_false]
    have hts' := hts.suffix (suffix_cons t ts)
    rcases skipStatement_flat semi ("end" :: "until" :: "else" :: terminators) hts' t d.issues
      with ⟨e, he, hskip⟩ | hskip
    · exact .inl ⟨e, he.length_le, hts'.suffix he, hskip⟩
    · exact .inr hskip

theorem result_statements_semicolon (semi : Semicolon) (inp : Input) (terminators : List String)
    (last : Token) (issues : List Issue) :
    (statements inp terminators ⟨last, semi.1 :: more, issues⟩).result =
      (statements inp terminators ⟨semi.1, more, issues⟩).result := by
  have hends : endsList terminators semi.1 = false := by
    simp [endsList, kind_of_isOpIn semi.2, isOp_of_isOpIn semi.2 (show "\x7d" ∉ _ by decide),
      isWordIn_of_isOpIn semi.2]
  rw [statements.eq_def]
  simp only [hends, semi.2, Bool.false_eq_true, if_false, if_true]
  rfl

/-- A list of statements gets to the semicolon and goes on behind it, with what was read and what was noted up
to there. -/
theorem exists_statements_flat (inp : Input) (semi : Semicolon) (terminators : List String) (c : Cursor)
    (hc : Flat terminators c.rest) :
    ∃ body issues, ∀ more, (statements inp terminators (c.extend semi more)).result =
      (statements inp terminators ⟨semi.1, more, issues⟩).result.map (body ++ ·) id := by
  induction hn : c.size using Nat.strongRecOn generalizing c with
  | _ n ih =>
  have hlead := (leads_statement (inp.upTo semi) c).suffix
  have hext := fun more => statement_extends inp semi more hc.plain
  obtain ⟨last, _ | ⟨t, ts⟩, issues⟩ := c
  · exact ⟨[], issues, fun more => result_statements_semicolon semi inp terminators last issues⟩
  have hstep := fun more => result_statements inp
    (c := (⟨last, t :: ts, issues⟩ : Cursor).extend semi more) rfl
    hc.endsList (hc.isOp (show ";" ∈ _ by decide))
  generalize statement (inp.upTo semi) ⟨last, t :: ts, issues⟩ = x at hlead hext
  cases x with
  | fail issue d h =>
    rcases resumeStatement_flat semi hc (d := d.report issue.complaint issue.span) (hc.suffix hlead)
      with ⟨e, hle, he, hresume⟩ | hresume
    · obtain ⟨body, issues', hrun⟩ := ih e.size (hn ▸ Nat.lt_succ_of_le hle) e he rfl
      refine ⟨body, issues', fun more => ?_⟩
      obtain ⟨_, hs⟩ := hext more
      rw [hstep, hs]
      exact (congrArg (fun d => (statements inp terminators d).result) (hresume more)).trans (hrun more)
    · refine ⟨[], d.issues ++ [issue], fun more => ?_⟩
      obtain ⟨_, hs⟩ := hext more
      rw [hstep, hs]
      exact congrArg (fun d => (statements inp terminators d).result) (hresume more)
  | ok s d h =>
    obtain ⟨last', _ | ⟨u, us⟩, issues'⟩ := d
    · refine ⟨[s], issues', fun more => ?_⟩
      obtain ⟨_, hs⟩ := hext more
      obtain ⟨_, haccept⟩ := acceptOp_eq_some
        (c := (⟨last', [], issues'⟩ : Cursor).extend semi more) rfl semi.2
      rw [hstep, hs, goOn, haccept]
      rfl
    · have hu := hc.suffix hlead
      obtain ⟨body, issues'', hrun⟩ := ih _ (hn ▸ h)
        (Cursor.report ⟨last', u :: us, issues'⟩ (.unterminatedStatement u.found) u.span) hu rfl
      refine ⟨s :: body, issues'', fun more => ?_⟩
      obtain ⟨_, hs⟩ := hext more
      have haccept : ((⟨last', u :: us, issues'⟩ : Cursor).extend semi more).acceptOp ";" = none :=
        acceptOp_eq_none (show (Cursor.head _ inp).isOp ";" = false from hu.isOp (by decide))
      rw [hstep, hs, goOn, haccept]
      dsimp only
      rw [if_neg (by rw [show Cursor.head _ inp = u from rfl, hu.endsList]; decide)]
      exact congrArg (Prod.map (s :: ·) id) (hrun more)

/-! ## What came before does not matter -/

/-- Outcomes from two cursors that differ in the token before them: they are the same, or both readers fail
where they started. -/
def FromHere (last last' : Token) (rest : List Token) (issues : List Issue) (x x' : Outcome α rest.length) :
    Prop :=
  x = x' ∨ ∃ issue, x = .fail issue ⟨last, rest, issues⟩ (Nat.le_refl _) ∧
    x' = .fail issue ⟨last', rest, issues⟩ (Nat.le_refl _)

section

variable (inp : Input) (last last' : Token) (rest : List Token) (issues : List Issue)

theorem FromHere.andThen {β : Type} {x x' : Outcome α rest.length} (h : FromHere last last' rest issues x x')
    (k : (a : α) → (d : Cursor) → d.size < rest.length → Outcome β rest.length) :
    FromHere last last' rest issues (x.andThen k) (x'.andThen k) := by
  obtain rfl | ⟨issue, rfl, rfl⟩ := h
  · exact .inl rfl
  · exact .inr ⟨issue, rfl, rfl⟩

theorem take_last (g : Token → Option α) :
    Cursor.take ⟨last, rest, issues⟩ g = Cursor.take ⟨last', rest, issues⟩ g := by
  cases rest <;> rfl

theorem primary_last : FromHere last last' rest issues (primary inp ⟨last, rest, issues⟩)
    (primary inp ⟨last', rest, issues⟩) := by
  rw [primary.eq_def, primary.eq_def inp ⟨last', rest, issues⟩, take_last last last']
  cases Cursor.take ⟨last', rest, issues⟩ Start.of? with
  | none => exact .inr ⟨_, rfl, rfl⟩
  | some found =>
    obtain ⟨start, d, hd⟩ := found
    cases start <;> exact .inl rfl

theorem simpleStatement_last :
    FromHere last last' rest issues (simpleStatement inp ⟨last, rest, issues⟩)
      (simpleStatement inp ⟨last', rest, issues⟩) := by
  unfold simpleStatement
  rw [access.eq_def, access.eq_def inp ⟨last', rest, issues⟩]
  exact ((primary_last inp last last' rest issues).andThen _ _ _ _ _).andThen _ _ _ _ _

/-- A statement that can be read starts with a token, and is read from there. -/
theorem statement_last :
    FromHere last last' rest issues (statement inp ⟨last, rest, issues⟩)
      (statement inp ⟨last', rest, issues⟩) := by
  rw [statement.eq_def, statement.eq_def inp ⟨last', rest, issues⟩, take_last last last',
    take_last last last']
  cases Cursor.take ⟨last', rest, issues⟩ Opening.of? with
  | some found =>
    obtain ⟨opening, d, hd⟩ := found
    cases opening <;> exact .inl rfl
  | none =>
    dsimp only
    cases (Cursor.take ⟨last', rest, issues⟩ jump?).filter fun found => endsJump (found.2.1.head inp) with
    | some found => exact .inl rfl
    | none =>
      dsimp only
      rw [show Cursor.head ⟨last, rest, issues⟩ inp = Cursor.head ⟨last', rest, issues⟩ inp from rfl]
      by_cases hword : reservedWords.contains (Cursor.head ⟨last', rest, issues⟩ inp).lower = true
      · rw [if_pos hword, if_pos hword]
        exact .inr ⟨_, rfl, rfl⟩
      · rw [if_neg hword, if_neg hword]
        exact simpleStatement_last inp last last' rest issues

theorem statements_after_any (terminators : List String) :
    (statements inp terminators ⟨last, rest, issues⟩).value =
      (statements inp terminators ⟨last', rest, issues⟩).value ∧
    (statements inp terminators ⟨last, rest, issues⟩).next.rest =
      (statements inp terminators ⟨last', rest, issues⟩).next.rest ∧
    (statements inp terminators ⟨last, rest, issues⟩).next.issues =
      (statements inp terminators ⟨last', rest, issues⟩).next.issues := by
  have hsame : ∀ {n m : Nat} {x : Read (List Stmt) n} {y : Read (List Stmt) m}, x.result = y.result →
      x.value = y.value ∧ x.next.rest = y.next.rest ∧ x.next.issues = y.next.issues := by
    intro n m x y h
    obtain ⟨hvalue, hnext⟩ := Prod.mk.inj h
    exact ⟨hvalue, congrArg Cursor.rest hnext, congrArg Cursor.issues hnext⟩
  cases rest with
  | nil =>
    rw [statements.eq_def, statements.eq_def inp terminators ⟨last', [], issues⟩]
    exact ⟨rfl, rfl, rfl⟩
  | cons t ts =>
    cases hends : endsList terminators t with
    | true =>
      rw [statements.eq_def, statements.eq_def inp terminators ⟨last', t :: ts, issues⟩]
      simp only [hends, if_true, and_self]
    | false =>
      cases ht : t.isOp ";" with
      | true =>
        refine hsame ?_
        exact (result_statements_semicolon ⟨t, ht⟩ inp _ _ _).trans
          (result_statements_semicolon ⟨t, ht⟩ inp _ _ _).symm
      | false =>
        refine hsame ?_
        rw [result_statements inp rfl hends ht, result_statements inp
          (c := ⟨last', t :: ts, issues⟩) rfl hends ht]
        obtain h | ⟨issue, h, h'⟩ := statement_last inp last last' (t :: ts) issues
        · rw [h]
        · have hresume : ∀ last, resumeStatement terminators t ts
            (Cursor.report ⟨last, t :: ts, issues⟩ issue.complaint issue.span) =
              skipStatement ("end" :: "until" :: "else" :: terminators) (closer? t).toList t
                (issues ++ [issue]) ts :=
            fun _ => if_neg (Nat.not_succ_le_self _)
          rw [h, h', goOn, goOn, hresume, hresume]

/-- A list of statements is read in the same way whatever came before it. -/
theorem statements_anywhere (terminators : List String) :
    (statements inp terminators ⟨last, rest, issues⟩).value =
      (statements inp terminators ⟨last', rest, []⟩).value ∧
    (statements inp terminators ⟨last, rest, issues⟩).next.rest =
      (statements inp terminators ⟨last', rest, []⟩).next.rest ∧
    (statements inp terminators ⟨last, rest, issues⟩).next.issues =
      issues ++ (statements inp terminators ⟨last', rest, []⟩).next.issues := by
  obtain ⟨hvalue, hrest, hissues⟩ := statements_after_any inp last last' rest issues terminators
  obtain ⟨hlike, hnext⟩ := statements_like (show inp.Like _ inp from .exact inp) terminators
    (.among last' rest issues)
  have hlike : Stmt.seenAll .plain _ = Stmt.seenAll .plain _ := hlike
  rw [Stmt.seenAll_plain, Stmt.seenAll_plain] at hlike
  obtain ⟨new, hnew, hnotes⟩ := hnext.issues
  refine ⟨hvalue.trans hlike, hrest.trans (Token.Likes.eq_of_exact hnext.likes), ?_⟩
  rw [hissues, hnew, Issue.eq_of_exact hnotes]
  rfl

end

end

/-- **A semicolon confines a damaged statement.** What a list of statements makes of some flat tokens, a
semicolon and more is what it makes of the tokens and the semicolon, and then what it makes of the rest alone:
statements and issues one after the other, and it stops where it stops in the rest. -/
theorem statements_confined (inp : Input) (terminators : List String) {semi : Token}
    (hsemi : semi.isOp ";" = true) {garbage : List Token}
    (h : Flat terminators garbage) (more : List Token) (last last' last'' : Token) (issues : List Issue) :
    let whole := statements inp terminators ⟨last, garbage ++ semi :: more, issues⟩
    let first := statements inp terminators ⟨last', garbage ++ [semi], []⟩
    let second := statements inp terminators ⟨last'', more, []⟩
    whole.value = first.value ++ second.value ∧ whole.next.issues = issues ++ first.next.issues ++
      second.next.issues ∧
      whole.next.rest = second.next.rest ∧ first.next.rest = [] := by
  intro whole first second
  obtain ⟨body, noted, hrun⟩ := exists_statements_flat inp ⟨semi, hsemi⟩ terminators ⟨last, garbage, issues⟩ h
  have hwhole : whole.result = _ := hrun more
  have halone : (statements inp terminators ⟨last, garbage ++ [semi], issues⟩).result =
    (body, ⟨semi, [], noted⟩) := by
    have hnil : (statements inp terminators ⟨semi, [], noted⟩).result = ([], ⟨semi, [], noted⟩) := by
      rw [statements.eq_def]
      rfl
    refine (hrun []).trans ?_
    rw [hnil, Prod.map_apply, append_nil, id]
  obtain ⟨hvalue, hnext⟩ := Prod.mk.inj hwhole
  obtain ⟨hbody, hend⟩ := Prod.mk.inj halone
  obtain ⟨hfirst, hrest, hissues⟩ := statements_anywhere inp last last' (garbage ++ [semi]) issues terminators
  obtain ⟨hsecond, hrest', hissues'⟩ := statements_anywhere inp semi last'' more noted terminators
  rw [hend] at hrest hissues
  refine ⟨?_, ?_, ?_, hrest.symm⟩
  · rw [hvalue, ← hfirst, hbody]
    exact congrArg (body ++ ·) hsecond
  · rw [hnext]
    exact hissues'.trans (congrArg (· ++ _) hissues)
  · rw [hnext]
    exact hrest'

/-- A condition with an open parenthesis, and words that close what was never opened. -/
theorem statements_confined_open_condition :
    let inp : Input := ⟨"", (Lexeme.sign "").token⟩
    let garbage := [Lexeme.word "if", .sign "(", .name "X" false, .word "then", .word "else", .word "until",
      .sign ")"].map Lexeme.token
    let more := [Lexeme.name "Y" false, .sign "(", .sign ")", .sign ";", .word "end"].map Lexeme.token
    let semi := (Lexeme.sign ";").token
    let whole := statements inp ["end"] ⟨semi, garbage ++ semi :: more, []⟩
    let first := statements inp ["end"] ⟨semi, garbage ++ [semi], []⟩
    let second := statements inp ["end"] ⟨semi, more, []⟩
    Flat ["end"] garbage ∧ semi.isOp ";" = true ∧ whole.value = first.value ++ second.value ∧
      whole.next.issues = [] ++ first.next.issues ++ second.next.issues ∧ whole.next.rest = second.next.rest ∧
        first.next.rest = [] := by
  intro inp garbage more semi
  have hflat : Flat ["end"] garbage := by
    unfold Flat
    decide +kernel
  have hsemi : semi.isOp ";" = true := by decide
  exact ⟨hflat, hsemi, statements_confined inp ["end"] hsemi hflat more semi semi semi []⟩

end AlLint.Reading
