import AlLint.Proofs.Reading.Arguments
import AlLint.Proofs.Reading.Outline

/-!
# Where readers put spans

A reader computes a span from the token at which it starts and the last token that was passed, and recovery
moves the latter too. What keeps the spans in order all the same is how many tokens are left: a node starts
where `a` tokens are left and ends where `b` are, and whatever is read from one cursor to a later one stays
between the numbers of tokens that these have left.

`Laid ts a b os` says that the outlines `os` come one after another between two such numbers, and `Finds ts c
d os` that this is so from the cursor `c` to the cursor `d`. What is found up to a cursor goes before what is
found from it (`Finds.append`), tokens may be passed at either end (`Finds.skip`), and a node is put over what
was found since it started (`Finds.row`). No reader does anything else.
-/

namespace AlLint.Reading

open Cursor Outline

/-- A span over the tokens from where `a` of `ts` are left to where `b` are. -/
structure Spans (ts : List Token) (a b : Nat) (s : Span) : Prop where
  lt : b < a
  le : a ≤ ts.length
  covers : ∃ first last, ts[ts.length - a]? = some first ∧ ts[ts.length - (b + 1)]? = some last ∧
    s = Span.covering first.span last.span

/-- Outlines that come one after another from where `a` of the tokens `ts` are left to where `b` are. The rows
of a node are interleaved in some way. -/
inductive Laid (ts : List Token) : Nat → Nat → List Outline → Prop where
  | nil {a b : Nat} : b ≤ a → Laid ts a b []
  | cons {a a' b' b : Nat} {s : Span} {rows : List (List Outline)} {loose mixed os : List Outline} :
      a' ≤ a → Spans ts a' b' s → Laid ts a' b' mixed → (∀ row ∈ rows, row.Sublist mixed) →
        mixed.Perm rows.flatten →
      (∀ o ∈ loose, Laid ts a' b' [o]) → Laid ts b' b os → Laid ts a b (.node s rows loose :: os)

namespace Laid

variable {ts : List Token} {a a' b b' : Nat} {s : Span} {os os' : List Outline}

theorem le (h : Laid ts a b os) : b ≤ a := by
  induction h with
  | nil h => exact h
  | cons ha hs _ _ _ _ _ _ _ ih =>
    have := hs.lt
    omega

theorem mono (h : Laid ts a b os) (ha : a ≤ a') (hb : b' ≤ b) : Laid ts a' b' os := by
  induction h generalizing a' with
  | nil h => exact .nil (by omega)
  | cons ha' hs hmixed hrows hperm hloose _ _ _ ih =>
    exact .cons (by omega) hs hmixed hrows hperm hloose (ih (Nat.le_refl _) hb)

theorem append {m : Nat} (h : Laid ts a m os) (h' : Laid ts m b os') : Laid ts a b (os ++ os') := by
  induction h with
  | nil h => exact h'.mono h (Nat.le_refl _)
  | cons ha hs hmixed hrows hperm hloose _ _ _ ih => exact .cons ha hs hmixed hrows hperm hloose (ih h')

theorem node {rows : List (List Outline)} {loose mixed : List Outline} (hs : Spans ts a b s)
    (h : Laid ts a b mixed)
    (hrows : ∀ row ∈ rows, row.Sublist mixed) (hperm : mixed.Perm rows.flatten)
    (hloose : ∀ o ∈ loose, Laid ts a b [o]) :
    Laid ts a b [.node s rows loose] :=
  .cons (Nat.le_refl _) hs h hrows hperm hloose (.nil (Nat.le_refl _))

theorem row (hs : Spans ts a b s) (h : Laid ts a b os) : Laid ts a b [.row s os] := by
  refine node hs h ?_ (by simp) nofun
  intro os' hos'
  rw [List.mem_singleton.1 hos']

theorem of_row (h : Laid ts a b [.row s os]) : Laid ts a b os := by
  cases h with
  | cons ha hs hmixed hrows hperm _ hrest =>
    have hsub := hrows os List.mem_cons_self
    rw [List.flatten_singleton] at hperm
    rw [hsub.eq_of_length hperm.length_eq.symm]
    exact hmixed.mono ha hrest.le

end Laid

/-! ## Between two cursors -/

/-- Tokens in the order in which they stand in a text. -/
abbrev Rising (ts : List Token) : Prop := ts.Pairwise fun t u => t.start < u.start

/-- The last of the tokens of a text are left. -/
structure Among (ts : List Token) (c : Cursor) : Prop where
  rising : Rising ts
  suffix : c.rest <:+ ts

/-- From `c` to `d` the outlines `os` are found. -/
structure Finds (ts : List Token) (c d : Cursor) (os : List Outline) : Prop where
  among : Among ts c
  leads : c.Leads d
  laid : Laid ts c.size d.size os

/-- Where tokens were passed since `c`, they go from the one at `c` to the last one. -/
theorem spans_covering (inp : Input) {ts : List Token} {c d : Cursor} (hc : c.rest <:+ ts) (hl : c.Leads d)
    (hlt : d.size < c.size) :
    Spans ts c.size d.size (Span.covering (c.head inp).span d.last.span) := by
  obtain ⟨before, hbefore⟩ := hc
  obtain ⟨read, -, hread, hlast, -⟩ := hl
  have hlength : c.size = read.length + d.size := by rw [size, hread, List.length_append]
  have htotal : ts.length = before.length + c.size := by rw [← hbefore, List.length_append]
  cases read with
  | nil =>
    rw [List.length_nil] at hlength
    omega
  | cons t more =>
    rw [List.length_cons] at hlength
    have hhead : c.head inp = t := by rw [head, hread]; rfl
    have hlast' : (t :: more).getLast? = some d.last := by rw [hlast, List.getLast?_cons, Option.getD_some]
    have htokens : ts = before ++ ((t :: more) ++ d.rest) := by rw [← hbefore, hread]
    rw [hhead]
    refine ⟨hlt, by omega, t, d.last, ?_, ?_, rfl⟩
    · rw [htotal, Nat.add_sub_cancel, htokens]
      simp
    · have hindex : ts.length - (d.size + 1) = before.length + more.length := by omega
      rw [hindex, htokens, List.getElem?_append_right (by omega), Nat.add_sub_cancel_left,
        List.getElem?_append_left (by simp), ← hlast', List.getLast?_eq_getElem?, List.length_cons,
          Nat.add_sub_cancel]

/-- The last token that was passed since `c` is the one at `c`, or it comes after it. -/
theorem spanFrom_eq {inp : Input} {ts : List Token} {c d : Cursor} (hts : Rising ts) (hc : c.rest <:+ ts)
    (hl : c.Leads d)
    (hlt : d.size < c.size) : d.spanFrom (c.head inp) = Span.covering (c.head inp).span d.last.span := by
  obtain ⟨read, -, hread, hlast, -⟩ := hl
  rw [spanFrom, if_neg]
  cases read with
  | nil =>
    have hsize : c.size = d.size := congrArg List.length hread
    omega
  | cons t more =>
    have hhead : c.head inp = t := by rw [head, hread]; rfl
    have hmem : d.last ∈ t :: more := List.mem_of_getLast?
      (by rw [hlast, List.getLast?_cons, Option.getD_some])
    have hrising : Rising (t :: more) := by
      refine hts.sublist (.trans ?_ hc.sublist)
      rw [hread]
      exact List.sublist_append_left _ _
    rw [hhead]
    rcases List.mem_cons.1 hmem with heq | hmem
    · rw [heq]
      exact Nat.lt_irrefl _
    · exact Nat.lt_asymm (List.rel_of_pairwise_cons hrising hmem)

theorem spans_spanFrom {inp : Input} {ts : List Token} {c d : Cursor} (hts : Rising ts) (hc : c.rest <:+ ts)
    (hl : c.Leads d) (hlt : d.size < c.size) : Spans ts c.size d.size (d.spanFrom (c.head inp)) := by
  rw [spanFrom_eq hts hc hl hlt]
  exact spans_covering inp hc hl hlt

theorem Among.past {ts : List Token} {c d : Cursor} (h : Among ts c) (hl : c.Leads d) : Among ts d :=
  ⟨h.rising, hl.suffix.trans h.suffix⟩

theorem leads_skipOp (c : Cursor) (op : String) : c.Leads (c.skipOp op).1 := by
  unfold skipOp
  split
  · next hop => exact leads_of_take hop
  · exact .refl c

namespace Finds

variable {ts : List Token} {c d e : Cursor} {os os' : List Outline}

theorem here (hc : Among ts c) : Finds ts c c [] := ⟨hc, .refl c, .nil (Nat.le_refl _)⟩

theorem rest (h : Finds ts c d os) : Among ts d := h.among.past h.leads

theorem append (h : Finds ts c d os) (h' : Finds ts d e os') : Finds ts c e (os ++ os') :=
  ⟨h.among, h.leads.trans h'.leads, h.laid.append h'.laid⟩

theorem past (h : Finds ts c d os) (hl : d.Leads e) : Finds ts c e os :=
  ⟨h.among, h.leads.trans hl, h.laid.mono (Nat.le_refl _) hl.suffix.length_le⟩

theorem take {β : Type} {f : Token → Option β} {b : β} {hlt : e.size < d.size} (h : Finds ts c d os)
    (hop : d.take f = some (b, ⟨e, hlt⟩)) : Finds ts c e os :=
  h.past (leads_of_take hop)

theorem skipOp (h : Finds ts c d os) (op : String) : Finds ts c (d.skipOp op).1 os :=
  h.past (leads_skipOp d op)

theorem row {inp : Input} (h : Finds ts c d os) (hlt : d.size < c.size) :
    Finds ts c d [.row (d.spanFrom (c.head inp)) os] :=
  ⟨h.among, h.leads, .row (spans_spanFrom h.among.rising h.among.suffix h.leads hlt) h.laid⟩

end Finds

/-! ## What a reader yields -/

namespace Outcome

variable {α β : Type} {n m : Nat} {P Q : α → Cursor → Prop} {x : Outcome α n}

/-- What is read has some property, which may also be about the cursor after it. -/
def Yields (P : α → Cursor → Prop) : Outcome α n → Prop
  | .ok a d _ => P a d
  | .fail _ _ _ => True

theorem Yields.andThen {R : β → Cursor → Prop} {f : (a : α) → (d : Cursor) → d.size < n → Outcome β m}
    {le : n ≤ m}
    (hx : x.Yields P) (hf : ∀ {a d h}, P a d → (f a d h).Yields R) : (x.andThen f le).Yields R := by
  cases x with
  | ok a d h => exact hf hx
  | fail issue d h => trivial

theorem Yields.weaken {le : n ≤ m} (h : x.Yields P) : (x.weaken le).Yields P := h.andThen id

theorem Yields.imp (h : x.Yields P) (himp : ∀ {a d}, P a d → Q a d) : x.Yields Q := by
  cases x with
  | ok a d _ => exact himp h
  | fail issue d _ => trivial

theorem Yields.and (hp : x.Yields P) (hq : x.Yields Q) : x.Yields fun a d => P a d ∧ Q a d := by
  cases x with
  | ok a d _ => exact ⟨hp, hq⟩
  | fail issue d _ => trivial

end Outcome

theorem yields_of_leads {α : Type} {n : Nat} {c : Cursor} {x : Outcome α n} (h : c.Leads x.next) :
    x.Yields fun _ d => c.Leads d := by
  cases x with
  | ok a d _ => exact h
  | fail issue d _ => trivial

namespace Finds

variable {ts : List Token} {c d : Cursor} {os : List Outline} {α β : Type} {n m : Nat} {x : Outcome α n}

theorem reads {g : α → List Outline} (h : Finds ts c d os)
    (hx : Among ts d → x.Yields fun a e => Finds ts d e (g a)) :
    x.Yields fun a e => Finds ts c e (os ++ g a) :=
  (hx h.rest).imp h.append

theorem andThen {g : α → List Outline} {R : β → Cursor → Prop}
    {f : (a : α) → (d : Cursor) → d.size < n → Outcome β m} {le : n ≤ m}
    (h : Finds ts c d os) (hx : Among ts d → x.Yields fun a e => Finds ts d e (g a))
    (hf : ∀ {a e h}, Finds ts c e (os ++ g a) → (f a e h).Yields R) : (x.andThen f le).Yields R :=
  (h.reads hx).andThen hf

theorem passes (h : Finds ts c d os) (hl : d.Leads x.next) : x.Yields fun _ e => Finds ts c e os :=
  (yields_of_leads hl).imp h.past

theorem expect {inp : Input} {p : Token → Bool} {complaint : Found → Complaint} (h : Finds ts c d os) :
    (d.expect inp p complaint).Yields fun _ e => Finds ts c e os :=
  h.passes (leads_expect d inp p complaint)

end Finds

/-! ## One token -/

section

variable {inp : Input} {ts : List Token} {c d : Cursor}

theorem finds_past {t : Token} {rest : List Token} (hc : Among ts c) (h : c.rest = t :: rest) :
    Finds ts c (c.past t rest) [leaf t.span] := by
  have hspans := spans_covering ⟨"", t⟩ hc.suffix (leads_past h) (size_past_lt h)
  have hhead : c.head ⟨"", t⟩ = t := by rw [head, h]; rfl
  rw [hhead] at hspans
  exact ⟨hc, leads_past h, .row hspans (.nil (size_past_lt h).le)⟩

theorem finds_take {β : Type} {f : Token → Option β} {b : β} {next : c.After} (hc : Among ts c)
    (h : c.take f = some (b, next)) : Finds ts c next.1 [leaf (c.head inp).span] := by
  obtain ⟨t, rest, hrest, hnext, -⟩ := exists_of_take h
  have hhead : c.head inp = t := by rw [head, hrest]; rfl
  rw [hnext, hhead]
  exact finds_past hc hrest

theorem finds_accept {p : Token → Bool} {t : Token} {hlt : d.size < c.size} (hc : Among ts c)
    (h : c.accept p = some (t, ⟨d, hlt⟩)) : Finds ts c d [leaf t.span] := by
  obtain ⟨u, rest, hrest, hnext, hu⟩ := exists_of_take h
  obtain rfl : u = t := Option.some.inj (Option.ite_none_right_eq_some.1 hu).2
  obtain rfl : d = c.past u rest := hnext
  exact finds_past hc hrest

theorem finds_expect {p : Token → Bool} {complaint : Found → Complaint} (hc : Among ts c) :
    (c.expect inp p complaint).Yields fun t d => Finds ts c d [leaf t.span] := by
  unfold Cursor.expect
  split
  · next h => exact finds_accept hc h
  · trivial

/-! ## Expressions -/

theorem finds_memberOf {e : Expr} {name next : Token} (h : Finds ts c d [e.outline]) (hlt : d.size < c.size) :
    Finds ts c d [(memberOf e name next (d.spanFrom (c.head inp))).outline] := by
  unfold memberOf
  dsimp only
  split
  · exact (h.row hlt).row hlt
  · exact h.row hlt

mutual

theorem finds_expression {c : Cursor} (hc : Among ts c) :
    (expression inp c).Yields fun e d => Finds ts c d [e.outline] := by
  rw [expression]
  refine (finds_operands hc).andThen fun h => ?_
  split
  · exact h
  · next t c₂ h₂ hop =>
    split
    · -- the operand that is left out stands where the two points do
      have hlast : c₂.last = t := last_of_accept hop
      rw [hlast]
      exact (h.append (finds_accept h.rest hop)).row (by omega)
    · refine (h.take hop).andThen finds_operands fun h => ?_
      exact h.row (by omega)
termination_by (c.size, 9)
decreasing_by all_goals simp only [Level.rank]; omega

theorem finds_operands {level : Level} {c : Cursor} (hc : Among ts c) :
    (operands inp level c).Yields fun e d => Finds ts c d [e.outline] := by
  rw [operands]
  refine (finds_operand hc).andThen fun h => ?_
  exact (finds_operators h (by omega)).weaken
termination_by (c.size, 2 * level.rank + 2)
decreasing_by all_goals omega

theorem finds_operand {level : Level} {c : Cursor} (hc : Among ts c) :
    (operand inp level c).Yields fun e d => Finds ts c d [e.outline] := by
  cases level with
  | relation => rw [operand]; exact finds_operands hc
  | sum => rw [operand]; exact finds_operands hc
  | product => rw [operand]; exact finds_unary hc
termination_by (c.size, 2 * level.rank + 1)
decreasing_by all_goals simp only [Level.rank]; omega

/-- Operators are read to the right of an operand that starts at `c₀`, and so does what they make of it. -/
theorem finds_operators {level : Level} {c₀ c : Cursor} {left : Expr} (h : Finds ts c₀ c [left.outline])
    (hlt : c.size < c₀.size) :
    (operators inp level (c₀.head inp) left c).Yields fun e d => Finds ts c₀ d [e.outline] := by
  rw [operators]
  split
  · exact h
  · next op c₁ h₁ hop =>
    refine (h.take hop).andThen finds_operand fun h => ?_
    exact .weaken (finds_operators (h.row (by omega)) (by omega))
termination_by (c.size, 0)
decreasing_by all_goals omega

theorem finds_unary {c : Cursor} (hc : Among ts c) :
    (unary inp c).Yields fun e d => Finds ts c d [e.outline] := by
  rw [unary]
  split
  · exact finds_access hc
  · next op c₁ h₁ hop =>
    refine ((Finds.here hc).take hop).andThen finds_unary fun h => ?_
    exact h.row (by omega)
termination_by (c.size, 2)
decreasing_by all_goals omega

theorem finds_access {c : Cursor} (hc : Among ts c) :
    (access inp c).Yields fun e d => Finds ts c d [e.outline] := by
  rw [access]
  refine (finds_primary hc).andThen fun h => ?_
  exact (finds_suffixes h (by omega)).weaken
termination_by (c.size, 1)
decreasing_by all_goals omega

theorem finds_suffixes {c₀ c : Cursor} {e : Expr} (h : Finds ts c₀ c [e.outline]) (hlt : c.size < c₀.size) :
    (suffixes inp (c₀.head inp) e c).Yields fun e d => Finds ts c₀ d [e.outline] := by
  rw [suffixes]
  split
  · exact h
  · next c₁ h₁ hop =>
    refine (h.take hop).expect.andThen fun h => ?_
    exact .weaken (finds_suffixes (finds_memberOf h (by omega)) (by omega))
  · next c₁ h₁ hop =>
    refine (h.take hop).expect.andThen fun h => ?_
    exact .weaken (finds_suffixes (h.row (by omega)) (by omega))
  · next c₁ h₁ hop =>
    refine (h.take hop).andThen finds_arguments fun h => ?_
    exact .weaken (finds_suffixes (h.row (by omega)) (by omega))
  · next c₁ h₁ hop =>
    refine (h.take hop).andThen finds_arguments fun h => ?_
    exact .weaken (finds_suffixes (h.row (by omega)) (by omega))
termination_by (c.size, 0)
decreasing_by all_goals omega

theorem finds_arguments {closing : String} {c : Cursor} (hc : Among ts c) :
    (arguments inp closing c).Yields fun es d => Finds ts c d (Expr.outlines es) := by
  rw [arguments]
  split
  · next hop => exact (Finds.here hc).take hop
  · exact (finds_expressions hc).andThen fun h => h.expect.andThen id
termination_by (c.size, 11)
decreasing_by all_goals omega

theorem finds_expressions {c : Cursor} (hc : Among ts c) :
    (expressions inp c).Yields fun es d => Finds ts c d (Expr.outlines es) := by
  rw [expressions]
  refine (finds_expression hc).andThen fun h => ?_
  split
  · exact h
  · next t c₂ h₂ hop => exact (h.take hop).andThen finds_expressions id
termination_by (c.size, 10)
decreasing_by all_goals omega

theorem finds_primary {c : Cursor} (hc : Among ts c) :
    (primary inp c).Yields fun e d => Finds ts c d [e.outline] := by
  rw [primary]
  have h := Finds.here hc
  split
  · trivial
  · next hop => exact finds_take hc hop
  · next hop => exact finds_take hc hop
  · next c₁ h₁ hop => exact (h.take hop).andThen finds_expression fun h => h.expect.andThen id
  · next c₁ h₁ hop => exact (h.take hop).andThen finds_arguments fun h => h.row (by omega)
termination_by (c.size, 0)
decreasing_by all_goals omega

end

/-! ## Statements -/

theorem Laid.again {a b : Nat} {o : Outline} (h : Laid ts a b [o]) : Laid ts a b [.row o.span [o]] := by
  cases h with
  | cons ha hs hmixed hrows hperm hloose hrest =>
    exact (Laid.row hs (.node hs hmixed hrows hperm hloose)).mono ha hrest.le

theorem laid_statementCall {a b : Nat} {e : Expr} {call : Call} (hcall : statementCall? e = some call)
    (h : Laid ts a b [e.outline]) : Laid ts a b [call.toExpr.outline] := by
  unfold statementCall? at hcall
  split at hcall
  · cases hcall
    exact h
  · cases hcall
    exact h.again
  · cases hcall
    exact h.again
  · cases hcall
    exact h.again
  · cases hcall

theorem outline_callStatement (call : Call) (s : Span) :
    (callStatement call s).outline = .row s [call.toExpr.outline] := by
  unfold callStatement
  split <;> rfl

theorem laid_unwrapped {a b : Nat} {s : Stmt} (h : Laid ts a b [s.outline]) :
    Laid ts a b (Stmt.outlines (unwrapped s)) := by
  cases s with
  | block body s => exact h.of_row
  | _ => exact h

theorem finds_simpleStatement (hc : Among ts c) :
    (simpleStatement inp c).Yields fun s d => Finds ts c d [s.outline] := by
  unfold simpleStatement
  refine (finds_access hc).andThen fun {e c₁ h₁} h => ?_
  split
  · next op c₂ h₂ hop => exact (h.take hop).andThen finds_expression fun h => h.row (by omega)
  · split
    · next call hcall =>
      have hfound : Finds ts c c₁ [call.toExpr.outline] := ⟨hc, h.leads, laid_statementCall hcall h.laid⟩
      show Finds ts c c₁ [(callStatement call _).outline]
      rw [outline_callStatement]
      exact hfound.row h₁
    · trivial

mutual

theorem finds_statement {c : Cursor} (hc : Among ts c) :
    (statement inp c).Yields fun s d => Finds ts c d [s.outline] := by
  rw [statement]
  have h := Finds.here hc
  split
  · -- `begin`
    next c₁ h₁ hop =>
    have h := h.take hop
    have hle := (compound inp (c.head inp) c₁).notLonger
    exact (h.append (finds_compound h.rest)).row (by omega)
  · -- `if`, where nothing is put for an `else` that is not there
    next c₁ h₁ hop =>
    refine (h.take hop).andThen finds_expression fun {condition _ _} h => ?_
    refine h.expect.andThen fun h => ?_
    refine h.andThen finds_branch fun {thenBody c₄ _} h => ?_
    split
    · have hrow : Finds ts c c₄ [.row (c₄.spanFrom (c.head inp)) _] := h.row (by omega)
      show Finds ts c c₄ [.row _ (condition.outline :: (Stmt.outlines thenBody ++ []))]
      rw [List.append_nil]
      exact hrow
    · next helse => exact (h.take helse).andThen finds_branch fun h => h.row (by omega)
  · -- `case`
    next c₁ h₁ hop =>
    refine (h.take hop).andThen finds_expression fun h => ?_
    refine h.expect.andThen fun h => ?_
    refine h.andThen finds_branches fun h => ?_
    exact h.expect.andThen fun h => h.row (by omega)
  · -- `repeat`, whose condition comes last
    next c₁ h₁ hop =>
    have h := h.take hop
    have hle := (statements inp ["until"] c₁).notLonger
    refine (h.append (finds_statements h.rest)).expect.andThen fun h => ?_
    exact h.andThen finds_expression fun h => h.row (by omega)
  · -- `while`
    next c₁ h₁ hop =>
    refine (h.take hop).andThen finds_expression fun h => ?_
    refine h.expect.andThen fun h => ?_
    exact h.andThen finds_branch fun h => h.row (by omega)
  · -- `for`, whose counter is a node of its own
    next c₁ h₁ hop =>
    refine (h.take hop).andThen finds_expect fun h => ?_
    refine h.expect.andThen fun h => ?_
    refine h.andThen finds_expression fun {_ c₄ _} h => ?_
    refine (h.passes (leads_forDirection inp c₄)).andThen fun h => ?_
    refine h.andThen finds_expression fun h => ?_
    refine h.expect.andThen fun h => ?_
    exact h.andThen finds_branch fun h => h.row (by omega)
  · -- `foreach`
    next c₁ h₁ hop =>
    refine (h.take hop).andThen finds_expect fun h => ?_
    refine h.expect.andThen fun h => ?_
    refine h.andThen finds_expression fun h => ?_
    refine h.expect.andThen fun h => ?_
    exact h.andThen finds_branch fun h => h.row (by omega)
  · -- `exit`, with or without a value
    next c₁ h₁ hop =>
    have h := h.take hop
    split
    · exact h.row h₁
    · next t c₂ h₂ hparen =>
      have h := h.take hparen
      split
      · exact h.expect.andThen fun h => h.row (by omega)
      · refine h.andThen finds_expression fun h => ?_
        exact h.expect.andThen fun h => h.row (by omega)
  · -- `with`
    next c₁ h₁ hop =>
    refine (h.take hop).andThen finds_expression fun h => ?_
    refine h.expect.andThen fun h => ?_
    exact h.andThen finds_branch fun h => h.row (by omega)
  · -- a statement after `asserterror`
    next c₁ h₁ hop => exact (h.take hop).andThen finds_statement fun h => h.row (by omega)
  · split
    · next jump c₁ h₁ hjump => exact finds_take hc (Option.eq_some_of_filter_eq_some hjump)
    · split
      · trivial
      · exact finds_simpleStatement hc
termination_by (c.size, 1)
decreasing_by all_goals omega

theorem finds_compound {opener : Token} {c : Cursor} (hc : Among ts c) :
    Finds ts c (compound inp opener c).next (Stmt.outlines (compound inp opener c).value) := by
  rw [compound]
  exact (finds_statements hc).past (leads_blockEnd inp _ opener)
termination_by (c.size, 3)
decreasing_by all_goals omega

theorem finds_branch {c : Cursor} (hc : Among ts c) :
    (branch inp c).Yields fun body d => Finds ts c d (Stmt.outlines body) := by
  rw [branch]
  split
  · exact .here hc
  · exact (finds_statement hc).andThen fun h => ⟨hc, h.leads, laid_unwrapped h.laid⟩
termination_by (c.size, 2)
decreasing_by all_goals omega

theorem finds_branches {start : Token} {c : Cursor} (hc : Among ts c) :
    (branches inp start c).Yields fun parts d =>
      Finds ts c d (Stmt.branchOutlines parts.1 ++ Stmt.elseOutlines parts.2) := by
  rw [branches]
  have h := Finds.here hc
  split
  · exact h
  split
  · trivial
  split
  · next t c₁ h₁ hop => exact ((h.take hop).reads finds_branches).weaken
  split
  · next t c₁ h₁ hop =>
    have h := h.take hop
    exact h.append (finds_statements h.rest)
  refine (finds_expressions hc).andThen fun h => ?_
  refine h.expect.andThen fun h => ?_
  refine h.andThen finds_branch fun {_ c₃ _} h => ?_
  have hpart : Finds ts c c₃ [.row (c₃.spanFrom (c.head inp)) _] := h.row (by omega)
  dsimp only
  split
  · next t c₄ h₄ hop => exact (hpart.take hop).andThen finds_branches id
  · split
    · exact hpart.andThen finds_branches id
    · trivial
termination_by (c.size, 0)
decreasing_by all_goals omega

/-- A damaged statement is passed over, so the statements of a list come one after another. -/
theorem finds_statements {terminators : List String} {c : Cursor} (hc : Among ts c) :
    Finds ts c (statements inp terminators c).next (Stmt.outlines (statements inp terminators c).value) := by
  rw [statements]
  have h := Finds.here hc
  split
  · exact h
  · next t rest hrest =>
    dsimp only
    split
    · exact h
    next hends =>
    have hbrace := not_brace_of_endsList (Bool.eq_false_iff.2 hends)
    split
    · have hlt := size_past_lt hrest
      have h := h.past (leads_past hrest)
      exact h.append (finds_statements h.rest)
    have hl := leads_statement inp c
    have hs : (statement inp c).Yields fun s d => Finds ts c d [s.outline] := finds_statement hc
    split
    · -- the damaged statement leaves no node, and the next one is read from behind it
      next issue c₁ h₁ hread =>
      rw [hread] at hl
      have hl₁ : c.Leads (c₁.report issue.complaint issue.span) := Leads.trans hl (leads_report _ _ _)
      have hl₂ := hl₁.trans (leads_resumeStatement hrest hbrace hl₁ terminators)
      have hlt := size_resumeStatement_lt terminators hrest (c₁.report issue.complaint issue.span)
      exact (h.past hl₂).append (finds_statements (h.past hl₂).rest)
    · next s c₁ h₁ hread =>
      rw [hread] at hs
      have h : Finds ts c c₁ [s.outline] := hs
      split
      · next t' c₂ h₂ hop => exact (h.take hop).append (finds_statements (h.take hop).rest)
      · split
        · exact h
        · have h := h.past (leads_report c₁ (.unterminatedStatement (c₁.head inp).found) (c₁.head inp).span)
          exact h.append (finds_statements h.rest)
termination_by (c.size, 2)
decreasing_by all_goals first | omega | (simp only [Cursor.size_report]; omega)

end

end

end AlLint.Reading
