import AlLint.Proofs.Checked
import AlLint.Proofs.Reading.ObjectsAlike

/-!
# Readers only go forward

A reader that is given a cursor hands one back, whether it succeeds or not. `Move` lists what may have happened
in between: a token other than a closing brace has been passed, a brace has been entered or left, tokens up to a
stop or an attribute have been collected, or an issue has been noted. Nothing else is possible, so what all
moves keep is kept by all readers.

`Cursor.Leads` is the first thing that they keep: some of the tokens that were left have been read, the last of
them is the last token of the new cursor, and issues have only been added. No reader puts a token back, skips
one without passing it, or drops an issue.

Every reader is shown to be made of moves by the same argument as it was shown to end: through
`Outcome.andThen`, in the order of its own steps.
-/

namespace AlLint.Reading

open List Option Bool

variable {ts : List Token} {p : Token → Bool} {depth m n : Nat} {closing : Token} {keyword op : String}
  {f : Token → Option α} {a : α}

namespace Cursor

/-- `d` comes after `c`: it has read some of the tokens that `c` has left, and it has the issues of `c` and
perhaps more. -/
def Leads (c d : Cursor) : Prop :=
  ∃ read added, c.rest = read ++ d.rest ∧ d.last = read.getLast?.getD c.last ∧ d.issues = c.issues ++ added

namespace Leads

variable {c d e : Cursor}

theorem refl (c : Cursor) : c.Leads c := ⟨[], [], by simp⟩

theorem trans (h : c.Leads d) (h' : d.Leads e) : c.Leads e := by
  obtain ⟨read, added, hrest, hlast, hissues⟩ := h
  obtain ⟨read', added', hrest', hlast', hissues'⟩ := h'
  refine ⟨read ++ read', added ++ added', by rw [hrest, hrest', append_assoc], ?_, ?_⟩
  · rw [hlast', hlast, getLast?_append]
    cases read'.getLast? <;> rfl
  · rw [hissues', hissues, append_assoc]

theorem suffix (h : c.Leads d) : d.rest <:+ c.rest := by
  obtain ⟨read, _, hrest, -⟩ := h
  exact ⟨read, hrest.symm⟩

theorem rest_eq (h : c.Leads d) (hsize : c.size ≤ d.size) : d.rest = c.rest := by
  obtain ⟨read, _, hrest, -⟩ := h
  have hread : read = [] := by
    have := congrArg List.length hrest
    rw [length_append] at this
    exact eq_nil_of_length_eq_zero (by simp only [size] at hsize; omega)
  rw [hrest, hread, nil_append]

theorem issues_subset (h : c.Leads d) : c.issues ⊆ d.issues := by
  obtain ⟨_, added, -, -, hissues⟩ := h
  rw [hissues]
  exact subset_append_left _ _

end Leads

theorem leads_past {c : Cursor} {t : Token} (h : c.rest = t :: ts) : c.Leads (c.past t ts) :=
  ⟨[t], [], by simp [past, h]⟩

theorem size_past_lt {c : Cursor} {t : Token} (h : c.rest = t :: ts) :
    (c.past t ts).size < c.size := by
  simp [past, size, h]

theorem leads_report (c : Cursor) (complaint : Complaint) (span : Span) : c.Leads (c.report complaint span) :=
  ⟨[], [⟨complaint, span⟩], by simp [report]⟩

theorem exists_of_take {β : Type} {c : Cursor} {f : Token → Option β} {b : β} {next : c.After}
    (h : c.take f = some (b, next)) : ∃ t ts, c.rest = t :: ts ∧ next.1 = c.past t ts ∧ f t = some b := by
  unfold take at h
  split at h
  · cases h
  · next t ts hc =>
    obtain ⟨_, hb, hnext⟩ := map_eq_some_iff.1 h
    cases hnext
    exact ⟨t, ts, hc, rfl, hb⟩

theorem leads_of_take {β : Type} {c : Cursor} {f : Token → Option β} {b : β} {next : c.After}
    (h : c.take f = some (b, next)) : c.Leads next.1 := by
  obtain ⟨t, ts, hc, hnext, -⟩ := exists_of_take h
  exact hnext ▸ leads_past hc

theorem last_of_accept {c : Cursor} {t : Token} {next : c.After} (h : c.accept p = some (t, next)) :
    next.1.last = t := by
  obtain ⟨u, ts, -, hnext, hu⟩ := exists_of_take h
  rw [hnext]
  exact Option.some.inj (ite_none_right_eq_some.1 hu).2

end Cursor

open Cursor

theorem next_andThen {α β : Type} {P : Cursor → Prop} {x : Outcome α n}
    {f : (a : α) → (d : Cursor) → d.size < n → Outcome β m} {le : n ≤ m} (hx : P x.next)
    (hf : ∀ {a d h}, P d → P (f a d h).next) : P (x.andThen f le).next := by
  cases x with
  | ok a d h => exact hf hx
  | fail issue d h => exact hx

/-! ## Moves -/

theorem collect_append (stops : Token → Bool) (depth : Nat) (ts : List Token) :
    (collect stops depth ts).1 ++ (collect stops depth ts).2 = ts := by
  fun_induction collect stops depth ts <;> simp_all

theorem leads_collected (stops : Token → Bool) (c : Cursor) : c.Leads (collected stops c).next :=
  ⟨(collect stops 0 c.rest).1, [], (collect_append stops 0 c.rest).symm, rfl, (append_nil _).symm⟩

/-- What is found where an attribute ends is what was looked through. -/
theorem attributeEnd_eq_ok {last : Token} {rest : List Token}
    (h : attributeEnd depth last ts = .ok (closing, rest)) : ∃ before, ts = before ++ closing :: rest := by
  fun_induction attributeEnd depth last ts with
  | case1 => cases h
  | case2 depth last t ts hop ih =>
    obtain ⟨before, rfl⟩ := ih h
    exact ⟨t :: before, rfl⟩
  | case3 last t ts hop =>
    cases h
    exact ⟨[], rfl⟩
  | case4 depth last t ts hop hop' hdepth ih =>
    obtain ⟨before, rfl⟩ := ih h
    exact ⟨t :: before, rfl⟩
  | case5 depth last t ts hop hop' ih =>
    obtain ⟨before, rfl⟩ := ih h
    exact ⟨t :: before, rfl⟩

theorem attributeEnd_eq_error {last found : Token}
    (h : attributeEnd depth last ts = .error found) : found = ts.getLast?.getD last := by
  fun_induction attributeEnd depth last ts with
  | case1 => cases h; rfl
  | case2 depth last t ts hop ih => rw [ih h, getLast?_cons, getD_some]
  | case3 => cases h
  | case4 depth last t ts hop hop' hdepth ih => rw [ih h, getLast?_cons, getD_some]
  | case5 depth last t ts hop hop' ih => rw [ih h, getLast?_cons, getD_some]

theorem leads_attributeText (inp : Input) (c : Cursor) : c.Leads (attributeText inp c).next := by
  unfold attributeText
  split
  · exact .refl c
  · next t ts hc =>
    split
    · next last h =>
      have hlast := attributeEnd_eq_error h
      exact ⟨t :: ts, [], by simp [Outcome.next, hc, hlast, getLast?_cons]⟩
    · next closing rest h =>
      obtain ⟨before, hts⟩ := attributeEnd_eq_ok h
      exact ⟨t :: before ++ [closing], [], by simp [Outcome.next, past, hc, hts],
        by simp [Outcome.next, past, getLast?_cons], by simp [Outcome.next, past]⟩

/-- A move of a reader from `c`, within `k` braces, to `d`, within `k'`. A brace that was opened need not be
waited for. -/
inductive Move (inp : Input) : Nat → Cursor → Nat → Cursor → Prop where
  | past {k : Nat} {c : Cursor} {t : Token} {ts : List Token} : c.rest = t :: ts → t.isOp "\x7d" = false →
      Move inp k c k (c.past t ts)
  | enter {k : Nat} {c : Cursor} {t : Token} {ts : List Token} : c.rest = t :: ts → t.isOp "\x7b" = true →
      Move inp k c (k + 1) (c.past t ts)
  | leave {k : Nat} {c : Cursor} {t : Token} {ts : List Token} : c.rest = t :: ts → t.isOp "\x7d" = true →
      Move inp (k + 2) c (k + 1) (c.past t ts)
  | forget {k : Nat} {c : Cursor} : Move inp (k + 1) c k c
  | report {k : Nat} {c : Cursor} (complaint : Complaint) (span : Span) : Move inp k c k (c.report complaint span)
  | collect {k : Nat} {c : Cursor} {stops : Token → Bool} : c.last.isOpIn [":", "="] = true →
      (∀ t : Token, t.isOp ";" = true → stops t = true) → Move inp k c k (collected stops c).next
  | skipAttribute {k : Nat} {c : Cursor} {t : Token} {ts : List Token} : c.rest = t :: ts → t.isOp "[" = true →
      Move inp k c k (attributeText inp c).next

/-- Any number of moves. -/
inductive Moves (inp : Input) (k : Nat) (c : Cursor) : Nat → Cursor → Prop where
  | refl : Moves inp k c k c
  | tail {k' k'' : Nat} {d e : Cursor} : Moves inp k c k' d → Move inp k' d k'' e → Moves inp k c k'' e

theorem Move.leads {inp : Input} {k k' : Nat} {c d : Cursor} (h : Move inp k c k' d) : c.Leads d := by
  cases h with
  | past hc _ => exact leads_past hc
  | enter hc _ => exact leads_past hc
  | leave hc _ => exact leads_past hc
  | forget => exact .refl c
  | report complaint span => exact leads_report c complaint span
  | @collect _ _ stops _ _ => exact leads_collected stops c
  | skipAttribute _ _ => exact leads_attributeText inp c

namespace Moves

variable {inp : Input} {k k' : Nat} {c d : Cursor}

theorem leads (h : Moves inp k c k' d) : c.Leads d := by
  induction h with
  | refl => exact .refl c
  | tail _ hmove ih => exact ih.trans hmove.leads

theorem report (h : Moves inp k c k' d) (complaint : Complaint) (span : Span) :
    Moves inp k c k' (d.report complaint span) := h.tail (.report complaint span)

theorem forgetAll (h : Moves inp k c (k' + n) d) : Moves inp k c k' d := by
  induction n with
  | zero => exact h
  | succ n ih => exact ih (h.tail .forget)

theorem andThen {α β : Type} {x : Outcome α n} {f : (a : α) → (d : Cursor) → d.size < n → Outcome β m} {le : n ≤ m}
    (hx : Moves inp k c k' x.next) (hf : ∀ {a d h}, Moves inp k c k' d → Moves inp k c k' (f a d h).next) :
    Moves inp k c k' (x.andThen f le).next := next_andThen hx hf

theorem map {α β : Type} {x : Outcome α n} {f : α → β} (hx : Moves inp k c k' x.next) :
    Moves inp k c k' (x.map f).next := hx.andThen id

variable {α : Type} (h : Moves inp k c k' d)

include h

theorem past {t : Token} (hd : d.rest = t :: ts) (ht : t.isOp "\x7d" = false) : Moves inp k c k' (d.past t ts) :=
  h.tail (.past hd ht)

theorem accept {t : Token} {next : d.After} (haccept : d.accept p = some (t, next))
    (hp : ∀ t : Token, t.isOp "\x7d" = true → p t = false) : Moves inp k c k' next.1 := by
  obtain ⟨t, ts, hd, hnext, ha⟩ := exists_of_take haccept
  rw [hnext]
  refine h.past hd (eq_false_iff.2 fun hbrace => ?_)
  rw [hp t hbrace] at ha
  cases ha

theorem acceptOp {t : Token} {next : d.After} (haccept : d.acceptOp op = some (t, next)) (hop : op ≠ "\x7d") :
    Moves inp k c k' next.1 :=
  h.accept haccept fun _ ht => isOp_of_brace ht hop

theorem acceptWord {word : String} {t : Token} {next : d.After} (haccept : d.acceptWord word = some (t, next)) :
    Moves inp k c k' next.1 :=
  h.accept haccept fun _ ht => isWord_of_isOpIn ht word

theorem enter {t : Token} {next : d.After} (haccept : d.acceptOp "\x7b" = some (t, next)) :
    Moves inp k c (k' + 1) next.1 := by
  obtain ⟨u, ts, hd, hnext, hu⟩ := exists_of_take haccept
  rw [hnext]
  exact h.tail (.enter hd (ite_none_right_eq_some.1 hu).1)

end Moves

variable {inp : Input} {k k' : Nat} {c d : Cursor}

/-- A failed reader that has used no token stands where it started. -/
theorem rest_of_not_le {t : Token} (hc : c.rest = t :: ts) (h : c.Leads d) (hsize : ¬d.size ≤ ts.length) :
    d.rest = t :: ts :=
  hc ▸ h.rest_eq (by simp only [size, hc, length_cons] at *; omega)

/-! ## Code

That a reader of code is made of moves is part of what comes of comparing it with itself. -/

/-- Watches that a reading is made of moves from `c`. -/
def moving (inp : Input) (k : Nat) (c : Cursor) (k' : Nat) : Watch where
  __ := Watch.none
  Keeps := Moves inp k c k'
  keeps_past h hd hop _ := h.past hd (Token.isOpIn_eq_false (by decide) hop)
  keeps_name h hd hop hkind :=
    (h.past hd (isOp_of_isOpIn hop (by decide))).past rfl (by simp [Token.isOp, Token.isOpIn, hkind])

instance : (Likeness.exact (moving inp k c k')).ForCode where
  keeps_past h := h.past
  keeps_report h := h.report _ _
  keeps_collected h hlast hends := h.tail (.collect hlast hends)
  keeps_resume h h' hd hbrace hsize := by
    have hrest := suffix_of_suffix_length_le h'.leads.suffix h.leads.suffix (Nat.le_of_eq hsize)
    exact h'.past ((hrest.eq_of_length hsize).trans hd) hbrace
  behind_eq_or := .inl rfl
  behind_eq := rfl

theorem same_moving (t : Token) : t.Same (.exact (moving inp k c k')) t := ⟨.exact t, trivial⟩

theorem likes_moving (ts : List Token) : Token.Likes (.exact (moving inp k c k')) ts ts :=
  forall₂_same.2 fun t _ => same_moving t

theorem rel_moving (lead : Option Token) : Option.Rel (Token.Like (.exact (moving inp k c k'))) lead lead := by
  cases lead with
  | none => exact .none
  | some t => exact .some (.exact t)

section

variable (h : Moves inp k c k' d)
include h

theorem Moves.like : d.Like (.exact (moving inp k c k')) d :=
  .exact rfl (append_nil _).symm rfl (fun _ _ => trivial) h

theorem moves_expectName (context : String) : Moves inp k c k' (d.expectName inp context).next :=
  (h.like.expectName (.exact inp) context).keeps

theorem moves_names (context : String) : Moves inp k c k' (names inp context d).next :=
  (names_like (.exact inp) context h.like).keeps

theorem moves_code (attributes : List String) (lead : Option Token) :
    Moves inp k c k' (code inp attributes lead d).next :=
  (code_like (.exact inp) (show attributes.map _ = attributes.map _ from rfl) (rel_moving lead) h.like).keeps

theorem moves_property : Moves inp k c k' (property inp d).next := (property_like (.exact inp) h.like).keeps

theorem moves_variableSection (words : List String) : Moves inp k c k' (variableSection inp words d).next :=
  (variableSection_like (.exact inp) words h.like).keeps

theorem moves_objectName : Moves inp k c k' (objectName d).next := (objectName_like h.like).next.keeps

theorem moves_objectNumber {number : Read (Option Nat) d.size} (hnumber : objectNumber d = .ok number) :
    Moves inp k c k' number.next := by
  obtain ⟨_, h', -⟩ | ⟨_, _, h', -, hlike⟩ := objectNumber_like h.like
  · cases hnumber.symm.trans h'
  · cases hnumber.symm.trans h'
    exact hlike.next.keeps

end

/-- Recovering uses a token, also if the statement that failed has used none. -/
theorem size_resumeStatement_lt {c : Cursor} {t : Token} (terminators : List String)
    (hc : c.rest = t :: ts) (d : Cursor) : (resumeStatement terminators t ts d).size < c.size :=
  Nat.lt_of_le_of_lt (size_resumeStatement_le terminators t ts d) (by simp [size, hc])

theorem not_brace_of_endsList {terminators : List String} {t : Token} (h : endsList terminators t = false) :
    t.isOp "\x7d" = false := by
  simp only [endsList, or_eq_false_iff] at h
  exact h.1.2

theorem size_resumeDeclaration_lt {c : Cursor} {t : Token} (hc : c.rest = t :: ts) (d : Cursor) :
    (resumeDeclaration t ts d).size < c.size :=
  Nat.lt_of_le_of_lt (size_resumeDeclaration_le t ts d) (by simp [size, hc])

theorem not_brace_of_startsDeclaration {t next : Token} (h : startsDeclaration t next = true) :
    t.isOp "\x7d" = false := by
  refine eq_false_iff.2 fun hbrace => ?_
  simp [startsDeclaration, isName_of_isOpIn hbrace] at h

/-! ## Members -/

theorem not_brace_of_not_isOpIn {t : Token} (h : ¬t.isOpIn ["\x7b", "\x7d"] = true) : t.isOp "\x7d" = false := by
  simp only [Token.isOpIn, Token.isOp] at h ⊢
  simp_all

theorem moves_argumentsEnd_ok {depth : Int} {taken rest : List Token}
    (hend : argumentsEnd depth d.last d.rest = .ok (taken, closing, rest)) (h : Moves inp k c k' d) :
    Moves inp k c k' (d.past closing rest) := by
  obtain ⟨last, ts, issues⟩ := d
  fun_induction argumentsEnd depth last ts generalizing taken with
  | case1 => cases hend
  | case2 => cases hend
  | case3 depth last t ts hbrace hop =>
    cases hend
    exact h.past rfl (not_brace_of_not_isOpIn hbrace)
  | case4 depth last t ts hbrace hop taken' closing' rest' heq ih =>
    cases hend
    exact ih heq (h.past rfl (not_brace_of_not_isOpIn hbrace))
  | case5 => cases hend

theorem moves_argumentsEnd_error {depth : Int} {found : Token} {rest : List Token}
    (hend : argumentsEnd depth d.last d.rest = .error (found, rest)) (h : Moves inp k c k' d) :
    Moves inp k c k' { d with last := found, rest } := by
  obtain ⟨last, ts, issues⟩ := d
  fun_induction argumentsEnd depth last ts with
  | case1 => cases hend; exact h
  | case2 => cases hend; exact h
  | case3 => cases hend
  | case4 => cases hend
  | case5 depth last t ts hbrace hop left heq ih =>
    cases hend
    exact ih heq (h.past rfl (not_brace_of_not_isOpIn hbrace))

theorem moves_elementArguments (keyword : Token) (h : Moves inp k c k' d) :
    Moves inp k c k' (elementArguments keyword d).next := by
  unfold elementArguments
  split
  · exact h
  · next opening c₁ h₁ hop =>
    have h : Moves inp k c k' c₁ := h.acceptOp hop (by decide)
    have hopening : c₁.last = opening := last_of_accept hop
    split
    · next hend => exact moves_argumentsEnd_ok (hopening ▸ hend) h
    · next hend => exact moves_argumentsEnd_error (hopening ▸ hend) h

/-- Skipping a member leaves all braces that it has entered, or the end of the text comes first. -/
theorem moves_skipMember (braces : Nat) (closers : List String) (h : Moves inp k c (k' + 1 + braces) d) :
    Moves inp k c (k' + 1) (skipMember braces closers d.last d.issues d.rest) := by
  obtain ⟨last, rest, issues⟩ := d
  fun_induction skipMember braces closers last issues rest with
  | case1 => exact h.forgetAll
  | case2 => next hop ih => exact ih (h.tail (.enter rfl hop))
  | case3 => exact h
  | case4 braces closers last t ts _ hop hne ih =>
    obtain ⟨n, rfl⟩ := Nat.exists_eq_succ_of_ne_zero hne
    rw [Nat.succ_sub_one, Nat.add_right_comm] at ih
    rw [Nat.succ_eq_add_one, Nat.add_right_comm, ← Nat.add_assoc] at h
    exact ih (h.tail (.leave rfl hop))
  | case5 => next hop closer _ ih => exact ih (h.past rfl (eq_false_iff.2 hop))
  | case6 => next hop _ _ _ ih => exact ih (h.past rfl (eq_false_iff.2 hop))
  | case7 => next hop _ _ => exact (h.past rfl (eq_false_iff.2 hop)).forgetAll
  | case8 => next hop _ _ ih => exact ih (h.past rfl (eq_false_iff.2 hop))

theorem moves_resumeMember {t : Token} {e : Cursor} (he : e.rest = t :: ts) (ht : t.isOp "\x7d" = false)
    (hd : e.Leads d) (h : Moves inp k c (k' + 1) d) : Moves inp k c (k' + 1) (resumeMember t ts d) := by
  unfold resumeMember
  split
  · exact moves_skipMember 0 [] h
  · next hsize =>
    have hd := rest_of_not_le he hd hsize
    split
    · next hop => exact moves_skipMember 1 _ (h.tail (.enter hd hop))
    · exact moves_skipMember 0 _ (h.past hd ht)

theorem size_resumeMember_lt {c : Cursor} {t : Token} (hc : c.rest = t :: ts) (d : Cursor) :
    (resumeMember t ts d).size < c.size :=
  Nat.lt_of_le_of_lt (size_resumeMember_le t ts d) (by simp [size, hc])

/-- How the loop over members that has come to `c` ends at `d`: past the closing brace, or with an issue about
the brace that is missing at the end of the text. -/
inductive MembersEnd (inp : Input) (keyword : String) (c : Cursor) : Cursor → Prop where
  | closed {t : Token} {ts : List Token} : c.rest = t :: ts → t.isOp "\x7d" = true →
      MembersEnd inp keyword c (c.past t ts)
  | missing : c.rest = [] → MembersEnd inp keyword c (c.report (.missingBrace keyword) inp.eof.span)

theorem MembersEnd.moves {e : Cursor} (hend : MembersEnd inp keyword d e) (h : Moves inp k c (k' + 2) d) :
    Moves inp k c (k' + 1) e := by
  cases hend with
  | closed hd hop => exact h.tail (.leave hd hop)
  | missing hd => exact (h.tail .forget).report _ _

mutual

theorem moves_member (keyword : String) (pending : Pending) {k k' : Nat} {c d : Cursor}
    (h : Moves inp k c (k' + 1) d) :
    Moves inp k c (k' + 1) (member inp keyword pending d).next := by
  rw [member]
  split
  · exact (moves_variableSection h _).map
  · exact (moves_variableSection h _).map
  · exact (moves_code h _ _).map
  · exact (moves_property h).map
  · exact (moves_element h).map
  · exact h
termination_by (d.size, 1)
decreasing_by all_goals omega

theorem moves_element {k k' : Nat} {c d : Cursor} (h : Moves inp k c (k' + 1) d) :
    Moves inp k c (k' + 1) (element inp d).next := by
  rw [element]
  refine (moves_expectName h _).andThen fun h => ?_
  refine (moves_elementArguments _ h).andThen fun h => ?_
  extract_lets inner
  have h : Moves inp k c (k' + 1) inner.next := by
    simp only [inner]
    split
    · exact h
    · next hop =>
      obtain ⟨e, hm, hend⟩ := moves_members _ {} (h.enter hop)
      exact hend.moves hm
  exact h.like.skipSemicolon.keeps
termination_by (d.size, 0)
decreasing_by all_goals omega

theorem moves_members (keyword : String) (pending : Pending) {k k' : Nat} {c d : Cursor}
    (h : Moves inp k c (k' + 1) d) :
    ∃ e, Moves inp k c (k' + 1) e ∧ MembersEnd inp keyword e (members inp keyword pending d).next := by
  rw [members]
  split
  · next hd => exact ⟨d, h, .missing hd⟩
  · next t ts hd =>
    have hlt := size_resumeMember_lt hd
    have hpast := size_past_lt hd
    dsimp only
    split
    · next hbrace => exact ⟨d, h, .closed hd hbrace⟩
    next hbrace =>
    have hbrace := eq_false_iff.2 hbrace
    have hrecover : ∀ (issue : Issue) {e : Cursor}, d.Leads e → Moves inp k c (k' + 1) e →
        Moves inp k c (k' + 1) (resumeMember t ts (e.report issue.complaint issue.span)) :=
      fun issue e hleads hm => moves_resumeMember hd hbrace (hleads.trans (leads_report ..)) (hm.report _ _)
    split
    · exact moves_members keyword pending (h.past hd hbrace)
    split
    · next hattr =>
      have hm := h.tail (.skipAttribute hd hattr)
      have hleads := leads_attributeText inp d
      split
      · next ha =>
        rw [ha] at hm
        exact moves_members keyword _ hm
      · next issue c₁ h₁ ha =>
        rw [ha] at hm hleads
        have := hlt (c₁.report issue.complaint issue.span)
        exact moves_members keyword {} (hrecover issue hleads hm)
    · have hm := moves_member keyword pending h
      have hleads := (moves_member keyword pending (.refl : Moves inp 1 d (0 + 1) d)).leads
      split
      · next hmember =>
        rw [hmember] at hm
        exact moves_members keyword {} hm
      · next issue c₁ h₁ hmember =>
        rw [hmember] at hm hleads
        have := hlt (c₁.report issue.complaint issue.span)
        exact moves_members keyword {} (hrecover issue hleads hm)
termination_by (d.size, 2)
decreasing_by all_goals (try simp only [Outcome.next] at *); omega

end

/-! ## Objects -/

/-- An outcome of moves from `c`, which end within one brace more in case of a success. -/
def Outcome.Entered {α : Type} {n : Nat} (inp : Input) (k : Nat) (c : Cursor) (k' : Nat) : Outcome α n → Prop
  | .ok _ d _ => Moves inp k c (k' + 1) d
  | .fail _ d _ => Moves inp k c k' d

theorem Outcome.Entered.after {α β : Type} {x : Outcome α n}
    {f : (a : α) → (d : Cursor) → d.size < n → Outcome β m} {le : n ≤ m} (hx : Moves inp k c k' x.next)
    (hf : ∀ {a d h}, Moves inp k c k' d → (f a d h).Entered inp k c k') : (x.andThen f le).Entered inp k c k' := by
  cases x with
  | ok a d h => exact hf hx
  | fail issue d h => exact hx

theorem Outcome.Entered.weaken {α : Type} {x : Outcome α n} {le : n ≤ m} (hx : x.Entered inp k c k') :
    (x.weaken le).Entered inp k c k' := by
  cases x with
  | ok a e h => exact hx
  | fail issue e h => exact hx

theorem entered_clauses (keyword : String) (found : Clauses) {d : Cursor} (h : Moves inp k c k' d) :
    (clauses inp keyword found d).Entered inp k c k' := by
  rw [clauses]
  split
  · next hop => exact h.enter hop
  split
  · next hop =>
    refine .after (moves_expectName (h.acceptWord hop) _) fun h => ?_
    exact (entered_clauses keyword _ h).weaken
  split
  · next hop =>
    refine .after (moves_names (h.acceptWord hop) _) fun h => ?_
    exact (entered_clauses keyword _ h).weaken
  · exact h
termination_by d.size
decreasing_by all_goals omega

/-- An outcome of moves from `c`, which end with members and the brace after them in case of a success. -/
def Outcome.Ended {α : Type} {n : Nat} (inp : Input) (k : Nat) (keyword : String) (c : Cursor) : Outcome α n → Prop
  | .ok _ d _ => ∃ e, Moves inp k c (k + 1) e ∧ MembersEnd inp keyword e d
  | .fail _ d _ => Moves inp k c k d

/-- An object is read up to the brace that it ends with, or up to where its header fails. -/
theorem ended_object {start : Token} {x : Outcome ObjectSyntax c.size} (h : object inp start c = .ok x) :
    x.Ended inp k start.lower c := by
  obtain ⟨number, hnumber, rfl⟩ := exists_of_map_eq_ok h
  have hheader := entered_clauses start.lower {}
    (moves_objectName (moves_objectNumber (.refl : Moves inp k c k c) hnumber))
  dsimp only
  generalize clauses inp start.lower {} (objectName number.next).next = header at hheader ⊢
  cases header with
  | ok clauses d h => exact moves_members start.lower {} hheader
  | fail issue d h => exact hheader

/-! ## Where readers lead -/

theorem MembersEnd.leads (h : MembersEnd inp keyword c d) : c.Leads d :=
  (h.moves (.refl : Moves inp 2 c (0 + 2) c)).leads

theorem leads_expect (c : Cursor) (inp : Input) (p : Token → Bool) (complaint : Found → Complaint) :
    c.Leads (c.expect inp p complaint).next := by
  unfold Cursor.expect
  split
  · next h => exact leads_of_take h
  · exact .refl c

section

variable (inp : Input) (c : Cursor)

theorem like_self : c.Like (.exact (moving inp 0 c 0)) c := Moves.like .refl

theorem leads_forDirection : c.Leads (forDirection inp c).next :=
  (forDirection_like (.exact inp) (like_self inp c)).keeps.leads

theorem leads_statement : c.Leads (statement inp c).next :=
  (statement_like (.exact inp) (like_self inp c)).keeps.leads

theorem leads_blockEnd (opener : Token) : c.Leads (blockEnd inp opener c).next :=
  (blockEnd_like (.exact inp) (.exact opener) (like_self inp c)).next.keeps.leads

theorem leads_compound (opener : Token) : c.Leads (compound inp opener c).next :=
  (compound_like (.exact inp) (.exact opener) (like_self inp c)).next.keeps.leads

theorem leads_declaration : c.Leads (declaration inp c).next :=
  (declaration_like (.exact inp) (like_self inp c)).keeps.leads

theorem leads_declarations : c.Leads (declarations inp c).next :=
  (declarations_like (.exact inp) (like_self inp c)).next.keeps.leads

theorem leads_returnName : c.Leads (returnName inp c).next :=
  (returnName_like (.exact inp) (like_self inp c)).next.keeps.leads

theorem leads_returnType (name : Token) : c.Leads (returnType inp name.value c).next :=
  (returnType_like (.exact inp) (.exact name) (like_self inp c)).keeps.leads

theorem leads_localVariables : c.Leads (localVariables inp c).next :=
  (localVariables_like (.exact inp) (like_self inp c)).next.keeps.leads

theorem leads_member (keyword : String) (pending : Pending) : c.Leads (member inp keyword pending c).next :=
  (moves_member keyword pending (.refl : Moves inp 1 c (0 + 1) c)).leads

end

section

variable {t : Token} {e : Cursor} (he : e.rest = t :: ts) (ht : t.isOp "\x7d" = false) (hd : e.Leads d)
include he ht hd

theorem leads_resumeStatement (terminators : List String) : d.Leads (resumeStatement terminators t ts d) := by
  refine (resumeStatement_like terminators (same_moving t) (likes_moving ts) (like_self ⟨"", t⟩ d) fun hsize =>
    ?_).keeps.leads
  exact Moves.refl.past (rest_of_not_le he hd hsize) ht

theorem leads_resumeDeclaration : d.Leads (resumeDeclaration t ts d) := by
  refine (resumeDeclaration_like (same_moving t) (likes_moving ts) (like_self ⟨"", t⟩ d) fun hsize => ?_).keeps.leads
  exact Moves.refl.past (rest_of_not_le he hd hsize) ht

theorem leads_resumeMember : d.Leads (resumeMember t ts d) :=
  (moves_resumeMember he ht hd (.refl : Moves ⟨"", t⟩ 1 _ 1 _)).leads

end

theorem leads_clauses (inp : Input) (keyword : String) (found : Clauses) (c : Cursor) :
    c.Leads (clauses inp keyword found c).next := by
  have h := entered_clauses keyword found (.refl : Moves inp 0 c 0 c)
  cases hx : clauses inp keyword found c with
  | ok a d hlt =>
    rw [hx] at h
    exact Moves.leads h
  | fail issue d hle =>
    rw [hx] at h
    exact Moves.leads h

theorem leads_object {start : Token} {x : Outcome ObjectSyntax c.size} (h : object inp start c = .ok x) :
    c.Leads x.next := by
  have hm := ended_object (k := 0) h
  cases x with
  | ok o d hlt =>
    obtain ⟨e, he, hend⟩ := hm
    exact he.leads.trans hend.leads
  | fail issue d hle => exact hm.leads

theorem leads_skipDirective (c : Cursor) : c.Leads (skipDirective c.last c.issues c.rest) := by
  obtain ⟨last, rest, issues⟩ := c
  fun_induction skipDirective last issues rest with
  | case1 => exact .refl _
  | case2 => exact leads_past rfl
  | case3 => next ih => exact (leads_past rfl).trans ih

theorem leads_skipObject (depth : Nat) (c : Cursor) : c.Leads (skipObject depth c.last c.issues c.rest) := by
  obtain ⟨last, rest, issues⟩ := c
  fun_induction skipObject depth last issues rest with
  | case1 => exact .refl _
  | case2 => next ih => exact (leads_past rfl).trans ih
  | case3 => next ih => exact (leads_past rfl).trans ih
  | case4 => exact .refl _
  | case5 => next ih => exact (leads_past rfl).trans ih

end AlLint.Reading
