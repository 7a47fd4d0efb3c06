import Mathlib.Data.List.Chain
import Mathlib.Logic.Relation
import AlLint.Analysis.Stack
import AlLint.Proofs.Reading.Advance

/-!
# Reading comes to an end

A text is read by four loops: over the objects of a file, the members of an object or element, the declarations
of a section of variables, and the statements of a list. A part that cannot be read is left behind, and the loop
goes on. It is not plain that it then gets anywhere: recovering may stop in front of `end`, `until`, `else` or a
closing brace without passing it, and it does not always skip the token at which it starts.

`Round` is one round of a loop, `Recovers` one in which something was left behind. Each round uses up a token,
so a loop makes no more rounds than there are tokens left, whatever they are. The loop over objects stops at the
end of the text and nowhere else, but for one place: before a number with more digits than can be read.
-/

namespace AlLint.Reading

open Cursor

/-- The loops by which a text is read. -/
inductive Loop where
  | objects
  | members (keyword : String)
  | declarations
  | statements (terminators : List String)

/-- A loop cannot read what is at `c`. It notes `issue` and goes on at `d`. -/
inductive Recovers (inp : Input) : Loop → Cursor → Issue → Cursor → Prop where
  | stray {c : Cursor} {t : Token} {ts : List Token} : c.rest = t :: ts → t.isWordIn ["namespace", "using"] = false →
      t.isWordIn objectTypes = false →
      Recovers inp .objects c ⟨.expectedObject t.found, t.span⟩
        (skipObject 0 t (c.issues ++ [⟨.expectedObject t.found, t.span⟩]) ts)
  | object {c d : Cursor} {t : Token} {ts : List Token} {issue : Issue} {h : d.size ≤ (c.past t ts).size} :
      c.rest = t :: ts → t.isWordIn objectTypes = true → object inp t (c.past t ts) = .ok (.fail issue d h) →
      Recovers inp .objects c issue (skipObject 0 d.last (d.issues ++ [issue]) d.rest)
  | openAttribute {keyword : String} {c d : Cursor} {t : Token} {ts : List Token} {issue : Issue}
      {h : d.size ≤ c.size} :
      c.rest = t :: ts → t.isOp "[" = true → attributeText inp c = .fail issue d h →
      Recovers inp (.members keyword) c issue (resumeMember t ts (d.report issue.complaint issue.span))
  | member {keyword : String} {pending : Pending} {c d : Cursor} {t : Token} {ts : List Token} {issue : Issue}
      {h : d.size ≤ c.size} : c.rest = t :: ts → t.isOp "\x7d" = false → t.isOp ";" = false → t.isOp "[" = false →
      member inp keyword pending c = .fail issue d h →
      Recovers inp (.members keyword) c issue (resumeMember t ts (d.report issue.complaint issue.span))
  | declaration {c d : Cursor} {t : Token} {ts : List Token} {issue : Issue} {h : d.size ≤ c.size} :
      c.rest = t :: ts → startsDeclaration t (c.peek inp) = true → declaration inp c = .fail issue d h →
      Recovers inp .declarations c issue (resumeDeclaration t ts (d.report issue.complaint issue.span))
  | statement {terminators : List String} {c d : Cursor} {t : Token} {ts : List Token} {issue : Issue}
      {h : d.size ≤ c.size} : c.rest = t :: ts → endsList terminators t = false → t.isOp ";" = false →
      statement inp c = .fail issue d h →
      Recovers inp (.statements terminators) c issue
        (resumeStatement terminators t ts (d.report issue.complaint issue.span))

/-- One round of a loop that starts at `c` and goes on at `d`. -/
inductive Round (inp : Input) : Loop → Cursor → Cursor → Prop where
  | recover {loop : Loop} {c d : Cursor} {issue : Issue} : Recovers inp loop c issue d → Round inp loop c d
  | directive {c : Cursor} {t : Token} {ts : List Token} : c.rest = t :: ts →
      t.isWordIn ["namespace", "using"] = true → Round inp .objects c (skipDirective t c.issues ts)
  | object {c d : Cursor} {t : Token} {ts : List Token} {o : ObjectSyntax} {h : d.size < (c.past t ts).size} :
      c.rest = t :: ts → t.isWordIn objectTypes = true → object inp t (c.past t ts) = .ok (.ok o d h) →
      Round inp .objects c d
  | memberSeparator {keyword : String} {c : Cursor} {t : Token} {ts : List Token} : c.rest = t :: ts →
      t.isOp ";" = true → Round inp (.members keyword) c (c.past t ts)
  | closedAttribute {keyword text : String} {c d : Cursor} {h : d.size < c.size} :
      attributeText inp c = .ok text d h → Round inp (.members keyword) c d
  | member {keyword : String} {pending : Pending} {c d : Cursor} {m : Member} {h : d.size < c.size} :
      member inp keyword pending c = .ok m d h → Round inp (.members keyword) c d
  | declaration {c d : Cursor} {group : List Variable} {h : d.size < c.size} :
      declaration inp c = .ok group d h → Round inp .declarations c d
  | separator {terminators : List String} {c : Cursor} {t : Token} {ts : List Token} : c.rest = t :: ts →
      t.isOp ";" = true → Round inp (.statements terminators) c (c.past t ts)
  | statement {terminators : List String} {c d : Cursor} {s : Stmt} {h : d.size < c.size}
      {t : Token} {next : d.After} :
      statement inp c = .ok s d h → d.acceptOp ";" = some (t, next) → Round inp (.statements terminators) c next.1
  | lastStatement {terminators : List String} {c d : Cursor} {s : Stmt} {h : d.size < c.size} :
      statement inp c = .ok s d h → endsList terminators (d.head inp) = true → Round inp (.statements terminators) c d
  | unterminated {terminators : List String} {c d : Cursor} {s : Stmt} {h : d.size < c.size} :
      statement inp c = .ok s d h →
      Round inp (.statements terminators) c (d.report (.unterminatedStatement (d.head inp).found) (d.head inp).span)

abbrev Rounds (inp : Input) (loop : Loop) : Cursor → Cursor → Prop := Relation.ReflTransGen (Round inp loop)

variable {inp : Input} {loop : Loop} {c d : Cursor} {issue : Issue}

/-! ## One round -/

/-- Between the place of a failure and the place where a loop goes on, tokens are skipped and the issue is noted. -/
theorem Recovers.exists_failure (h : Recovers inp loop c issue d) :
    ∃ e, c.Leads e ∧ (e.report issue.complaint issue.span).Leads d := by
  cases h with
  | @stray _ t ts hc hdir hobj => exact ⟨c.past t ts, leads_past hc, leads_skipObject 0 _⟩
  | @object _ e t ts _ hle hc hobj hfail =>
    have he : (c.past t ts).Leads e := leads_object hfail
    exact ⟨e, (leads_past hc).trans he, leads_skipObject 0 (e.report issue.complaint issue.span)⟩
  | @openAttribute _ _ e t ts _ hle hc hop hfail =>
    have he : c.Leads e := by simpa [hfail, Outcome.next] using leads_attributeText inp c
    have hbrace := not_brace_of_isOp hop (by decide)
    exact ⟨e, he, leads_resumeMember hc hbrace (he.trans (leads_report e _ _))⟩
  | @member keyword pending _ e t ts _ hle hc hbrace hsemi hattr hfail =>
    have he : c.Leads e := by simpa [hfail, Outcome.next] using leads_member inp c keyword pending
    exact ⟨e, he, leads_resumeMember hc hbrace (he.trans (leads_report e _ _))⟩
  | @declaration _ e t ts _ hle hc hstart hfail =>
    have he : c.Leads e := by simpa [hfail, Outcome.next] using leads_declaration inp c
    have hbrace := not_brace_of_startsDeclaration hstart
    exact ⟨e, he, leads_resumeDeclaration hc hbrace (he.trans (leads_report e _ _))⟩
  | @statement terminators _ e t ts _ hle hc hends hsemi hfail =>
    have he : c.Leads e := by simpa [hfail, Outcome.next] using leads_statement inp c
    have hbrace := not_brace_of_endsList hends
    exact ⟨e, he, leads_resumeStatement hc hbrace (he.trans (leads_report e _ _)) terminators⟩

namespace Recovers

theorem leads (h : Recovers inp loop c issue d) : c.Leads d := by
  obtain ⟨e, he, hd⟩ := h.exists_failure
  exact (he.trans (leads_report e _ _)).trans hd

theorem mem_issues (h : Recovers inp loop c issue d) : issue ∈ d.issues := by
  obtain ⟨e, -, hd⟩ := h.exists_failure
  exact hd.issues_subset (List.mem_append_right _ List.mem_cons_self)

theorem size_lt (h : Recovers inp loop c issue d) : d.size < c.size := by
  cases h with
  | @stray _ t ts hc hdir hobj =>
    exact Nat.lt_of_le_of_lt (size_skipObject_le ..) (by simp [size, hc])
  | @object _ d t ts issue hle hc hobj hfail =>
    exact Nat.lt_of_le_of_lt (size_skipObject_le ..) (Nat.lt_of_le_of_lt hle (size_past_lt hc))
  | openAttribute hc hop hfail => exact size_resumeMember_lt hc _
  | member hc hbrace hsemi hattr hfail => exact size_resumeMember_lt hc _
  | declaration hc hstart hfail => exact size_resumeDeclaration_lt hc _
  | @statement terminators _ d t ts issue hle hc hends hsemi hfail => exact size_resumeStatement_lt terminators hc _

end Recovers

namespace Round

theorem leads (h : Round inp loop c d) : c.Leads d := by
  cases h with
  | recover h => exact h.leads
  | @directive _ t ts hc hword => exact (leads_past hc).trans (leads_skipDirective (c.past t ts))
  | object hc hobj ho => exact (leads_past hc).trans (leads_object ho)
  | memberSeparator hc hop => exact leads_past hc
  | closedAttribute ha => simpa [ha, Outcome.next] using leads_attributeText inp c
  | @member keyword pending _ _ m _ hm => simpa [hm, Outcome.next] using leads_member inp c keyword pending
  | declaration hd => simpa [hd, Outcome.next] using leads_declaration inp c
  | separator hc hop => exact leads_past hc
  | @statement _ _ e s _ t next hs hop =>
    have he : c.Leads e := by simpa [hs, Outcome.next] using leads_statement inp c
    exact he.trans (leads_of_take hop)
  | lastStatement hs hends => simpa [hs, Outcome.next] using leads_statement inp c
  | @unterminated _ _ e s _ hs =>
    have he : c.Leads e := by simpa [hs, Outcome.next] using leads_statement inp c
    exact he.trans (leads_report e _ _)

/-- **Every round of every loop uses up a token.** -/
theorem size_lt (h : Round inp loop c d) : d.size < c.size := by
  cases h with
  | recover h => exact h.size_lt
  | directive hc hword => exact Nat.lt_of_le_of_lt (size_skipDirective_le ..) (by simp [size, hc])
  | @object _ _ t ts o hlt hc hobj ho => exact Nat.lt_trans hlt (size_past_lt hc)
  | memberSeparator hc hop => exact size_past_lt hc
  | @closedAttribute _ _ _ _ hlt _ => exact hlt
  | @member _ _ _ _ _ hlt _ => exact hlt
  | @declaration _ _ _ hlt _ => exact hlt
  | separator hc hop => exact size_past_lt hc
  | @statement _ _ e s hlt t next hs hop => exact Nat.lt_trans next.2 hlt
  | @lastStatement _ _ _ _ hlt _ _ => exact hlt
  | @unterminated _ _ _ _ hlt _ => exact hlt

end Round

theorem length_le_of_isChain {run : List Cursor} (h : (c :: run).IsChain (Round inp loop)) : run.length ≤ c.size := by
  induction run generalizing c with
  | nil => exact Nat.zero_le _
  | cons d run ih =>
    obtain ⟨hround, hrest⟩ := List.isChain_cons_cons.1 h
    have hlt := hround.size_lt
    have hle := ih hrest
    rw [List.length_cons]
    omega

theorem leads_of_rounds (h : Rounds inp loop c d) : c.Leads d := by
  induction h with
  | refl => exact .refl c
  | tail _ hround ih => exact ih.trans hround.leads

/-! ## Whole loops -/

/-- Whether the loop over the statements of a list ends at a cursor. -/
def StatementsEnd (inp : Input) (terminators : List String) (c : Cursor) : Prop :=
  c.rest = [] ∨ endsList terminators (c.head inp) = true

theorem rounds_statements (inp : Input) (terminators : List String) (c : Cursor) :
    Rounds inp (.statements terminators) c (statements inp terminators c).next ∧
      StatementsEnd inp terminators (statements inp terminators c).next := by
  rw [statements]
  split
  · next hc => exact ⟨.refl, .inl hc⟩
  · next t ts hc =>
    have hhead : c.head inp = t := by rw [head, hc, List.headD_cons]
    dsimp only
    split
    · next hends => exact ⟨.refl, .inr (hhead ▸ hends)⟩
    next hends =>
    split
    · next hop =>
      have hlt := size_past_lt hc
      have ih := rounds_statements inp terminators (c.past t ts)
      exact ⟨.head (.separator hc hop) ih.1, ih.2⟩
    next hop =>
    have hends := Bool.eq_false_iff.2 hends
    have hop := Bool.eq_false_iff.2 hop
    split
    · next issue d h hs =>
      have hrec : Recovers inp (.statements terminators) c issue _ := .statement hc hends hop hs
      have hlt := hrec.size_lt
      have ih := rounds_statements inp terminators
        (resumeStatement terminators t ts (d.report issue.complaint issue.span))
      exact ⟨.head (.recover hrec) ih.1, ih.2⟩
    · next s d h hs =>
      split
      · next t' next h' hsemi =>
        have ih := rounds_statements inp terminators next
        exact ⟨.head (.statement hs hsemi) ih.1, ih.2⟩
      · split
        · next hend => exact ⟨.single (.lastStatement hs hend), .inr hend⟩
        · have hround : Round inp (.statements terminators) c _ := .unterminated hs
          have hlt := hround.size_lt
          have ih := rounds_statements inp terminators
            (d.report (.unterminatedStatement (d.head inp).found) (d.head inp).span)
          exact ⟨.head hround ih.1, ih.2⟩
termination_by c.size
decreasing_by all_goals omega

theorem rounds_declarations (inp : Input) (c : Cursor) : Rounds inp .declarations c (declarations inp c).next := by
  rw [declarations]
  split
  · exact .refl
  · next t ts hc =>
    dsimp only
    split
    · next hstart =>
      split
      · next group d h hd => exact .head (.declaration hd) (rounds_declarations inp d)
      · next issue d h hd =>
        have hrec : Recovers inp .declarations c issue _ := .declaration hc hstart hd
        have hlt := hrec.size_lt
        exact .head (.recover hrec) (rounds_declarations inp _)
    · exact .refl
termination_by c.size
decreasing_by all_goals omega

theorem rounds_members (inp : Input) (keyword : String) (pending : Pending) (c : Cursor) :
    ∃ d, Rounds inp (.members keyword) c d ∧ MembersEnd inp keyword d (members inp keyword pending c).next := by
  rw [members]
  split
  · next hc => exact ⟨c, .refl, .missing hc⟩
  · next t ts hc =>
    -- after any round, the loop goes on as it would from there
    have hround : ∀ {d pending}, Round inp (.members keyword) c d →
        (∃ e, Rounds inp (.members keyword) d e ∧ MembersEnd inp keyword e (members inp keyword pending d).next) →
        ∃ e, Rounds inp (.members keyword) c e ∧ MembersEnd inp keyword e (members inp keyword pending d).next := by
      rintro d pending hr ⟨e, he, hend⟩
      exact ⟨e, .head hr he, hend⟩
    dsimp only
    split
    · next hbrace => exact ⟨c, .refl, .closed hc hbrace⟩
    next hbrace =>
    have hbrace := Bool.eq_false_iff.2 hbrace
    split
    · next hsemi =>
      have hlt := size_past_lt hc
      exact hround (.memberSeparator hc hsemi) (rounds_members inp keyword pending (c.past t ts))
    next hsemi =>
    have hsemi := Bool.eq_false_iff.2 hsemi
    split
    · next hattr =>
      split
      · next text d h ha => exact hround (.closedAttribute ha) (rounds_members inp keyword _ d)
      · next issue d h ha =>
        have hrec : Recovers inp (.members keyword) c issue _ := .openAttribute hc hattr ha
        have hlt := hrec.size_lt
        exact hround (.recover hrec) (rounds_members inp keyword {} _)
    · next hattr =>
      have hattr := Bool.eq_false_iff.2 hattr
      split
      · next m d h hm => exact hround (.member hm) (rounds_members inp keyword {} d)
      · next issue d h hm =>
        have hrec : Recovers inp (.members keyword) c issue _ := .member hc hbrace hsemi hattr hm
        have hlt := hrec.size_lt
        exact hround (.recover hrec) (rounds_members inp keyword {} _)
termination_by c.size
decreasing_by all_goals omega

/-! ## The loop over objects -/

/-- The cursor is before an object whose number has `n` digits, which are more than can be read. -/
def BeforeOversized (c : Cursor) (n : Nat) : Prop :=
  ∃ keyword number rest, c.rest = keyword :: number :: rest ∧ keyword.isWordIn objectTypes = true ∧
    number.kind = .number ∧ number.value.toList.all Text.isDigitForm = true ∧
      number.value.toList.length = n ∧ 4300 < n

theorem wholeNumber?_eq_error_iff {s : String} {o : Oversized} :
    wholeNumber? s = .error o ↔ s.toList.all Text.isDigitForm = true ∧ s.toList.length = o.digits ∧
      4300 < o.digits := by
  cases o with | mk n =>
  simp only [wholeNumber?, numeral, maxDigits]
  split
  · next hdigits =>
    simp only [Bool.and_eq_true] at hdigits
    by_cases hle : s.toList.length ≤ 4300
    · simp only [hle, if_true, Except.map, reduceCtorEq, false_iff]
      omega
    · simp only [hle, if_false, Except.map, Except.error.injEq, Oversized.mk.injEq, hdigits.2, true_and]
      omega
  · next hother =>
    simp only [reduceCtorEq, false_iff]
    rintro ⟨hall, hlength, hlt⟩
    have hne : s.toList ≠ [] := by
      rintro hnil
      rw [hnil, List.length_nil] at hlength
      omega
    exact hother (by simp [hall, hne])

theorem objectNumber_eq_error_iff {o : Oversized} :
    objectNumber c = .error o ↔ ∃ number rest, c.rest = number :: rest ∧ number.kind = .number ∧
      wholeNumber? number.value = .error o := by
  rcases c with ⟨last, _ | ⟨t, ts⟩, issues⟩
  · simp [objectNumber, accept, take]
  · by_cases hkind : t.kind = .number
    · cases hnumber : wholeNumber? t.value <;> simp [objectNumber, accept, take, hkind, hnumber, Except.map]
    · simp [objectNumber, accept, take, hkind]

theorem object_eq_error_iff {start : Token} {o : Oversized} :
    object inp start c = .error o ↔ objectNumber c = .error o := by
  rw [object]
  cases objectNumber c <;> simp [Except.map]

theorem not_directive_of_object {t : Token} (h : t.isWordIn objectTypes = true) :
    t.isWordIn ["namespace", "using"] = false := by
  have hdisjoint : ∀ word ∈ objectTypes, word ∉ ["namespace", "using"] := by decide
  simp only [Token.isWordIn, Bool.and_eq_true, List.contains_iff_mem] at h
  simp [Token.isWordIn, h.1, hdisjoint _ h.2]

theorem objects_nil (hc : c.rest = []) : objects inp c = .ok ([], c.issues) := by
  rw [objects]
  split
  · rfl
  · next hc' => simp [hc] at hc'

theorem objects_cons {t : Token} {ts : List Token} (hc : c.rest = t :: ts) :
    objects inp c =
      if t.isWordIn ["namespace", "using"] then objects inp (skipDirective t c.issues ts)
      else if t.isWordIn objectTypes then
        match object inp t (c.past t ts) with
        | .error oversized => .error oversized
        | .ok (.ok o d _) => (objects inp d).map fun more => (o :: more.1, more.2)
        | .ok (.fail issue d _) => objects inp (skipObject 0 d.last (d.issues ++ [issue]) d.rest)
      else objects inp (skipObject 0 t (c.issues ++ [⟨.expectedObject t.found, t.span⟩]) ts) := by
  rw [objects]
  split
  · next hc' => simp [hc] at hc'
  · next hc' =>
    obtain ⟨rfl, rfl⟩ := List.cons_eq_cons.1 (hc.symm.trans hc')
    rfl

/-- What a round of the loop over objects finds stands before what the rest of the loop finds. -/
theorem objects_of_round (h : Round inp .objects c d) :
    ∃ more, objects inp c = (objects inp d).map fun found => (more ++ found.1, found.2) := by
  -- all rounds but one find nothing
  have hnone (hsame : objects inp c = objects inp d) :
      ∃ more, objects inp c = (objects inp d).map fun found => (more ++ found.1, found.2) := by
    refine ⟨[], hsame.trans ?_⟩
    cases objects inp d <;> rfl
  cases h with
  | recover h =>
    cases h with
    | stray hc hdir hobj => exact hnone (by rw [objects_cons hc, hdir, hobj]; rfl)
    | object hc hobj ho => exact hnone (by rw [objects_cons hc, not_directive_of_object hobj, hobj, ho]; rfl)
  | directive hc hdir => exact hnone (by rw [objects_cons hc, hdir]; rfl)
  | @object _ _ t ts o h hc hobj ho =>
    exact ⟨[o], by rw [objects_cons hc, not_directive_of_object hobj, hobj, ho]; rfl⟩

theorem objects_of_rounds (h : Rounds inp .objects c d) :
    ∃ more, objects inp c = (objects inp d).map fun found => (more ++ found.1, found.2) := by
  induction h using Relation.ReflTransGen.head_induction_on with
  | refl =>
    refine ⟨[], ?_⟩
    cases objects inp d <;> rfl
  | head hround _ ih =>
    obtain ⟨later, hlater⟩ := ih
    obtain ⟨more, hmore⟩ := objects_of_round hround
    refine ⟨more ++ later, ?_⟩
    rw [hmore, hlater]
    cases objects inp d <;> simp [Except.map]

theorem objects_of_oversized {n : Nat} (h : BeforeOversized c n) : objects inp c = .error ⟨n⟩ := by
  obtain ⟨keyword, number, rest, hc, hobj, hkind, hdigits⟩ := h
  have hnumber : object inp keyword (c.past keyword (number :: rest)) = .error ⟨n⟩ :=
    object_eq_error_iff.2 (objectNumber_eq_error_iff.2
      ⟨number, rest, rfl, hkind, wholeNumber?_eq_error_iff.2 hdigits⟩)
  rw [objects_cons hc, not_directive_of_object hobj, hobj, hnumber]
  rfl

/-- At a token the loop over objects goes round, unless a number with too many digits follows. -/
theorem exists_round (inp : Input) (hne : c.rest ≠ []) :
    (∃ d, Round inp .objects c d) ∨ ∃ n, BeforeOversized c n := by
  obtain ⟨t, ts, hc⟩ := List.exists_cons_of_ne_nil hne
  by_cases hdir : t.isWordIn ["namespace", "using"] = true
  · exact .inl ⟨_, .directive hc hdir⟩
  by_cases hobj : t.isWordIn objectTypes = true
  · cases ho : object inp t (c.past t ts) with
    | error o =>
      obtain ⟨number, rest, hrest, hkind, hnumber⟩ := objectNumber_eq_error_iff.1 (object_eq_error_iff.1 ho)
      have hts : ts = number :: rest := hrest
      exact .inr ⟨o.digits, t, number, rest, hts ▸ hc, hobj, hkind, wholeNumber?_eq_error_iff.1 hnumber⟩
    | ok outcome =>
      cases outcome with
      | ok o d h => exact .inl ⟨d, .object hc hobj ho⟩
      | fail issue d h => exact .inl ⟨_, .recover (.object hc hobj ho)⟩
  · exact .inl ⟨_, .recover (.stray hc (Bool.eq_false_iff.2 hdir) (Bool.eq_false_iff.2 hobj))⟩

/-- The loop over objects comes to the end of the text, or to a number with too many digits. -/
theorem exists_rounds (inp : Input) (c : Cursor) :
    ∃ d, Rounds inp .objects c d ∧ (d.rest = [] ∨ ∃ n, BeforeOversized d n) := by
  by_cases hnil : c.rest = []
  · exact ⟨c, .refl, .inl hnil⟩
  rcases exists_round inp hnil with ⟨d, hround⟩ | hover
  · have hlt := hround.size_lt
    obtain ⟨e, hrounds, hend⟩ := exists_rounds inp d
    exact ⟨e, .head hround hrounds, hend⟩
  · exact ⟨c, .refl, .inr hover⟩
termination_by c.size
decreasing_by all_goals omega

theorem objects_eq_ok_iff {issues : List Issue} : (∃ found, objects inp c = .ok (found, issues)) ↔
    ∃ d, Rounds inp .objects c d ∧ d.rest = [] ∧ d.issues = issues := by
  constructor
  · rintro ⟨found, hfound⟩
    obtain ⟨d, hrounds, hnil | ⟨n, hover⟩⟩ := exists_rounds inp c
    · obtain ⟨more, hmore⟩ := objects_of_rounds hrounds
      rw [objects_nil hnil, hfound] at hmore
      exact ⟨d, hrounds, hnil, (Prod.mk.inj (Except.ok.inj hmore)).2.symm⟩
    · obtain ⟨more, hmore⟩ := objects_of_rounds hrounds
      rw [objects_of_oversized hover, hfound] at hmore
      cases hmore
  · rintro ⟨d, hrounds, hnil, rfl⟩
    obtain ⟨more, hmore⟩ := objects_of_rounds hrounds
    exact ⟨more ++ [], by rw [hmore, objects_nil hnil]; rfl⟩

theorem objects_eq_error_iff {o : Oversized} : objects inp c = .error o ↔
    ∃ d, Rounds inp .objects c d ∧ BeforeOversized d o.digits := by
  constructor
  · intro herror
    obtain ⟨d, hrounds, hnil | ⟨n, hover⟩⟩ := exists_rounds inp c
    · obtain ⟨more, hmore⟩ := objects_of_rounds hrounds
      rw [objects_nil hnil, herror] at hmore
      cases hmore
    · obtain ⟨more, hmore⟩ := objects_of_rounds hrounds
      rw [objects_of_oversized hover, herror] at hmore
      cases hmore
      exact ⟨d, hrounds, hover⟩
  · rintro ⟨d, hrounds, hover⟩
    obtain ⟨more, hmore⟩ := objects_of_rounds hrounds
    rw [hmore, objects_of_oversized hover]
    rfl

end AlLint.Reading

namespace AlLint

open Reading

end AlLint
