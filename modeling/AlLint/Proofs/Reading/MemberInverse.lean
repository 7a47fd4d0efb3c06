import AlLint.Proofs.Reading.StmtInverse

/-!
# Reading members of elements

Triggers without code in them, and elements without arguments, read token by token.
-/

namespace AlLint.Reading

open Cursor List

variable {inp : Input} {name : String} {c d f : Cursor}

theorem Read.Gives.exists_eq {α : Type} {n : Nat} {r : Read α n} {P : α → Prop} (h : r.Gives P d) :
    ∃ a hle, r = ⟨a, d, hle⟩ ∧ P a := by
  obtain ⟨a, c, hle⟩ := r
  obtain ⟨rfl, ha⟩ := h
  exact ⟨a, hle, rfl, ha⟩

/-- A trigger that does nothing. -/
def emptyTrigger (name : String) : List Lexeme := [.word "trigger", .name name false, .word "begin", .word "end"]

theorem gives_codeBody {t : Token} {ts : List Token} (hc : c.rest = t :: ts) (ht : t.isWord "begin" = true) :
    (codeBody inp c).Gives (·.isSome = true) ((compound inp t (c.past t ts)).next.skipOp ";").1 := by
  obtain ⟨_, haccept⟩ := acceptWord_eq_some hc ht
  rw [codeBody, haccept]
  exact ⟨rfl, rfl⟩

/-- Between the name of a trigger and its body there may be nothing. -/
theorem gives_codeHeader (h : c.Spells [.word "trigger", .name name false] d)
    (hd : (d.head inp).isWord "begin" = true) (hcolon : (d.peek inp).isOp ":" = false) :
    (codeHeader inp [] none c).Gives (fun m => m.kind = .trigger ∧ m.name = name) d := by
  obtain ⟨t, ts, hc, ht, n, ts₁, hc₁, hn, h⟩ := h
  obtain ⟨hkind, hlower⟩ := Token.isWord_iff.1 ht
  obtain ⟨hkind', hlower'⟩ := Token.isWord_iff.1 hd
  simp only [Lexeme.spelledBy, Bool.and_eq_true, beq_iff_eq] at hn
  have hops : ∀ op, (d.head inp).isOp op = false := by
    intro op
    simp [Token.isOp, Token.isOpIn, hkind']
  have hparameters : (parameterList inp d).Gives (fun _ => True) d := by
    rw [parameterList, acceptOp_eq_none (hops _)]
    exact .ok trivial
  have hreturn : (returnName inp d).Gives (fun _ => True) d := by
    have hnone : d.accept (fun t => t.isName && (d.peek inp).isOp ":" && !t.isWord "var") = none :=
      @accept_eq_none inp _ _ (by rw [hcolon]; simp)
    simp only [returnName, hnone]
    exact ⟨rfl, trivial⟩
  have htype : ∀ name, (returnType inp name d).Gives (fun _ => True) d := by
    intro name
    simp only [returnType, acceptOp_eq_none (hops _), skipOp]
    exact .ok trivial
  have hvars : (localVariables inp d).Gives (fun _ => True) d := by
    have hnone : d.acceptWord "var" = none :=
      @acceptWord_eq_none inp _ _ (by simp [Token.isWord, Token.isWordIn, hlower'])
    rw [localVariables, hnone]
    exact ⟨rfl, trivial⟩
  have hfront : c.take visibility? = none := by
    refine take_eq_none (?_ : visibility? (c.head inp) = none)
    rw [head_eq hc]
    simp only [visibility?, Token.isWord, Token.isWordIn, hkind, hlower]
    decide
  unfold codeHeader
  extract_lets start doc front hsize
  have hfront : front.2.1 = c := by simp only [front, hfront]
  have hkeyword : (front.2.1.expect inp (·.isWordIn ["trigger", "procedure"])
      (.expected "procedure" "after visibility")).Gives (· = t) (c.past t ts) := by
    rw [show c.past t ts = front.2.1.past t ts by rw [hfront]]
    exact gives_expect (hfront.symm ▸ hc) (by simp [Token.isWordIn, hkind, hlower])
  refine hkeyword.andThen fun keyword _ heq => ?_
  subst heq
  have hname : ((c.past keyword ts).expect inp Token.isName (.expectedName s!"after '{keyword.value}'")).Gives
    (· = n) d :=
    (show (c.past keyword ts).past n ts₁ = d from h) ▸ gives_expect hc₁ (by simp [Token.isName, hn.1])
  refine hname.andThen ?_
  rintro _ _ rfl
  refine hparameters.andThen fun parameters _ _ => ?_
  obtain ⟨name', hle₁, hreturn, -⟩ := hreturn.exists_eq
  obtain ⟨vars, hle₂, hvars, -⟩ := hvars.exists_eq
  generalize returnName inp d = read at hreturn ⊢
  subst hreturn
  refine (htype _).andThen fun type _ _ => ?_
  generalize localVariables inp d = read at hvars ⊢
  subst hvars
  exact .ok ⟨if_pos ht, hn.2⟩

theorem gives_code_of_codeBody {e : Cursor} (h : c.Spells [.word "trigger", .name name false] d)
    (hd : (d.head inp).isWord "begin" = true) (hcolon : (d.peek inp).isOp ":" = false)
    (hbody : (codeBody inp d).Gives (·.isSome = true) e) :
    (code inp [] none c).Gives (fun m => m.kind = .trigger ∧ m.name = name ∧ m.hasBody = true) e := by
  rw [code]
  obtain ⟨rfl, hsome⟩ := hbody
  exact (gives_codeHeader h hd hcolon).andThen fun m _ hm => .ok ⟨hm.1, hm.2, hsome⟩

theorem gives_code (h : c.Spells (emptyTrigger name) d) (hd : (d.head inp).isOp ";" = false) :
    (code inp [] none c).Gives (fun m => m.kind = .trigger ∧ m.name = name ∧ m.hasBody = true) d := by
  obtain ⟨c', hheader, hbody⟩ := (@spells_append [.word "trigger", .name name false] _ _ _).1 h
  obtain ⟨b, ts, hc', hb, hend⟩ := hbody
  have hcode := @gives_codeBody inp _ _ _ hc' hb
  rw [(gives_compound b reads_nil hend).1, skipOp, acceptOp_eq_none hd] at hcode
  obtain ⟨e, ts', hts, he, -⟩ := hend
  have hcolon : (c'.peek inp).isOp ":" = false := by
    have hts : ts = e :: ts' := hts
    rw [peek, hc', hts]
    simp [Token.isOp, Token.isOpIn, (Token.isWord_iff.1 he).1]
  exact gives_code_of_codeBody hheader (by rw [head_eq hc']; exact hb) hcolon hcode

theorem members_cons {keyword : String} {P : Member → Prop} {Q : Members → Prop} (hkind : (c.head inp).kind = .ident)
    (hm : (member inp keyword {} c).Gives P d) (hrest : (members inp keyword {} d).Gives Q f) :
    (members inp keyword {} c).Gives (fun ms => ∃ m rest, ms = rest.cons m ∧ P m ∧ Q rest) f := by
  obtain ⟨m, hlt, hm, hP⟩ := hm
  rw [members]
  split
  · next hc => simp [size, hc] at hlt
  · next t ts hc =>
    rw [head_eq hc] at hkind
    have hops : ∀ op, t.isOp op = false := by simp [Token.isOp, Token.isOpIn, hkind]
    simp only [hops, Bool.false_eq_true, if_false, hm]
    exact ⟨hrest.1, m, _, rfl, hP, hrest.2⟩

theorem members_end (keyword : String) {t : Token} {ts : List Token} (hc : c.rest = t :: ts)
    (ht : t.isOp "\x7d" = true) : (members inp keyword {} c).Gives (· = {}) (c.past t ts) := by
  rw [members]
  split
  · next hc' => cases hc.symm.trans hc'
  · next hc' =>
    cases hc.symm.trans hc'
    rw [if_pos ht]
    exact ⟨rfl, rfl⟩

theorem gives_member_of_trigger (keyword : String) (h : c.Spells (emptyTrigger name) d)
    (hd : (d.head inp).isOp ";" = false) : (c.head inp).kind = .ident ∧ (member inp keyword {} c).Gives
      (fun m => ∃ t : CodeMember, m = .code t ∧ t.kind = .trigger ∧ t.name = name ∧ t.hasBody = true) d := by
  have hcode := gives_code h hd
  obtain ⟨t, ts, hc, ht, -⟩ := h
  obtain ⟨hkind, hlower⟩ := Token.isWord_iff.1 ht
  have hstart : MemberStart.of? (c.head inp) (c.peek inp) = some .code := by
    rw [head_eq hc]
    simp [MemberStart.of?, Token.isWord, Token.isWordIn, hkind, hlower]
  rw [head_eq hc, member, hstart]
  exact ⟨hkind, hcode.map fun t ht => ⟨t, rfl, ht⟩⟩

theorem gives_member_of_element (keyword : String) {P : Members → Prop} {args : List (List Token)} {x n o : Token}
    {ts ts' : List Token} (hc : c.rest = x :: n :: ts) (hx : (Lexeme.name name false).spelledBy x = true)
    (hname : Text.lower name ∉ ["var", "trigger", "procedure", "local", "internal", "protected"])
    (hn : n.isOpIn ["(", "\x7b"] = true) (hargs : (elementArguments x (c.past x (n :: ts))).Gives (· = args) d)
    (hd : d.rest = o :: ts') (ho : o.isOp "\x7b" = true)
    (hinner : (members inp (Text.lower name) {} (d.past o ts')).Gives P f)
    (hf : (f.head inp).isOp ";" = false) :
    (c.head inp).kind = .ident ∧ (member inp keyword {} c).Gives
      (fun m => ∃ (e : Element) (ms : Members), m = .element e ∧
      e.keyword = Text.lower name ∧ e.args = args ∧ e.codes = ms.codes ∧ P ms) f := by
  simp only [Lexeme.spelledBy, Bool.and_eq_true, beq_iff_eq] at hx
  obtain ⟨hkind, rfl⟩ := hx
  have hkind : x.kind = .ident := hkind
  have hlower : x.lower = Text.lower x.value := by rw [Token.lower, if_pos hkind]
  have hstart : MemberStart.of? (c.head inp) (c.peek inp) = some .element := by
    have hequals : n.isOp "=" = false := by
      have htext := (Token.isOpIn_iff.1 hn).2
      simp only [mem_cons, not_mem_nil, or_false] at htext
      rcases htext with htext | htext <;> simp [Token.isOp, Token.isOpIn, htext]
    simp only [mem_cons, not_mem_nil, or_false, not_or] at hname
    rw [head_eq hc, peek, hc]
    simp [MemberStart.of?, Token.isWord, Token.isWordIn, visibility?, Visibility.text, hkind, hname, hequals, hn]
  have helement : (element inp c).Gives (fun e => ∃ ms : Members, e.keyword = Text.lower x.value ∧ e.args = args ∧
      e.codes = ms.codes ∧ P ms) f := by
    rw [element]
    refine (gives_expect hc (by simp [Token.isName, hkind])).andThen fun keyword _ heq => ?_
    subst heq
    refine hargs.andThen fun args _ hargs => ?_
    obtain ⟨hlt, haccept⟩ := acceptOp_eq_some hd ho
    extract_lets inner
    have hread : inner.Gives P f := by
      rw [← hlower] at hinner
      simp only [inner, haccept]
      exact hinner
    clear_value inner
    obtain ⟨ms, c₃, hle⟩ := inner
    obtain ⟨rfl, hP⟩ := hread
    simp only [skipOp, acceptOp_eq_none hf]
    exact .ok ⟨ms, hlower, hargs, rfl, hP⟩
  rw [member, hstart, head_eq hc]
  refine ⟨hkind, helement.map ?_⟩
  rintro e ⟨ms, he⟩
  exact ⟨e, ms, rfl, he⟩

theorem elementArguments_none (x : Token) {t : Token} {ts : List Token} (hc : c.rest = t :: ts)
    (ht : t.isOp "(" = false) : (elementArguments x c).Gives (· = []) c := by
  have hnone : c.acceptOp "(" = none := @acceptOp_eq_none ⟨"", x⟩ _ _ (by rwa [head_eq hc])
  rw [elementArguments, hnone]
  exact .ok rfl

theorem exists_spells_of_forall₂ {xs : List Lexeme} {c : Cursor}
    (h : List.Forall₂ (fun x t => Lexeme.spelledBy x t = true) xs c.rest) :
    ∃ last, c.Spells xs ⟨last, [], c.issues⟩ := by
  obtain ⟨last, rest, issues⟩ := c
  dsimp only at h
  induction h generalizing last with
  | nil => exact ⟨last, rfl⟩
  | @cons x t xs ts hx _ ih =>
    obtain ⟨last', hrest⟩ := ih t
    exact ⟨last', t, ts, rfl, hx, hrest⟩

end AlLint.Reading

