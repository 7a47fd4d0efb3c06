import Mathlib.Data.List.Basic
import AlLint.Proofs.Flow.Code

/-!
# The shape of a body

What holds of a body by virtue of the statements that are in it: what happens in the skeleton happens in one of
the statements, and the jumps and loops of the skeleton are theirs. `Code.All` says so with what is asked of
acts, jumps and loops left open, and `Stmt.all_codeAll` carries it from the statements to the skeleton.

Statements hold statements through lists, branches and else parts. `Stmt.bodies` is the one place that lists them, and
`Stmt.induct` is the induction that goes with it.
-/

namespace AlLint

open List

variable {s t u : Stmt} {a : Act} {elseBody : Option (List Stmt)}

namespace Stmt

/-- The bodies right inside a statement, in source order. -/
def bodies : Stmt → List (List Stmt)
  | ifThen _ thenBody elseBody _ => thenBody :: elseBody.toList
  | caseOf _ branches elseBody _ => branches.map Branch.body ++ elseBody.toList
  | repeatUntil body _ _ => [body]
  | whileDo _ body _ => [body]
  | forTo _ _ _ _ body _ => [body]
  | forEach _ _ body _ => [body]
  | block body _ => [body]
  | withDo _ body _ => [body]
  | _ => []

theorem sizeOf_lt_of_mem_bodies {body : List Stmt} (hb : body ∈ s.bodies) (ht : t ∈ body) :
    sizeOf t < sizeOf s := by
  -- a statement is smaller than the list it is in, and each body is smaller than the statement around it
  have htb := sizeOf_lt_of_mem ht
  have helse : ∀ {elseBody : Option (List Stmt)}, body ∈ elseBody.toList → sizeOf t < sizeOf elseBody := by
    intro elseBody h
    rw [Option.mem_toList] at h
    rw [h]
    simp only [Option.some.sizeOf_spec]
    omega
  have hbranch : ∀ {branches : List (Branch Stmt)}, body ∈ branches.map Branch.body → sizeOf t < sizeOf branches := by
    intro branches h
    obtain ⟨⟨values, body, place⟩, hbranch, rfl⟩ := mem_map.1 h
    have hlt := sizeOf_lt_of_mem hbranch
    simp only [Branch.mk.sizeOf_spec] at hlt htb
    omega
  cases s <;> simp only [bodies, mem_cons, mem_append, not_mem_nil, or_false] at hb <;> grind

/-- **Induction over statements**, from the statements right inside to the one around them. -/
@[elab_as_elim]
theorem induct {motive : Stmt → Prop}
    (step : ∀ s, (∀ body ∈ s.bodies, ∀ t ∈ body, motive t) → motive s) (s : Stmt) : motive s :=
  step s fun _ hb t ht =>
    have := sizeOf_lt_of_mem_bodies hb ht
    induct step t
termination_by sizeOf s

theorem allNested_eq (body : List Stmt) : allNested body = body.flatMap nested := by
  induction body with
  | nil => rfl
  | cons s rest ih => rw [allNested, ih, flatMap_cons]

theorem elseNested_eq (elseBody : Option (List Stmt)) : elseNested elseBody = elseBody.toList.flatMap allNested := by
  cases elseBody with
  | none => rfl
  | some body => simp [elseNested]

theorem branchesNested_eq (branches : List (Branch Stmt)) :
    branchesNested branches = (branches.map Branch.body).flatMap allNested := by
  induction branches with
  | nil => rfl
  | cons b rest ih => rw [branchesNested, ih, map_cons, flatMap_cons]

theorem nested_eq (s : Stmt) : s.nested = s :: s.bodies.flatMap allNested := by
  cases s with
  | ifThen condition thenBody elseBody span =>
    rw [nested, elseNested_eq, bodies, flatMap_cons]
  | caseOf selector branches elseBody span =>
    rw [nested, elseNested_eq, branchesNested_eq, bodies, flatMap_append]
  | _ => simp [nested, bodies]

theorem self_mem_nested (s : Stmt) : s ∈ s.nested := by
  rw [nested_eq]
  exact mem_cons_self

theorem mem_allNested {body : List Stmt} (hs : s ∈ body) (ht : t ∈ s.nested) : t ∈ allNested body := by
  rw [allNested_eq]
  exact mem_flatMap.2 ⟨s, hs, ht⟩

theorem mem_nested_of_mem_bodies {body : List Stmt} (hb : body ∈ s.bodies) (ht : t ∈ body)
    (hu : u ∈ t.nested) : u ∈ s.nested := by
  rw [nested_eq]
  exact mem_cons_of_mem _ (mem_flatMap.2 ⟨body, hb, mem_allNested ht hu⟩)

theorem nested_trans (ht : t ∈ s.nested) (hu : u ∈ t.nested) : u ∈ s.nested := by
  induction s using induct with
  | step s ih =>
    rw [nested_eq] at ht
    rcases mem_cons.1 ht with rfl | ht
    · exact hu
    · obtain ⟨body, hb, ht⟩ := mem_flatMap.1 ht
      rw [allNested_eq] at ht
      obtain ⟨r, hr, ht⟩ := mem_flatMap.1 ht
      exact mem_nested_of_mem_bodies hb hr (ih body hb r hr ht)

/-- The expressions that a statement evaluates itself. -/
def exprs : Stmt → List Expr
  | assignment target _ value _ => [value, target]
  | call c _ => [c.toExpr]
  | error c _ => [c.toExpr]
  | exit value _ => value.toList
  | jump .. => []
  | block .. => []
  | withDo target _ _ => [target]
  | ifThen condition _ _ _ => [condition]
  | caseOf selector branches _ _ => selector :: branches.flatMap Branch.values
  | repeatUntil _ condition _ => [condition]
  | whileDo condition _ _ => [condition]
  | forTo _ first last _ _ _ => [first, last]
  | forEach _ iterable _ _ => [iterable]

def assigns : Stmt → List Act
  | assignment target op value _ => [.assign target op value]
  | _ => []

/-- What happens in a statement itself, and not in the bodies inside it. -/
def ownActs (s : Stmt) : List Act := .see (.stmt s) :: (Expr.actsAll s.exprs ++ s.assigns)

theorem mem_ownActs_of_mem_exprs {e : Expr} (he : e ∈ s.exprs) (ha : a ∈ e.acts) :
    a ∈ s.ownActs := by
  rw [ownActs, Expr.actsAll_eq]
  exact mem_cons_of_mem _ (mem_append_left _ (mem_flatMap.2 ⟨e, he, ha⟩))

/-- Whether a statement leaves a pass of a loop. -/
def isJump : Stmt → Bool
  | jump .. => true
  | _ => false

/-- What a loop statement goes round: whether it may be skipped, what comes before its body, the body, and what
comes after it. -/
def loop? : Stmt → Option (Bool × List Act × List Stmt × List Act)
  | repeatUntil body condition _ => some (false, [], body, condition.acts)
  | whileDo condition body _ => some (true, condition.acts, body, [])
  | forTo _ _ _ _ body _ => some (true, [], body, [])
  | forEach _ _ body _ => some (true, [], body, [])
  | _ => none

/-- In its skeleton, a loop statement is what comes before the loop, and the loop. -/
theorem exists_code_eq {skippable : Bool} {head tail : List Act} {body : List Stmt}
    (h : s.loop? = some (skippable, head, body, tail)) :
    ∃ before, ∀ chained, code chained s = .seq before (.loop skippable head (codeAll body) tail) := by
  cases s with
  | repeatUntil b condition span =>
    cases h
    exact ⟨_, fun _ => by rw [code]⟩
  | whileDo condition b span =>
    cases h
    exact ⟨_, fun _ => by rw [code]⟩
  | forTo counter first last down b span =>
    cases h
    exact ⟨_, fun _ => by rw [code]⟩
  | forEach item iterable b span =>
    cases h
    exact ⟨_, fun _ => by rw [code]⟩
  | _ => simp [loop?] at h

end Stmt

/-- Code in which every act is as `A` says, every loop is as `L` says, and there are jumps only if `J`. Every
choice in it has an option. -/
inductive Code.All (A : Act → Prop) (J : Prop) (L : Bool → List Act → Code → List Act → Prop) : Code → Prop where
  | line {acts : List Act} : (∀ a ∈ acts, A a) → All A J L (.line acts)
  | stop : All A J L .stop
  | jump {j : Jump} : J → All A J L (.jump j)
  | seq {a b : Code} : All A J L a → All A J L b → All A J L (.seq a b)
  | choice {os : List Code} : os ≠ [] → (∀ x ∈ os, All A J L x) → All A J L (.choice os)
  | inside {deeper : Bool} {b : Code} : All A J L b → All A J L (.inside deeper b)
  | loop {skippable : Bool} {head tail : List Act} {b : Code} :
      (∀ a ∈ head, A a) → All A J L b → (∀ a ∈ tail, A a) → L skippable head b tail →
      All A J L (.loop skippable head b tail)

/-- Code without jumps, in which every loop is as `L` says. -/
abbrev Code.Jumpless (L : Bool → List Act → Code → List Act → Prop) : Code → Prop := Code.All (fun _ => True) False L

/-- A property of skeletons that putting them together keeps. -/
structure Code.Composes (P : Code → Prop) : Prop where
  nil : P (.line [])
  stop : P .stop
  seq : ∀ {a b : Code}, P a → P b → P (.seq a b)
  choice : ∀ {os : List Code}, os ≠ [] → (∀ x ∈ os, P x) → P (.choice os)
  inside : ∀ {deeper : Bool} {b : Code}, P b → P (.inside deeper b)

namespace Stmt

open Code

/-- A statement that keeps a property of skeletons for its own part. -/
structure Keeps (P : Code → Prop) (s : Stmt) : Prop where
  line : ∀ acts ⊆ s.ownActs, P (.line acts)
  jump : ∀ j, s.isJump = true → P (.seq (.line [.see (.stmt s)]) (.jump j))
  loop : ∀ skippable head body tail, s.loop? = some (skippable, head, body, tail) → head ⊆ s.ownActs →
    tail ⊆ s.ownActs →
    P (codeAll body) → P (.loop skippable head (codeAll body) tail)

section

variable {P : Code → Prop} (hP : Composes P)

include hP

theorem codeAll_of {body : List Stmt} (h : ∀ s ∈ body, ∀ chained, P (code chained s)) : P (codeAll body) := by
  induction body with
  | nil => rw [codeAll]; exact hP.nil
  | cons s rest ih =>
    rw [codeAll]
    exact hP.seq (h s mem_cons_self false) (ih fun t ht => h t (mem_cons_of_mem _ ht))

theorem codeOther_of (h : ∀ body ∈ elseBody.toList, ∀ s ∈ body, ∀ chained, P (code chained s)) :
    P (codeOther elseBody) := by
  cases elseBody with
  | none => rw [codeOther]; exact hP.nil
  | some body => rw [codeOther]; exact codeAll_of hP (h body (by simp))

theorem codeElse_of (h : ∀ body ∈ elseBody.toList, ∀ s ∈ body, ∀ chained, P (code chained s)) :
    P (codeElse elseBody) := by
  match elseBody with
  | none => rw [codeElse]; exact hP.nil
  | some [] => rw [codeElse]; exact hP.nil
  | some [s] => rw [codeElse]; exact h [s] (by simp) s mem_cons_self true
  | some (s :: t :: rest) =>
    have hall := codeAll_of hP (h (s :: t :: rest) (by simp))
    rw [codeAll] at hall
    rwa [codeElse.eq_4 _ _ (by simp)]

theorem codeCases_of {branches : List (Branch Stmt)} (hvalues : ∀ b ∈ branches, P (.line (Expr.actsAll b.values)))
    (h : ∀ b ∈ branches, ∀ s ∈ b.body, ∀ chained, P (code chained s)) : ∀ x ∈ codeCases branches, P x := by
  induction branches with
  | nil => rw [codeCases]; exact fun x hx => absurd hx not_mem_nil
  | cons b rest ih =>
    intro x hx
    rw [codeCases] at hx
    rcases mem_cons.1 hx with rfl | hx
    · exact hP.seq (hvalues b mem_cons_self) (codeAll_of hP (h b mem_cons_self))
    · exact ih (fun c hc => hvalues c (mem_cons_of_mem _ hc)) (fun c hc => h c (mem_cons_of_mem _ hc)) x hx

/-- **What all statements inside a statement keep holds of its skeleton.** -/
theorem code_of (s : Stmt) (h : ∀ t ∈ s.nested, t.Keeps P) (chained : Bool) : P (code chained s) := by
  induction s using induct generalizing chained with
  | step s ih =>
    have hself := h s s.self_mem_nested
    have hinner : ∀ body ∈ s.bodies, ∀ t ∈ body, ∀ chained, P (code chained t) :=
      fun body hb t ht => ih body hb t ht fun u hu => h u (mem_nested_of_mem_bodies hb ht hu)
    have hbody : ∀ body ∈ s.bodies, P (codeAll body) := fun body hb => codeAll_of hP (hinner body hb)
    -- straight code in the skeleton of `s` is `s` itself, perhaps followed by expressions that it evaluates
    have hsee : .see (.stmt s) ∈ s.ownActs := mem_cons_self
    have hexpr : ∀ e ∈ s.exprs, e.acts ⊆ s.ownActs := fun e he a ha => mem_ownActs_of_mem_exprs he ha
    have honly : P (.line [.see (.stmt s)]) := hself.line _ (cons_subset.2 ⟨hsee, nil_subset _⟩)
    have hfirst : ∀ e ∈ s.exprs, P (.line (.see (.stmt s) :: e.acts)) := fun e he =>
      hself.line _ (cons_subset.2 ⟨hsee, hexpr e he⟩)
    cases s with
    | assignment target op value span =>
      have hassign : [Act.assign target op value] ⊆ (assignment target op value span).ownActs := fun a ha =>
        mem_cons_of_mem _ (mem_append_right _ ha)
      rw [code]
      refine hself.line _ (cons_subset.2 ⟨hsee, append_subset.2 ⟨hexpr value mem_cons_self, ?_⟩⟩)
      exact append_subset.2 ⟨hexpr target (mem_cons_of_mem _ mem_cons_self), hassign⟩
    | call c span => rw [code]; exact hfirst _ mem_cons_self
    | error c span => rw [code]; exact hP.seq (hfirst _ mem_cons_self) hP.stop
    | exit value span =>
      rw [code]
      refine hP.seq ?_ hP.stop
      cases value with
      | none => exact honly
      | some e => exact hfirst e mem_cons_self
    | jump j span => rw [code]; exact hself.jump j rfl
    | block body span => rw [code]; exact hP.seq honly (hbody body mem_cons_self)
    | withDo target body span =>
      rw [code]
      exact hP.seq (hfirst target mem_cons_self) (hbody body mem_cons_self)
    | ifThen condition thenBody elseBody span =>
      rw [code]
      refine hP.inside (hP.seq (hfirst condition mem_cons_self) (hP.choice (cons_ne_nil _ _) fun x hx => ?_))
      rcases mem_pair.1 hx with rfl | rfl
      · exact hbody thenBody mem_cons_self
      · exact codeElse_of hP fun body hb => hinner body (mem_cons_of_mem _ hb)
    | caseOf selector branches elseBody span =>
      rw [code]
      refine hP.seq (hfirst selector mem_cons_self) (hP.choice (by simp) fun x hx => ?_)
      rcases mem_append.1 hx with hx | hx
      · have hvalues : ∀ b ∈ branches, P (.line (Expr.actsAll b.values)) := by
          refine fun b hb => hself.line _ fun a ha => ?_
          rw [Expr.actsAll_eq] at ha
          obtain ⟨e, he, ha⟩ := mem_flatMap.1 ha
          exact hexpr e (mem_cons_of_mem _ (mem_flatMap.2 ⟨b, hb, he⟩)) ha
        refine codeCases_of hP hvalues (fun b hb => ?_) x hx
        exact hinner b.body (mem_append_left _ (mem_map_of_mem hb))
      · obtain rfl := mem_singleton.1 hx
        exact codeOther_of hP fun body hb => hinner body (mem_append_right _ hb)
    | repeatUntil body condition span =>
      rw [code]
      exact hP.seq honly (hself.loop _ _ _ _ rfl (nil_subset _) (hexpr condition mem_cons_self)
        (hbody body mem_cons_self))
    | whileDo condition body span =>
      rw [code]
      exact hP.seq honly (hself.loop _ _ _ _ rfl (hexpr condition mem_cons_self) (nil_subset _)
        (hbody body mem_cons_self))
    | forTo counter first last down body span =>
      have hbounds : first.acts ++ last.acts ⊆ (forTo counter first last down body span).ownActs :=
        append_subset.2 ⟨hexpr first mem_cons_self, hexpr last (mem_cons_of_mem _ mem_cons_self)⟩
      rw [code]
      exact hP.seq (hself.line _ (cons_subset.2 ⟨hsee, hbounds⟩))
        (hself.loop _ _ _ _ rfl (nil_subset _) (nil_subset _) (hbody body mem_cons_self))
    | forEach item iterable body span =>
      rw [code]
      exact hP.seq (hfirst iterable mem_cons_self)
        (hself.loop _ _ _ _ rfl (nil_subset _) (nil_subset _) (hbody body mem_cons_self))

end

variable {A : Act → Prop} {J : Prop} {L : Bool → List Act → Code → List Act → Prop}

/-- What is asked of a statement for its own part. -/
structure Fits (A : Act → Prop) (J : Prop) (L : Bool → List Act → Code → List Act → Prop) (s : Stmt) : Prop where
  acts : ∀ a ∈ s.ownActs, A a
  jumps : s.isJump = true → J
  loops : ∀ skippable head body tail, s.loop? = some (skippable, head, body, tail) →
    L skippable head (codeAll body) tail

theorem composes_all : Composes (Code.All A J L) where
  nil := .line fun _ ha => absurd ha not_mem_nil
  stop := .stop
  seq := .seq
  choice := .choice
  inside := .inside

theorem Fits.keeps (h : s.Fits A J L) : s.Keeps (Code.All A J L) where
  line _ hacts := .line fun a ha => h.acts a (hacts ha)
  jump _ hj := .seq (.line fun a ha => h.acts a (mem_singleton.1 ha ▸ mem_cons_self)) (.jump (h.jumps hj))
  loop skippable head body tail hl hhead htail hbody :=
    .loop (fun a ha => h.acts a (hhead ha)) hbody (fun a ha => h.acts a (htail ha))
      (h.loops skippable head body tail hl)

theorem all_code (s : Stmt) (h : ∀ t ∈ s.nested, t.Fits A J L) (chained : Bool) : (code chained s).All A J L :=
  code_of composes_all s (fun t ht => (h t ht).keeps) chained

/-- **What is asked of the statements nested in a body holds throughout its skeleton.** -/
theorem all_codeAll {body : List Stmt} (h : ∀ s ∈ allNested body, s.Fits A J L) : (codeAll body).All A J L :=
  codeAll_of composes_all fun s hs => all_code s fun _ ht => h _ (mem_allNested hs ht)

end Stmt

/-! ## What evaluating comes upon -/

/-- An act that is part of evaluating something among `es`. -/
def Act.Evaluates (es : List Expr) : Act → Prop
  | see n => ∃ e ∈ es, n = .expr e
  | call k => k.toExpr ∈ es
  | assign .. => False

theorem Act.Evaluates.mono {es fs : List Expr} (h : es ⊆ fs) (ha : a.Evaluates es) : a.Evaluates fs := by
  cases a with
  | see n =>
    obtain ⟨e, he, hn⟩ := ha
    exact ⟨e, h he, hn⟩
  | call k => exact h ha
  | assign target op value => exact ha

namespace Expr

/-- Evaluating an expression comes upon what is in it and makes the calls that are in it, and nothing else. -/
theorem evaluates (e : Expr) : ∀ a ∈ e.acts, a.Evaluates e.subexpressions := by
  induction e using induct with
  | step e ih =>
    intro a ha
    rw [acts_eq, mem_append, mem_cons] at ha
    rcases ha with ha | rfl | ha
    · obtain ⟨d, hd, ha⟩ := mem_flatMap.1 ha
      exact (ih d hd a ha).mono (subexpressions_subset hd)
    · exact ⟨e, e.self_mem_subexpressions, rfl⟩
    · obtain ⟨k, hk, rfl⟩ := mem_map.1 ha
      obtain rfl := eq_toExpr_of_asCall? (Option.mem_toList.1 hk)
      exact self_mem_subexpressions _

theorem evaluatesAll (es : List Expr) : ∀ a ∈ actsAll es, a.Evaluates (allSubexpressions es) := by
  intro a ha
  rw [actsAll_eq] at ha
  obtain ⟨e, he, ha⟩ := mem_flatMap.1 ha
  rw [allSubexpressions_eq]
  exact (e.evaluates a ha).mono fun _ hx => mem_flatMap.2 ⟨e, he, hx⟩

end Expr

end AlLint
