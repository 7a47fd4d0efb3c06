import AlLint.Proofs.Flow.Fact

/-!
# What a change needs

Every change of a flow state can be read backwards: a fact is known after it exactly if certain facts were known
before it. To know after `V := W` that `V` is loaded fully, one has to know before that `W` is; after `V.Get`
one has to know nothing; after `V.SetLoadFields` nothing helps, short of not getting there.

`Needs` is that reading. Code in sequence, paths that meet and passes of a loop all stay within it, and merging
before or after makes no difference to any of it (`after_inter`): the whole analysis distributes over merges.
-/

namespace AlLint

open List FlowState

variable {R S : Needs} {K : Set Fact} {s : FlowState} {q r : String} {ch : Change}

/-- For each fact, what has to be known before for it to be known after. -/
abbrev Needs := Fact → Set Fact

namespace Needs

/-- What is known after, from what was known before. -/
def after (R : Needs) (K : Set Fact) : Set Fact := {f | R f ⊆ K}

def keep : Needs := fun f => {f}

def never : Needs := fun _ => ∅

def andThen (first second : Needs) : Needs := fun f => {h | ∃ g ∈ second f, h ∈ first g}

def meet (R S : Needs) : Needs := fun f => R f ∪ S f

theorem mem_after {f : Fact} : f ∈ R.after K ↔ R f ⊆ K := Iff.rfl

@[simp] theorem after_keep (K : Set Fact) : keep.after K = K := by
  ext f
  simp [after, keep]

@[simp] theorem after_never (K : Set Fact) : never.after K = Set.univ := by
  ext f
  simp [after, never]

@[simp] theorem after_andThen (R S : Needs) (K : Set Fact) : (R.andThen S).after K = S.after (R.after K) := by
  ext f
  constructor
  · intro h g hg k hk
    exact h ⟨g, hg, hk⟩
  · rintro h k ⟨g, hg, hk⟩
    exact h hg hk

@[simp] theorem after_meet (R S : Needs) (K : Set Fact) : (R.meet S).after K = R.after K ∩ S.after K := by
  ext f
  simp [after, meet]

/-- **Going on from a merge is merging what comes of going on.** -/
theorem after_inter (R : Needs) (K L : Set Fact) : R.after (K ∩ L) = R.after K ∩ R.after L := by
  ext f
  simp [after]

theorem after_mono (R : Needs) {L : Set Fact} (h : K ⊆ L) : R.after K ⊆ R.after L :=
  fun _ hf => hf.trans h

theorem after_anti (h : ∀ f, R f ⊆ S f) (K : Set Fact) : S.after K ⊆ R.after K :=
  fun f hf => (h f).trans hf

theorem andThen_mono {R' S' : Needs} (hR : ∀ f, R f ⊆ R' f) (hS : ∀ f, S f ⊆ S' f) (f : Fact) :
    R.andThen S f ⊆ R'.andThen S' f := by
  rintro h ⟨g, hg, hh⟩
  exact ⟨g, hS f hg, hR g hh⟩

@[simp] theorem keep_andThen (R : Needs) : keep.andThen R = R := by
  funext f
  ext h
  simp [andThen, keep]

@[simp] theorem andThen_keep (R : Needs) : R.andThen keep = R := by
  funext f
  ext h
  simp [andThen, keep]

theorem andThen_assoc (R S T : Needs) : (R.andThen S).andThen T = R.andThen (S.andThen T) := by
  funext f
  ext h
  constructor
  · rintro ⟨g, hg, k, hk, hh⟩
    exact ⟨k, ⟨g, hg, hk⟩, hh⟩
  · rintro ⟨k, ⟨g, hg, hk⟩, hh⟩
    exact ⟨g, hg, k, hk, hh⟩

end Needs

/-! ## Elementary changes -/

/-- An elementary change of a flow state. -/
inductive Change where
  | load (record : String) (mark : Option Load)
  | take (record source : String)
  | check (record : String)
  | uncheck (record : String)
  | commit

namespace Change

def apply (s : FlowState) : Change → FlowState
  | load r (some l) => s.mark r l
  | load r none => s.unmark r
  | take r q =>
    match s.loads.get? q with
    | some l => s.mark r l
    | none => s.unmark r
  | check r => s.check r
  | uncheck r => s.uncheck r
  | commit => { s with commit := true }

def needs : Change → Needs
  | load r mark, .whole q => if q = r then if mark = some .part then {.unreached} else ∅ else {.whole q}
  | load r mark, .full q => if q = r then if mark = some .full then ∅ else {.unreached} else {.full q}
  | take r source, .whole q => if q = r then {.whole source} else {.whole q}
  | take r source, .full q => if q = r then {.full source} else {.full q}
  | check r, .checked q => if q = r then ∅ else {.checked q}
  | uncheck r, .checked q => if q = r then {.unreached} else {.checked q}
  | commit, .uncommitted => {.unreached}
  | _, f => {f}

@[simp] theorem reachable_apply (s : FlowState) (ch : Change) : (ch.apply s).reachable = s.reachable := by
  cases ch with
  | load r mark => cases mark <;> rfl
  | take r q => simp only [apply]; split <;> rfl
  | check r => simp only [apply, FlowState.check]; split <;> rfl
  | uncheck r => rfl
  | commit => rfl

theorem get?_load (s : FlowState) (r : String) (mark : Option Load) (q : String) :
    ((load r mark).apply s).loads.get? q = if q = r then mark else s.loads.get? q := by
  split
  · rename_i h
    subst h
    cases mark with
    | none => exact Keyed.get?_erase_self ..
    | some l => exact Keyed.get?_insert_self ..
  · rename_i h
    cases mark with
    | none => exact Keyed.get?_erase_of_ne _ h
    | some l => exact Keyed.get?_insert_of_ne _ _ h

/-- Taking over a mark is setting the mark that the other record has. -/
theorem take_apply (s : FlowState) (r q : String) : (take r q).apply s = (load r (s.loads.get? q)).apply s := by
  simp only [apply]
  split
  · rename_i h
    rw [h]
  · rename_i h
    rw [h]

theorem mem_checked_check :
    q ∈ ((check r).apply s).checked ↔ q = r ∨ q ∈ s.checked := by
  simp only [apply, FlowState.check]
  split
  · rename_i h
    rw [contains_eq_mem, decide_eq_true_iff] at h
    exact ⟨Or.inr, fun hq => hq.elim (fun he => he ▸ h) id⟩
  · exact mem_cons

theorem mem_checked_uncheck :
    q ∈ ((uncheck r).apply s).checked ↔ q ∈ s.checked ∧ q ≠ r := by
  simp [apply, FlowState.uncheck]

/-- A fact can be read off a changed state exactly if what it needs can be read off the state before. -/
theorem in_apply (ch : Change) (s : FlowState) (f : Fact) :
    f.In (ch.apply s) ↔ ∀ g ∈ ch.needs f, g.In s := by
  -- a mark that is set, also one that is taken over, decides both facts about the loading of its record
  have hload : ∀ (r : String) (mark : Option Load) (f : Fact),
      f.In ((load r mark).apply s) ↔ ∀ g ∈ (load r mark).needs f, g.In s := by
    intro r mark f
    cases f with
    | whole q =>
      by_cases h : q = r
      · by_cases hm : mark = some .part <;> simp [Fact.In, get?_load, needs, h, hm]
      · simp [Fact.In, get?_load, needs, h]
    | full q =>
      by_cases h : q = r
      · by_cases hm : mark = some .full <;> simp [Fact.In, get?_load, needs, h, hm]
      · simp [Fact.In, get?_load, needs, h]
    | unreached => simp [Fact.In, needs]
    | checked q => cases mark <;> simp [Fact.In, needs, apply, FlowState.mark, FlowState.unmark]
    | uncommitted => cases mark <;> simp [Fact.In, needs, apply, FlowState.mark, FlowState.unmark]
  cases ch with
  | load r mark => exact hload r mark f
  | take r q =>
    rw [take_apply, hload]
    cases f with
    | whole p => by_cases h : p = r <;> simp [needs, h, Fact.In]
    | full p => by_cases h : p = r <;> simp [needs, h, Fact.In]
    | unreached => simp [needs]
    | checked p => simp [needs]
    | uncommitted => simp [needs]
  | check r =>
    have hsame : ((check r).apply s).loads = s.loads ∧ ((check r).apply s).commit = s.commit := by
      simp only [apply, FlowState.check]
      split <;> exact ⟨rfl, rfl⟩
    cases f with
    | checked q =>
      simp only [Fact.In]
      rw [mem_checked_check]
      by_cases h : q = r <;> simp [needs, h]
    | whole q => simp [needs, Fact.In, hsame.1]
    | full q => simp [needs, Fact.In, hsame.1]
    | unreached => simp [needs, Fact.In]
    | uncommitted => simp [needs, Fact.In, hsame.2]
  | uncheck r =>
    cases f with
    | checked q =>
      simp only [Fact.In]
      rw [mem_checked_uncheck]
      by_cases h : q = r <;> simp [needs, h]
    | whole q => simp [needs, Fact.In, apply, FlowState.uncheck]
    | full q => simp [needs, Fact.In, apply, FlowState.uncheck]
    | unreached => simp [needs, Fact.In]
    | uncommitted => simp [needs, Fact.In, apply, FlowState.uncheck]
  | commit => cases f <;> simp [needs, Fact.In, apply]

/-- **A change does to what is known what its needs say.** -/
theorem known_apply (ch : Change) (s : FlowState) : (ch.apply s).known = ch.needs.after s.known := by
  by_cases hr : s.reachable = true
  · ext f
    rw [mem_known_of_reachable ((reachable_apply s ch).trans hr), in_apply, Needs.mem_after]
    exact forall₂_congr fun g _ => (mem_known_of_reachable hr).symm
  · -- nothing is lost where no path arrives
    have hs : s.reachable = false := by simpa using hr
    rw [known_of_unreachable hs,
      known_of_unreachable ((reachable_apply s ch).trans hs)]
    exact (Set.eq_univ_of_forall fun f => Set.subset_univ _).symm

/-- A change that sets no mark but the two that the analysis makes. -/
def Plain (ch : Change) : Prop := ∀ r l, ch = .load r (some l) → l = .full ∨ l = .part

theorem plain_apply (h : s.Plain) (hch : ch.Plain) : (ch.apply s).Plain := by
  have hload : ∀ (r : String) (mark : Option Load), (∀ l, mark = some l → l = .full ∨ l = .part) →
      ((load r mark).apply s).Plain := by
    intro r mark hm q l hl
    rw [get?_load] at hl
    split at hl
    · exact hm l hl
    · exact h q l hl
  cases ch with
  | load r mark => exact hload r mark fun l hl => hch r l (by rw [hl])
  | take r q =>
    rw [take_apply]
    exact hload r _ fun l hl => h q l hl
  | check r =>
    simp only [apply, FlowState.check]
    split <;> exact h
  | uncheck r => exact h
  | commit => exact h

/-- A record takes over the marks of another one. -/
def Copies : Change → Prop
  | take _ _ => True
  | _ => False

/-- The changes that calls make: a test is made or forgotten, a mark is set to one of two or taken away, a
commit is seen. -/
inductive OfCall : Change → Prop where
  | check (r : String) : OfCall (.check r)
  | uncheck (r : String) : OfCall (.uncheck r)
  | full (r : String) : OfCall (.load r (some .full))
  | part (r : String) : OfCall (.load r (some .part))
  | unmark (r : String) : OfCall (.load r none)
  | commit : OfCall .commit

theorem OfCall.plain (h : ch.OfCall) : ch.Plain := by
  intro r l hl
  cases h with
  | full q => cases hl; exact Or.inl rfl
  | part q => cases hl; exact Or.inr rfl
  | _ => cases hl

theorem OfCall.not_copies (h : ch.OfCall) : ¬ ch.Copies := by
  cases h <;> exact id

/-- What one change after another does to a state. -/
def applyAll (s : FlowState) (changes : List Change) : FlowState := changes.foldl apply s

def needsAll : List Change → Needs
  | [] => .keep
  | ch :: rest => ch.needs.andThen (needsAll rest)

theorem known_applyAll (changes : List Change) (s : FlowState) :
    (applyAll s changes).known = (needsAll changes).after s.known := by
  induction changes generalizing s with
  | nil => rw [needsAll, Needs.after_keep]; rfl
  | cons ch rest ih =>
    rw [needsAll, Needs.after_andThen, ← known_apply]
    exact ih (ch.apply s)

theorem plain_applyAll {changes : List Change} (hch : ∀ ch ∈ changes, ch.Plain) (h : s.Plain) :
    (applyAll s changes).Plain := by
  induction changes generalizing s with
  | nil => exact h
  | cons ch rest ih =>
    exact ih (fun x hx => hch x (mem_cons_of_mem _ hx)) (plain_apply h (hch ch mem_cons_self))

end Change

/-! ## What calls and assignments change -/

/-- What a method changes about the record it is called on. -/
def Context.methodChanges (method record : String) : List Change :=
  (match method with
    | "get" => [.load record (some .full)]
    | "setloadfields" | "addloadfields" => [.load record (some .part)]
    | "isempty" => [.check record]
    | "reset" => [.load record none]
    | _ => []) ++ if Context.filterMethods.contains method then [.uncheck record] else []

/-- What a call changes. -/
def Context.callChanges (c : Context) (call : Call) : List Change :=
  if call.isGlobal then
    match call.method, call.args with
    | "commit", _ => [.commit]
    | "clear", .name n _ _ :: _ =>
      if c.isRecord (Text.lower n) then [.load (Text.lower n) none, .uncheck (Text.lower n)] else []
    | _, _ => []
  else
    match c.recordReceiver? call with
    | none => []
    | some record => Context.methodChanges call.method record

/-- What an assignment changes. -/
def Context.assignmentChanges (c : Context) (target : Expr) (op : AssignOp) (value : Expr) : List Change :=
  match op, target with
  | .set, .name n _ _ =>
    if c.isRecord (Text.lower n) then
      match value with
      | .name m _ _ =>
        if c.isRecord (Text.lower m) then [.take (Text.lower n) (Text.lower m)] else [.load (Text.lower n) none]
      | _ => [.load (Text.lower n) none]
    else []
  | _, _ => []

/-- What an act changes. -/
def Act.changes (c : Context) : Act → List Change
  | .see _ => []
  | .call k => c.callChanges k
  | .assign target op value => c.assignmentChanges target op value

namespace Context

theorem ofCall_methodChanges (method record : String) : ∀ ch ∈ methodChanges method record, ch.OfCall := by
  intro ch hch
  rcases mem_append.1 hch with h | h
  · split at h
    · rw [mem_singleton.1 h]; exact .full record
    · rw [mem_singleton.1 h]; exact .part record
    · rw [mem_singleton.1 h]; exact .part record
    · rw [mem_singleton.1 h]; exact .check record
    · rw [mem_singleton.1 h]; exact .unmark record
    · exact absurd h not_mem_nil
  · split at h
    · rw [mem_singleton.1 h]; exact .uncheck record
    · exact absurd h not_mem_nil

theorem ofCall_callChanges (c : Context) (call : Call) : ∀ ch ∈ c.callChanges call, ch.OfCall := by
  intro ch hch
  unfold callChanges at hch
  split at hch
  · split at hch
    · rw [mem_singleton.1 hch]
      exact .commit
    · split at hch
      · rcases mem_pair.1 hch with rfl | rfl
        · exact .unmark _
        · exact .uncheck _
      · exact absurd hch not_mem_nil
    · exact absurd hch not_mem_nil
  · split at hch
    · exact absurd hch not_mem_nil
    · exact ofCall_methodChanges _ _ ch hch

theorem plain_assignmentChanges (c : Context) (target : Expr) (op : AssignOp) (value : Expr) :
    ∀ ch ∈ c.assignmentChanges target op value, ch.Plain := by
  intro ch hch r l hl
  subst hl
  unfold assignmentChanges at hch
  split at hch
  · split at hch
    · split at hch
      · split at hch <;> simp at hch
      · simp at hch
    · simp at hch
  · simp at hch

end Context

theorem Act.plain_changes (c : Context) (a : Act) : ∀ ch ∈ a.changes c, ch.Plain := by
  cases a with
  | see n => exact fun ch hch => absurd hch not_mem_nil
  | call k => exact fun ch hch => (c.ofCall_callChanges k ch hch).plain
  | assign target op value => exact c.plain_assignmentChanges target op value

namespace Context

theorem methodEffect_eq (method record : String) (s : FlowState) :
    methodEffect method record s = Change.applyAll s (methodChanges method record) := by
  unfold methodEffect methodChanges
  dsimp only
  by_cases hf : filterMethods.contains method = true
  · rw [if_pos hf, if_pos hf]
    split <;> simp_all [Change.applyAll, Change.apply]
  · rw [if_neg hf, if_neg hf]
    split <;> simp_all [Change.applyAll, Change.apply]

theorem applyCall_of_other (c : Context) {call : Call} (hglobal : call.isGlobal = true)
    (hcommit : call.method ≠ "commit") (hclear : call.method ≠ "clear") : c.applyCall call = c := by
  rw [applyCall, if_pos hglobal]
  split
  · exact absurd ‹_› hcommit
  · exact absurd ‹_› hclear
  · rfl

theorem callChanges_of_other (c : Context) {call : Call} (hglobal : call.isGlobal = true)
    (hcommit : call.method ≠ "commit") (hclear : call.method ≠ "clear") : c.callChanges call = [] := by
  rw [callChanges, if_pos hglobal]
  split
  · exact absurd ‹_› hcommit
  · exact absurd ‹_› hclear
  · rfl

theorem applyCall_of_clear (c : Context) {call : Call} (hglobal : call.isGlobal = true)
    (hclear : call.method = "clear") : c.applyCall call = c.update (Change.applyAll · (c.callChanges call)) := by
  rw [applyCall, callChanges, if_pos hglobal, if_pos hglobal, hclear]
  cases call.args with
  | nil => rfl
  | cons e rest =>
    cases e with
    | name n quoted span =>
      by_cases hr : c.isRecord (Text.lower n) = true
      · simp only [hr, if_true]
        rfl
      · simp only [hr]
        rfl
    | _ => rfl

theorem applyCall_eq (c : Context) (call : Call) :
    c.applyCall call = c.update (Change.applyAll · (c.callChanges call)) := by
  -- functions are told apart by name, methods by name and by whether their receiver is a record
  by_cases hglobal : call.isGlobal = true
  · by_cases hclear : call.method = "clear"
    · exact c.applyCall_of_clear hglobal hclear
    by_cases hcommit : call.method = "commit"
    · rw [applyCall, callChanges, if_pos hglobal, if_pos hglobal, hcommit]
      rfl
    · rw [c.applyCall_of_other hglobal hcommit hclear, c.callChanges_of_other hglobal hcommit hclear]
      rfl
  · rw [applyCall, callChanges, if_neg hglobal, if_neg hglobal]
    cases c.recordReceiver? call with
    | none => rfl
    | some record => exact congrArg c.update (funext (methodEffect_eq call.method record))

theorem update_take (c : Context) (r q : String) :
    (match c.state.loads.get? q with
      | some load => c.update (·.mark r load)
      | none => c.update (·.unmark r)) = c.update (Change.applyAll · [.take r q]) := by
  simp only [update, Change.applyAll, List.foldl, Change.apply]
  cases c.state.loads.get? q <;> rfl

theorem applyAssignment_eq (c : Context) (target : Expr) (op : AssignOp) (value : Expr) :
    c.applyAssignment target op value =
      c.update (Change.applyAll · (c.assignmentChanges target op value)) := by
  cases op with
  | set =>
    cases target with
    | name n quoted span =>
      unfold applyAssignment assignmentChanges
      dsimp only
      by_cases hr : c.isRecord (Text.lower n) = true
      · simp only [hr, Bool.not_true, Bool.false_eq_true, if_false, if_true]
        cases value with
        | name m _ _ =>
          by_cases hm : c.isRecord (Text.lower m) = true
          · simp only [hm, if_true]
            exact c.update_take _ _
          · simp only [hm, if_false, Bool.false_eq_true]
            rfl
        | _ => rfl
      · simp only [hr, Bool.not_false, if_true, Bool.false_eq_true, if_false]
        rfl
    | _ => rfl
  | _ => rfl

end Context

/-- **What an act does is what it changes.** -/
theorem Act.apply_eq (c : Context) (a : Act) : a.apply c = c.update (Change.applyAll · (a.changes c)) := by
  cases a with
  | see n => rfl
  | call k => exact c.applyCall_eq k
  | assign target op value => exact c.applyAssignment_eq target op value

end AlLint
