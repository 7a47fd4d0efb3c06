import AlLint.Catalog.Registry
import AlLint.Proofs.Flow.Related
import AlLint.Proofs.Rule.Visible

/-!
# Whose options a rule looks at

A rule finds the options of all rules in the context, but it has no business with those of others.
`IgnoresOptionsOf` says that a rule says the same whatever the options of one other rule are. The rules that
come with the program read no options but their own, and rules that are made of formulas read none at all, as
long as the formulas stay inside of their view.
-/

namespace AlLint

open List

variable {s : Rule}

/-- The options with those of one rule replaced. -/
def Options.set (o : Options) (id : String) (own : Keyed Document) : Options :=
  o.map fun e => if e.1 = id then (e.1, own) else e

theorem Options.get?_set_of_ne (o : Options) {id other : String} (own : Keyed Document) (h : other ≠ id) :
    (o.set id own).get? other = o.get? other := by
  induction o with
  | nil => rfl
  | cons e rest ih =>
    have ih : Keyed.get? (rest.map fun e => if e.1 = id then (e.1, own) else e) other = Keyed.get? rest other := ih
    by_cases he : e.1 = id
    · simp [set, Keyed.get?, he, h, ih]
    · simp [set, Keyed.get?, he, ih]

theorem Options.set_eq_self {o : Options} {id : String} {own : Keyed Document} (h : ∀ e ∈ o, e.1 = id → e.2 = own) :
    o.set id own = o := by
  have hsame : ∀ e ∈ o, (if e.1 = id then (e.1, own) else e) = e := by
    intro e he
    by_cases hid : e.1 = id
    · rw [if_pos hid, ← h e he hid]
    · rw [if_neg hid]
  rw [set, map_congr_left hsame]
  exact map_id' o

theorem Context.option?_set (c : Context) {id rule : String} (own : Keyed Document) (h : rule ≠ id) (name : String) :
    (c.withOptions (c.options.set id own)).option? rule name = c.option? rule name := by
  show ((c.options.set id own).get? rule).bind (·.get? name) = _
  rw [Options.get?_set_of_ne _ _ h, option?]

namespace Rule

/-- A rule says the same whatever the options of the rule with some id are. -/
def IgnoresOptionsOf (s : Rule) (id : String) : Prop :=
  ∀ (file : SourceFile) (sight : Sight) (own : Keyed Document),
    s.check file (sight.withOptions (sight.context.options.set id own)) = s.check file sight

/-- A rule says the same whatever the options are. -/
def IgnoresOptions (s : Rule) : Prop :=
  ∀ (file : SourceFile) (sight : Sight) (o : Options), s.check file (sight.withOptions o) = s.check file sight

theorem IgnoresOptions.of (h : s.IgnoresOptions) (id : String) : s.IgnoresOptionsOf id :=
  fun file sight _ => h file sight _

end Rule

/-! ## The rules that come with the program -/

namespace Catalog

variable {id rule : String} (c : Context) (own : Keyed Document)

theorem option_set (h : rule ≠ id) (name : String) (default : Document) :
    (c.withOptions (c.options.set id own)).option rule name default = c.option rule name default := by
  rw [Context.option, Context.option?_set c own h, Context.option]

theorem ruleInPage_ignores (h : "rule-in-page" ≠ id) : ruleInPage.IgnoresOptionsOf id := by
  intro file sight own
  have hlogic : ∀ s, logicInAction (sight.context.withOptions (sight.context.options.set id own)) s =
      logicInAction sight.context s := by
    intro s
    simp only [logicInAction, option_set _ _ h]
    rfl
  simp only [ruleInPage, onStmtWith, Sight.withOptions, hlogic]

theorem nestedConditionals_ignores (h : "nested-conditionals" ≠ id) : nestedConditionals.IgnoresOptionsOf id := by
  intro file sight own
  have hdeep : ∀ s, deepCondition (sight.context.withOptions (sight.context.options.set id own)) s =
      deepCondition sight.context s := by
    intro s
    simp only [deepCondition, option_set _ _ h]
    rfl
  simp only [nestedConditionals, onStmtWith, Sight.withOptions, hdeep]

theorem naming_ignores (h : "naming" ≠ id) : naming.IgnoresOptionsOf id := by
  intro file sight own
  have hname : ∀ v, variableName (sight.context.withOptions (sight.context.options.set id own)) v =
      variableName sight.context v := by
    intro v
    simp only [variableName, labelEnding, option_set _ _ h]
  have hlabel : passedLabel (sight.context.withOptions (sight.context.options.set id own)) =
      passedLabel sight.context := by
    funext call
    simp only [passedLabel, option_set _ _ h]
    rfl
  have hobject : ∀ d, objectName (sight.context.withOptions (sight.context.options.set id own)) d =
      objectName sight.context d := fun _ => rfl
  simp only [naming, Sight.withOptions, hname, hlabel, hobject]

/-- The rules that come with the program read no options but their own. -/
theorem ignores_of_mem_rules (hs : s ∈ rules) (h : s.id ≠ id) : s.IgnoresOptionsOf id := by
  by_cases hpage : s = ruleInPage
  · subst hpage
    exact ruleInPage_ignores h
  by_cases hnested : s = nestedConditionals
  · subst hnested
    exact nestedConditionals_ignores h
  by_cases hnaming : s = naming
  · subst hnaming
    exact naming_ignores h
  -- no other rule looks at options
  refine Rule.IgnoresOptions.of ?_ id
  simp only [rules, mem_cons, not_mem_nil, hpage, hnested, hnaming, false_or, or_false] at hs
  rcases hs with rfl | rfl | rfl | rfl | rfl | rfl | rfl | rfl | rfl | rfl <;> exact fun _ _ _ => rfl

end Catalog

/-! ## Rules that are made of formulas -/

/-- A rule is made of formulas that stay inside of their view, wherever the rule looks. -/
def Rule.StaysInside (s : Rule) : Prop :=
  ∃ host condition message, s.check = CustomRule.check host condition message ∧
    ∀ file sight, CustomRule.StaysInside condition message file sight

theorem Context.sameFace_withOptions (c : Context) (o : Options) : c.SameFace (c.withOptions o) :=
  ⟨rfl, rfl, rfl, rfl, fun _ => rfl, fun _ => rfl⟩

theorem Rule.StaysInside.ignores (h : s.StaysInside) : s.IgnoresOptions := by
  obtain ⟨host, condition, message, hcheck, hinside⟩ := h
  intro file sight o
  rw [hcheck]
  exact (CustomRule.check_eq host (sight.context.sameFace_withOptions o) file sight.node (hinside file sight)).symm

/-- A rule keeps to what it is given: it comes with the program, or it is made of formulas that stay inside of
their view. -/
def Rule.KeepsToItself (s : Rule) : Prop := s ∈ Catalog.rules ∨ s.StaysInside

/-- **No rule that keeps to what it is given looks at the options of another one.** -/
theorem Rule.KeepsToItself.ignores (hs : s.KeepsToItself) {id : String} (h : s.id ≠ id) : s.IgnoresOptionsOf id := by
  rcases hs with hs | hs
  · exact Catalog.ignores_of_mem_rules hs h
  · exact hs.ignores.of id

end AlLint
