import AlLint.Flow.Walk

/-!
# The control skeleton of a body

A walk has thirteen kinds of statement to deal with, but only seven things ever happen to the flow: straight
code runs, a path ends, a pass through a loop is left, code follows code, paths part and meet, a condition
counts as one more around, and a loop goes round. `Code` has one constructor for each of them. `Stmt.code`
brings a statement into that form, and `walkAll_eq_walk` says that nothing is lost: walking the body and walking
its skeleton are the same function.

What later files prove about the flow they prove about `Code`, by an induction with seven cases, and carry over here.
-/

namespace AlLint

open Walk List

/-- What happens in straight code: a node is come upon, or a call or an assignment takes effect. -/
inductive Act where
  | see (node : Node)
  | call (call : Call)
  | assign (target : Expr) (op : AssignOp) (value : Expr)

namespace Act

/-- What an act does to the context. -/
def apply (c : Context) : Act → Context
  | see _ => c
  | call k => c.applyCall k
  | assign target op value => c.applyAssignment target op value

def node? : Act → Option Node
  | see n => some n
  | _ => none

def walk : Act → Walk
  | see n => Walk.see n
  | call k => change (·.applyCall k)
  | assign target op value => change (·.applyAssignment target op value)

end Act

def Walk.line : List Act → Walk
  | [] => stay
  | a :: rest => a.walk.andThen (line rest)

/-- The nodes of straight code, in order. -/
def Act.nodes (acts : List Act) : List Node := acts.filterMap Act.node?

/-- The control skeleton of code. One pass of a loop goes through `head`, `body` and `tail`. A loop that may be
skipped is left after `head`, any other one after `tail`. -/
inductive Code where
  | line (acts : List Act)
  | stop
  | jump (j : Jump)
  | seq (first second : Code)
  | choice (options : List Code)
  | inside (deeper : Bool) (body : Code)
  | loop (skippable : Bool) (head : List Act) (body : Code) (tail : List Act)

namespace Code

/-- **Induction over skeletons**, with a hypothesis for every option of a choice. -/
@[elab_as_elim, induction_eliminator]
theorem induct {motive : Code → Prop}
    (line : ∀ acts, motive (.line acts))
    (stop : motive .stop)
    (jump : ∀ j, motive (.jump j))
    (seq : ∀ first second, motive first → motive second → motive (.seq first second))
    (choice : ∀ options, (∀ o ∈ options, motive o) → motive (.choice options))
    (inside : ∀ deeper body, motive body → motive (.inside deeper body))
    (loop : ∀ skippable head body tail, motive body → motive (.loop skippable head body tail)) :
    ∀ code, motive code
  | .line acts => line acts
  | .stop => stop
  | .jump j => jump j
  | .seq a b =>
    seq a b (induct line stop jump seq choice inside loop a)
      (induct line stop jump seq choice inside loop b)
  | .choice os => choice os fun o _ => induct line stop jump seq choice inside loop o
  | .inside d b => inside d b (induct line stop jump seq choice inside loop b)
  | .loop s h b t => loop s h b t (induct line stop jump seq choice inside loop b)

/-- What one pass of a loop walks through. -/
def round (head : List Act) (body : Walk) (tail : List Act) : Walk :=
  (Walk.line head).andThen (body.andThen (Walk.line tail))

def walk : Code → Walk
  | line acts => Walk.line acts
  | stop => change (·.terminate)
  | jump _ => stay
  | seq a b => a.walk.andThen b.walk
  | choice os => branches (os.map walk)
  | inside deeper b => Walk.inside deeper b.walk
  | loop skippable head b tail => Walk.loop skippable (round head b.walk tail)

/-- The nodes in a skeleton, in the order in which a walk comes upon them. -/
def nodes : Code → List Node
  | line acts => Act.nodes acts
  | stop => []
  | jump _ => []
  | seq a b => a.nodes ++ b.nodes
  | choice os => os.flatMap nodes
  | inside _ b => b.nodes
  | loop _ head b tail => Act.nodes head ++ (b.nodes ++ Act.nodes tail)

end Code

/-! ## What is inside an expression -/

namespace Expr

variable {d e : Expr}

/-- The expressions right inside an expression, from left to right. -/
def operands : Expr → List Expr
  | constant .. => []
  | name .. => []
  | member target _ _ _ => [target]
  | scope target _ _ => [target]
  | index target indices _ => target :: indices
  | unary _ operand _ => [operand]
  | binary _ left right _ => [left, right]
  | set items _ => items
  | call callee args _ _ => callee :: args

/-- What is evaluated of that which is called: nothing of a name, and of a method the object it is called on. -/
def calleeOperands : Expr → List Expr
  | name .. => []
  | member target _ _ _ => [target]
  | scope target _ _ => [target]
  | e => [e]

/-- The expressions right inside an expression that are evaluated, from left to right. -/
def evaluated : Expr → List Expr
  | call callee args _ _ => callee.calleeOperands ++ args
  | e => e.operands

theorem sizeOf_lt_of_mem_operands (h : d ∈ e.operands) : sizeOf d < sizeOf e := by
  have hlist : ∀ {es : List Expr}, d ∈ es → sizeOf d < sizeOf es := fun h => sizeOf_lt_of_mem h
  cases e <;> simp only [operands, mem_cons, not_mem_nil, or_false] at h <;> grind

theorem allSubexpressions_eq (es : List Expr) : allSubexpressions es = es.flatMap subexpressions := by
  induction es with
  | nil => rw [allSubexpressions, flatMap_nil]
  | cons e es ih => rw [allSubexpressions, ih, flatMap_cons]

theorem subexpressions_eq (e : Expr) : e.subexpressions = e :: e.operands.flatMap subexpressions := by
  cases e <;> simp [subexpressions, operands, allSubexpressions_eq]

theorem self_mem_subexpressions (e : Expr) : e ∈ e.subexpressions := by
  rw [subexpressions_eq]
  exact mem_cons_self

theorem subexpressions_subset_of_mem_operands (h : d ∈ e.operands) : d.subexpressions ⊆ e.subexpressions := by
  rw [subexpressions_eq e]
  exact fun _ hx => mem_cons_of_mem _ (mem_flatMap.2 ⟨d, h, hx⟩)

/-- What is evaluated right inside an expression is an operand, or an operand of what is called. -/
theorem mem_evaluated (h : d ∈ e.evaluated) : d ∈ e.operands ∨ ∃ callee ∈ e.operands, d ∈ callee.operands := by
  cases e with
  | call callee args implicit span =>
    rcases mem_append.1 h with h | h
    · cases callee with
      | name => cases h
      | member | scope => exact .inr ⟨_, mem_cons_self, h⟩
      | _ => exact .inl (mem_singleton.1 h ▸ mem_cons_self)
    · exact .inl (mem_cons_of_mem _ h)
  | _ => exact .inl h

theorem subexpressions_subset (h : d ∈ e.evaluated) : d.subexpressions ⊆ e.subexpressions := by
  rcases mem_evaluated h with h | ⟨callee, hcallee, h⟩
  · exact subexpressions_subset_of_mem_operands h
  · exact List.Subset.trans (subexpressions_subset_of_mem_operands h) (subexpressions_subset_of_mem_operands hcallee)

/-- **Induction over expressions**, from those that are evaluated inside an expression to the expression. -/
@[elab_as_elim]
theorem induct {motive : Expr → Prop} (step : ∀ e, (∀ d ∈ e.evaluated, motive d) → motive e) (e : Expr) : motive e :=
  step e fun d hd => by
    have hsmaller : sizeOf d < sizeOf e := by
      rcases mem_evaluated hd with h | ⟨callee, hcallee, h⟩
      · exact sizeOf_lt_of_mem_operands h
      · exact Nat.lt_trans (sizeOf_lt_of_mem_operands h) (sizeOf_lt_of_mem_operands hcallee)
    exact induct step d
termination_by sizeOf e
decreasing_by omega

theorem eq_toExpr_of_asCall? {k : Call} (h : e.asCall? = some k) : e = k.toExpr := by
  cases e with
  | call callee args implicit span =>
    cases h
    rfl
  | _ => cases h

end Expr

/-! ## From syntax to skeletons -/

mutual

/-- What happens when an expression is evaluated: operands come first, and a call takes effect after its arguments. -/
def Expr.acts : Expr → List Act
  | e@(.constant ..) => [.see (.expr e)]
  | e@(.name ..) => [.see (.expr e)]
  | e@(.member target _ _ _) => target.acts ++ [.see (.expr e)]
  | e@(.scope target _ _) => target.acts ++ [.see (.expr e)]
  | e@(.index target indices _) => target.acts ++ (actsAll indices ++ [.see (.expr e)])
  | e@(.unary _ operand _) => operand.acts ++ [.see (.expr e)]
  | e@(.binary _ left right _) => left.acts ++ (right.acts ++ [.see (.expr e)])
  | e@(.set items _) => actsAll items ++ [.see (.expr e)]
  | e@(.call callee args implicit span) =>
    let before :=
      match callee with
      | .name .. => []
      | .member target _ _ _ => target.acts
      | .scope target _ _ => target.acts
      | other => other.acts
    before ++ (actsAll args ++ [.see (.expr e), .call ⟨callee, args, implicit, span⟩])

/-- What happens when expressions are evaluated from left to right. -/
def Expr.actsAll : List Expr → List Act
  | [] => []
  | e :: es => e.acts ++ actsAll es

end

/-- What happens when an expression is evaluated that may be missing. -/
def Expr.actsOption : Option Expr → List Act
  | none => []
  | some e => e.acts

mutual

/-- The skeleton of a statement. A chained `if` does not count as one more around. -/
def Stmt.code (chained : Bool) : Stmt → Code
  | s@(.assignment target op value _) =>
    .line (.see (.stmt s) :: (value.acts ++ (target.acts ++ [.assign target op value])))
  | s@(.call c _) => .line (.see (.stmt s) :: c.toExpr.acts)
  | s@(.error c _) => .seq (.line (.see (.stmt s) :: c.toExpr.acts)) .stop
  | s@(.exit value _) => .seq (.line (.see (.stmt s) :: Expr.actsOption value)) .stop
  | s@(.jump j _) => .seq (.line [.see (.stmt s)]) (.jump j)
  | s@(.block body _) => .seq (.line [.see (.stmt s)]) (codeAll body)
  | s@(.withDo target body _) => .seq (.line (.see (.stmt s) :: target.acts)) (codeAll body)
  | s@(.ifThen condition thenBody elseBody _) =>
    .inside (!chained) (.seq (.line (.see (.stmt s) :: condition.acts))
      (.choice [codeAll thenBody, codeElse elseBody]))
  | s@(.caseOf selector cases elseBody _) =>
    .seq (.line (.see (.stmt s) :: selector.acts)) (.choice (codeCases cases ++ [codeOther elseBody]))
  | s@(.repeatUntil body condition _) =>
    .seq (.line [.see (.stmt s)]) (.loop false [] (codeAll body) condition.acts)
  | s@(.whileDo condition body _) =>
    .seq (.line [.see (.stmt s)]) (.loop true condition.acts (codeAll body) [])
  | s@(.forTo _ first last _ body _) =>
    .seq (.line (.see (.stmt s) :: (first.acts ++ last.acts))) (.loop true [] (codeAll body) [])
  | s@(.forEach _ iterable body _) =>
    .seq (.line (.see (.stmt s) :: iterable.acts)) (.loop true [] (codeAll body) [])

/-- The skeleton of a list of statements. -/
def Stmt.codeAll : List Stmt → Code
  | [] => .line []
  | s :: rest => .seq (Stmt.code false s) (codeAll rest)

/-- The skeleton of the else branch of an `if`. -/
def Stmt.codeElse : Option (List Stmt) → Code
  | none => .line []
  | some [] => .line []
  | some [s] => Stmt.code true s
  | some (s :: rest) => .seq (Stmt.code false s) (codeAll rest)

/-- The skeleton of the else branch of a `case`. -/
def Stmt.codeOther : Option (List Stmt) → Code
  | none => .line []
  | some body => codeAll body

/-- The skeletons of the branches of a `case`. -/
def Stmt.codeCases : List (Branch Stmt) → List Code
  | [] => []
  | ⟨values, body, _⟩ :: rest => .seq (.line (Expr.actsAll values)) (codeAll body) :: codeCases rest

end

/-! ## The same walk -/

namespace Walk

theorem stay_andThen (w : Walk) : stay.andThen w = w := by
  funext c
  simp [andThen, stay]

theorem andThen_stay (w : Walk) : w.andThen stay = w := by
  funext c
  simp [andThen, stay]

theorem andThen_assoc (u v w : Walk) : (u.andThen v).andThen w = u.andThen (v.andThen w) := by
  funext c
  simp [andThen]

theorem line_append (as bs : List Act) : line (as ++ bs) = (line as).andThen (line bs) := by
  induction as with
  | nil => rw [nil_append, line, stay_andThen]
  | cons a rest ih => rw [cons_append, line, line, ih, andThen_assoc]

theorem line_singleton (a : Act) : line [a] = a.walk := by
  rw [line, line, andThen_stay]

end Walk

namespace Expr

/-- What a call does in the end. -/
def effect (e : Expr) : List Act := e.asCall?.toList.map Act.call

theorem actsAll_eq (es : List Expr) : actsAll es = es.flatMap acts := by
  induction es with
  | nil => rfl
  | cons e es ih => rw [actsAll, ih, flatMap_cons]

theorem acts_eq (e : Expr) : e.acts = e.evaluated.flatMap acts ++ .see (.expr e) :: e.effect := by
  cases e with
  | call callee args implicit span =>
    cases callee <;>
      simp only [acts, evaluated, calleeOperands, actsAll_eq, nil_append, cons_append, flatMap_cons,
        append_assoc] <;> rfl
  | _ => simp [acts, evaluated, operands, actsAll_eq, effect, asCall?]

theorem walk_eq (e : Expr) : e.walk = (walkAll e.evaluated).andThen (line (.see (.expr e) :: e.effect)) := by
  cases e with
  | call callee args implicit span =>
    cases callee <;>
      simp only [walk, evaluated, calleeOperands, nil_append, cons_append, walkAll, stay_andThen, andThen_assoc]
        <;> rfl
  | _ =>
    simp [walk, walkAll, evaluated, operands, effect, asCall?, line, Act.walk, stay_andThen,
      andThen_stay, andThen_assoc]

theorem walkAll_eq_line_of {es : List Expr} (h : ∀ e ∈ es, e.walk = line e.acts) :
    walkAll es = line (es.flatMap acts) := by
  induction es with
  | nil => rfl
  | cons e es ih =>
    obtain ⟨he, hes⟩ := forall_mem_cons.1 h
    rw [walkAll, flatMap_cons, line_append, he, ih hes]

theorem walk_eq_line (e : Expr) : e.walk = line e.acts := by
  induction e using induct with
  | step e ih => rw [walk_eq, acts_eq, line_append, walkAll_eq_line_of ih]

theorem walkAll_eq_line (es : List Expr) : walkAll es = line (actsAll es) := by
  rw [actsAll_eq]
  exact walkAll_eq_line_of fun e _ => walk_eq_line e

end Expr

theorem Expr.walkOption_eq_line (e : Option Expr) : Expr.walkOption e = line (Expr.actsOption e) := by
  cases e with
  | none => rfl
  | some e => exact Expr.walk_eq_line e

theorem Walk.line_see (s : Stmt) (acts : List Act) :
    line (.see (.stmt s) :: acts) = (Walk.see (.stmt s)).andThen (line acts) := rfl

mutual

theorem Stmt.walk_eq_walk : ∀ (chained : Bool) (s : Stmt), Stmt.walk chained s = (Stmt.code chained s).walk
  | _, .assignment target op value _ => by
    rw [Stmt.walk, Stmt.code, Code.walk, line_see, line_append, line_append, line_singleton,
      Expr.walk_eq_line value, Expr.walk_eq_line target]; rfl
  | _, .call c _ => by
    rw [Stmt.walk, Stmt.code, Code.walk, line_see, Expr.walk_eq_line]
  | _, .error c _ => by
    rw [Stmt.walk, Stmt.code, Code.walk, Code.walk, Code.walk, line_see, andThen_assoc, Expr.walk_eq_line]
  | _, .exit value _ => by
    rw [Stmt.walk, Stmt.code, Code.walk, Code.walk, Code.walk, line_see, andThen_assoc,
      Expr.walkOption_eq_line]
  | _, .jump _ _ => by
    rw [Stmt.walk, Stmt.code, Code.walk, Code.walk, Code.walk, andThen_stay, line_singleton]; rfl
  | _, .block body _ => by
    rw [Stmt.walk, Stmt.code, Code.walk, Code.walk, line_singleton, walkAll_eq_walk body]; rfl
  | _, .withDo target body _ => by
    rw [Stmt.walk, Stmt.code, Code.walk, Code.walk, line_see, andThen_assoc, Expr.walk_eq_line,
      walkAll_eq_walk body]
  | chained, .ifThen condition thenBody elseBody _ => by
    rw [Stmt.walk, Stmt.code, Code.walk, Code.walk, Code.walk, Code.walk, line_see, andThen_assoc,
      Expr.walk_eq_line, walkAll_eq_walk thenBody, walkElse_eq_walk elseBody]; rfl
  | _, .caseOf selector cases elseBody _ => by
    rw [Stmt.walk, Stmt.code, Code.walk, Code.walk, Code.walk, line_see, andThen_assoc, Expr.walk_eq_line,
      walkCases_eq_walk cases, walkOther_eq_walk elseBody, map_append]; rfl
  | _, .repeatUntil body condition _ => by
    rw [Stmt.walk, Stmt.code, Code.walk, Code.walk, Code.walk, Code.round, line_singleton, line,
      stay_andThen, Expr.walk_eq_line, walkAll_eq_walk body]; rfl
  | _, .whileDo condition body _ => by
    rw [Stmt.walk, Stmt.code, Code.walk, Code.walk, Code.walk, Code.round, line_singleton, line,
      andThen_stay, Expr.walk_eq_line, walkAll_eq_walk body]; rfl
  | _, .forTo _ first last _ body _ => by
    rw [Stmt.walk, Stmt.code, Code.walk, Code.walk, Code.walk, Code.round, line_see, line_append,
      andThen_assoc, andThen_assoc, line, stay_andThen, andThen_stay, Expr.walk_eq_line first,
      Expr.walk_eq_line last, walkAll_eq_walk body]
  | _, .forEach _ iterable body _ => by
    rw [Stmt.walk, Stmt.code, Code.walk, Code.walk, Code.walk, Code.round, line_see, andThen_assoc, line,
      stay_andThen, andThen_stay, Expr.walk_eq_line, walkAll_eq_walk body]

/-- **A body and its skeleton are walked alike.** -/
theorem Stmt.walkAll_eq_walk : ∀ body : List Stmt, Stmt.walkAll body = (Stmt.codeAll body).walk
  | [] => by rw [Stmt.walkAll, Stmt.codeAll, Code.walk]; rfl
  | s :: rest => by
    rw [Stmt.walkAll, Stmt.codeAll, Code.walk, walk_eq_walk false s, walkAll_eq_walk rest]

theorem Stmt.walkElse_eq_walk :
    ∀ body : Option (List Stmt), Stmt.walkElse body = (Stmt.codeElse body).walk
  | none => by rw [Stmt.walkElse, Stmt.codeElse, Code.walk]; rfl
  | some [] => by rw [Stmt.walkElse, Stmt.codeElse, Code.walk]; rfl
  | some [s] => by rw [Stmt.walkElse, Stmt.codeElse, walk_eq_walk true s]
  | some (s :: t :: rest) => by
    rw [Stmt.walkElse, Stmt.codeElse, Code.walk, walk_eq_walk false s, walkAll_eq_walk (t :: rest)]
    · simp
    · simp

theorem Stmt.walkOther_eq_walk :
    ∀ body : Option (List Stmt), Stmt.walkOther body = (Stmt.codeOther body).walk
  | none => by rw [Stmt.walkOther, Stmt.codeOther, Code.walk]; rfl
  | some body => by rw [Stmt.walkOther, Stmt.codeOther, walkAll_eq_walk body]

theorem Stmt.walkCases_eq_walk :
    ∀ cases : List (Branch Stmt), Stmt.walkCases cases = (Stmt.codeCases cases).map Code.walk
  | [] => by rw [Stmt.walkCases, Stmt.codeCases, map_nil]
  | ⟨values, body, _⟩ :: rest => by
    rw [Stmt.walkCases, Stmt.codeCases, map_cons, Code.walk, Code.walk, Expr.walkAll_eq_line,
      walkAll_eq_walk body, walkCases_eq_walk rest]

end

end AlLint
