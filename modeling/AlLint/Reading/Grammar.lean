import AlLint.Reading.TypeRef
import AlLint.Source.Numeral
import AlLint.Syntax.Element

/-!
# Reading the grammar

The readers of expressions, statements, code and objects, each built on those before it. A reader says in
its outcome how far it has come, so its loops and its recursion end because tokens are used up.
-/

namespace AlLint.Reading

variable {depth : Int} {ts : List Token}

/-!
## Reading expressions

The levels of the grammar, from the loosest to the tightest: a range, relations, sums, products, signs
and negation, and what follows a primary expression (members, scopes, calls and indices). The operators of one
level group to the left; a range does not chain.
-/

def reservedWords : List String := [
  "begin", "end", "if", "then", "else", "case", "of", "repeat", "until", "while", "do", "for",
  "foreach", "to", "downto", "exit", "with", "var"]

def implicitMethods : List String := [
  "get", "isempty", "findset", "findfirst", "findlast", "find", "next", "count", "countapprox",
  "insert", "modify", "delete", "deleteall", "modifyall", "reset", "init", "locktable",
  "istemporary", "getfilters", "hasfilter"]

inductive Level where
  | relation
  | sum
  | product
deriving DecidableEq, Repr

namespace Level

/-- How loosely the operators of a level bind; a measure for the readers. -/
def rank : Level → Nat
  | relation => 3
  | sum => 2
  | product => 1

def signs : Level → List BinaryOp
  | relation => [.equal, .notEqual, .less, .greater, .lessEqual, .greaterEqual]
  | sum => [.plus, .minus]
  | product => [.times, .divide]

def words : Level → List BinaryOp
  | relation => [.isIn]
  | sum => [.or, .xor]
  | product => [.wholeDivide, .modulo, .and]

def operator? (level : Level) (t : Token) : Option BinaryOp :=
  match level.signs.find? fun op => t.isOp op.text with
  | some op => some op
  | none => level.words.find? fun op => t.isWord op.text

end Level

def unaryOp? (t : Token) : Option UnaryOp :=
  if t.isWord "not" then some .not
  else if t.isOp "-" then some .minus
  else if t.isOp "+" then some .plus
  else none

inductive Start where
  | constant (value : String) (kind : LiteralKind)
  | name (name : String) (quoted : Bool)
  | group
  | set

def Start.of? (t : Token) : Option Start :=
  match t.kind with
  | .number => some (.constant t.text (.ofNumber t.text))
  | .string => some (.constant t.value .string)
  | .quoted => some (.name t.value true)
  | .ident =>
    if ["true", "false"].contains t.lower then some (.constant t.lower .boolean)
    else if reservedWords.contains t.lower then none
    else some (.name t.value false)
  | .op => if t.text = "(" then some .group else if t.text = "[" then some .set else none
  | .eof => none

/-- What can follow an expression and become part of it. -/
inductive Suffix where
  | member
  | scope
  | call
  | index

/-- The start of a suffix that a token is. A literal takes no index. -/
def Suffix.of? (literal : Bool) (t : Token) : Option Suffix :=
  if t.isOp "." then some .member
  else if t.isOp "::" then some .scope
  else if t.isOp "(" then some .call
  else if t.isOp "[" && !literal then some .index
  else none

def isLiteral : Expr → Bool
  | .constant .. => true
  | _ => false

/-- The member `name` of an expression. Some methods are called by it, unless an argument list follows. -/
def memberOf (target : Expr) (name next : Token) (span : Span) : Expr :=
  let e : Expr := .member target name.value name.isQuoted span
  if implicitMethods.contains name.lower && !next.isOp "(" then .call e [] true span else e

mutual

/-- Reads an expression. The upper end of a range may be left out before a comma, a colon or a closing
bracket. -/
def expression (inp : Input) (c : Cursor) : Outcome Expr c.size :=
  (operands inp .relation c).andThen fun left c₁ h₁ =>
    match c₁.acceptOp ".." with
    | none => .ok left c₁ h₁
    | some (_, ⟨c₂, h₂⟩) =>
      if (c₂.head inp).isOpIn [",", "]", ":", ")"] then
        .ok (.binary .range left (.constant "" .string c₂.last.span) (c₂.spanFrom (c.head inp))) c₂
          (by omega)
      else
        (operands inp .relation c₂).andThen fun right c₃ h₃ =>
          .ok (.binary .range left right (c₃.spanFrom (c.head inp))) c₃ (by omega)
termination_by (c.size, 9)
decreasing_by all_goals simp only [Level.rank]; omega

def operands (inp : Input) (level : Level) (c : Cursor) : Outcome Expr c.size :=
  (operand inp level c).andThen fun left c₁ _ => (operators inp level (c.head inp) left c₁).weaken
termination_by (c.size, 2 * level.rank + 2)
decreasing_by all_goals omega

/-- Reads one operand of a level: what the next tighter level reads. -/
def operand (inp : Input) (level : Level) (c : Cursor) : Outcome Expr c.size :=
  match level with
  | .relation => operands inp .sum c
  | .sum => operands inp .product c
  | .product => unary inp c
termination_by (c.size, 2 * level.rank + 1)
decreasing_by all_goals simp only [Level.rank]; omega

/-- Reads further operands of a level and joins them to `left`, which starts at the token `start`. -/
def operators (inp : Input) (level : Level) (start : Token) (left : Expr) (c : Cursor) :
    Outcome Expr (c.size + 1) :=
  match c.take level.operator? with
  | none => .ok left c (by omega)
  | some (op, ⟨c₁, h₁⟩) =>
    (operand inp level c₁).andThen fun right c₂ _ =>
      (operators inp level start (.binary op left right (c₂.spanFrom start)) c₂).weaken
termination_by (c.size, 0)
decreasing_by all_goals omega

def unary (inp : Input) (c : Cursor) : Outcome Expr c.size :=
  match c.take unaryOp? with
  | none => access inp c
  | some (op, ⟨c₁, h₁⟩) =>
    (unary inp c₁).andThen fun e c₂ _ => .ok (.unary op e (c₂.spanFrom (c.head inp))) c₂ (by omega)
termination_by (c.size, 2)
decreasing_by all_goals omega

def access (inp : Input) (c : Cursor) : Outcome Expr c.size :=
  (primary inp c).andThen fun e c₁ _ => (suffixes inp (c.head inp) e c₁).weaken
termination_by (c.size, 1)
decreasing_by all_goals omega

/-- Reads what follows the expression `e`, which starts at the token `start`. -/
def suffixes (inp : Input) (start : Token) (e : Expr) (c : Cursor) : Outcome Expr (c.size + 1) :=
  match c.take (Suffix.of? (isLiteral e)) with
  | none => .ok e c (by omega)
  | some (.member, ⟨c₁, h₁⟩) =>
    (c₁.expectName inp "after '.'").andThen fun name c₂ _ =>
      (suffixes inp start (memberOf e name (c₂.head inp) (c₂.spanFrom start)) c₂).weaken
  | some (.scope, ⟨c₁, h₁⟩) =>
    (c₁.expect inp (fun t => t.isName || t.kind == .number) (.expectedName "after '::'")).andThen
      fun name c₂ _ => (suffixes inp start (.scope e name.value (c₂.spanFrom start)) c₂).weaken
  | some (.call, ⟨c₁, h₁⟩) =>
    (arguments inp ")" c₁).andThen fun args c₂ _ =>
      (suffixes inp start (.call e args false (c₂.spanFrom start)) c₂).weaken
  | some (.index, ⟨c₁, h₁⟩) =>
    (arguments inp "]" c₁).andThen fun args c₂ _ =>
      (suffixes inp start (.index e args (c₂.spanFrom start)) c₂).weaken
termination_by (c.size, 0)
decreasing_by all_goals omega

/-- Reads expressions separated by commas up to a closing bracket; there may be none. -/
def arguments (inp : Input) (closing : String) (c : Cursor) : Outcome (List Expr) c.size :=
  match c.acceptOp closing with
  | some (_, ⟨c₁, h₁⟩) => .ok [] c₁ h₁
  | none =>
    (expressions inp c).andThen fun args c₁ _ =>
      (c₁.expectOp inp closing "to close argument list").andThen fun _ c₂ _ => .ok args c₂ (by omega)
termination_by (c.size, 11)
decreasing_by all_goals omega

def expressions (inp : Input) (c : Cursor) : Outcome (List Expr) c.size :=
  (expression inp c).andThen fun e c₁ h₁ =>
    match c₁.acceptOp "," with
    | none => .ok [e] c₁ h₁
    | some (_, ⟨c₂, h₂⟩) =>
      (expressions inp c₂).andThen fun es c₃ _ => .ok (e :: es) c₃ (by omega)
termination_by (c.size, 10)
decreasing_by all_goals omega

def primary (inp : Input) (c : Cursor) : Outcome Expr c.size :=
  match c.take Start.of? with
  | none => c.failHere inp (.expectedExpression (c.head inp).found)
  | some (.constant value kind, ⟨c₁, h₁⟩) => .ok (.constant value kind (c.head inp).span) c₁ h₁
  | some (.name name quoted, ⟨c₁, h₁⟩) => .ok (.name name quoted (c.head inp).span) c₁ h₁
  | some (.group, ⟨c₁, h₁⟩) =>
    (expression inp c₁).andThen fun e c₂ _ =>
      (c₂.expectOp inp ")" "to close parenthesis").andThen fun _ c₃ _ => .ok e c₃ (by omega)
  | some (.set, ⟨c₁, h₁⟩) =>
    (arguments inp "]" c₁).andThen fun items c₂ _ =>
      .ok (.set items (c₂.spanFrom (c.head inp))) c₂ (by omega)
termination_by (c.size, 0)
decreasing_by all_goals omega

end

/-!
## Reading statements

A statement that cannot be read is reported and left behind: reading goes on after the next semicolon, or
before a word that ends a block, with blocks in between skipped as a whole. So a list of statements can
always be read, and every step of the recovery uses a token.
-/

def assignOp? (t : Token) : Option AssignOp :=
  [AssignOp.set, .add, .subtract, .multiply, .divide].find? fun op => t.isOp op.text

def jump? (t : Token) : Option Jump := [Jump.leave, .next].find? fun j => t.isWord j.text

/-- The call that an expression is when it stands as a statement: a call, or a name that is called without
parentheses. -/
def statementCall? : Expr → Option Call
  | .call callee args implicit span => some ⟨callee, args, implicit, span⟩
  | e@(.name _ _ span) | e@(.member _ _ _ span) | e@(.scope _ _ span) => some ⟨e, [], true, span⟩
  | _ => none

/-- A call as a statement. `Error` is a statement of its own. -/
def callStatement (call : Call) (span : Span) : Stmt :=
  if call.isGlobal && call.method == "error" then .error call span else .call call span

/-- What a branch with a single statement holds: the statements of a block, or the statement itself. -/
def unwrapped : Stmt → List Stmt
  | .block body _ => body
  | s => [s]

/-- Words that open a part of code which is skipped as a whole, each with the word that closes it. -/
def closer? (t : Token) : Option String :=
  if t.isWordIn ["begin", "case"] then some "end" else if t.isWord "repeat" then some "until" else none

/-- Skips over a damaged statement. `closers` are the words that will close the blocks entered on the way,
innermost first; `stops` are the words before which to stop outside of all blocks. -/
def skipStatement (stops : List String) (closers : List String) (last : Token) (issues : List Issue) :
    List Token → Cursor
  | [] => ⟨last, [], issues⟩
  | t :: ts =>
    if t.isOp "\x7d" then ⟨last, t :: ts, issues⟩
    else
      match closer? t, closers with
      | some closer, _ => skipStatement stops (closer :: closers) t issues ts
      | none, closer :: outer =>
        skipStatement stops (if t.isWord closer then outer else closers) t issues ts
      | none, [] =>
        if t.isOp ";" then ⟨t, ts, issues⟩
        else if t.isWordIn stops then ⟨last, t :: ts, issues⟩
        else skipStatement stops [] t issues ts

theorem size_skipStatement_le (stops closers : List String) (last : Token) (issues : List Issue)
    (ts : List Token) : (skipStatement stops closers last issues ts).size ≤ ts.length := by
  fun_induction skipStatement stops closers last issues ts <;> simp_all [Cursor.size] <;> omega

/-- Recovers after a statement that starts with `t`, goes on in `ts` and failed at `c`. If no token was used,
the first one is left behind. -/
def resumeStatement (terminators : List String) (t : Token) (ts : List Token) (c : Cursor) : Cursor :=
  let stops := "end" :: "until" :: "else" :: terminators
  if c.size ≤ ts.length then skipStatement stops [] c.last c.issues c.rest
  else skipStatement stops (closer? t).toList t c.issues ts

theorem size_resumeStatement_le (terminators : List String) (t : Token) (ts : List Token) (c : Cursor) :
    (resumeStatement terminators t ts c).size ≤ ts.length := by
  unfold resumeStatement
  split
  · exact Nat.le_trans (size_skipStatement_le ..) ‹_›
  · exact size_skipStatement_le ..

inductive Opening where
  | block
  | ifThen
  | caseOf
  | repeatUntil
  | whileDo
  | forTo
  | forEach
  | exit
  | withDo
  | assertError

def openings : List (String × Opening) := [
  ("begin", .block), ("if", .ifThen), ("case", .caseOf), ("repeat", .repeatUntil), ("while", .whileDo),
  ("for", .forTo), ("foreach", .forEach), ("exit", .exit), ("with", .withDo), ("asserterror", .assertError)]

def Opening.of? (t : Token) : Option Opening :=
  (openings.find? fun entry => t.isWord entry.1).map Prod.snd

def endsList (terminators : List String) (t : Token) : Bool :=
  t.kind == .eof || t.isOp "\x7d" || t.isWordIn terminators

def endsBranch (t : Token) : Bool :=
  t.kind == .eof || t.isOpIn [";", "\x7d"] || t.isWordIn ["else", "end", "until"]

def endsJump (t : Token) : Bool := t.isOp ";" || t.isWordIn ["end", "until", "else"]

def simpleStatement (inp : Input) (c : Cursor) : Outcome Stmt c.size :=
  (access inp c).andThen fun e c₁ h₁ =>
    match c₁.take assignOp? with
    | some (op, ⟨c₂, h₂⟩) =>
      (expression inp c₂).andThen fun value c₃ _ =>
        .ok (.assignment e op value (c₃.spanFrom (c.head inp))) c₃ (by omega)
    | none =>
      match statementCall? e with
      | some call => .ok (callStatement call (c₁.spanFrom (c.head inp))) c₁ h₁
      | none => .fail ⟨.notAStatement, e.span⟩ c₁ (Nat.le_of_lt h₁)

/-- Reads the end of a block that the token `opener` opened, or reports that it is missing. -/
def blockEnd (inp : Input) (opener : Token) (c : Cursor) : Read Unit c.size :=
  match c.acceptWord "end" with
  | some (_, ⟨c₁, h₁⟩) => ⟨(), c₁, Nat.le_of_lt h₁⟩
  | none => ⟨(), c.report (.missingEnd "begin" opener.span.line) (c.head inp).span, Nat.le_refl _⟩

def forDirection (inp : Input) (c : Cursor) : Outcome Bool c.size :=
  match c.acceptWord "downto" with
  | some (_, ⟨c₁, h₁⟩) => .ok true c₁ h₁
  | none => (c.expectWord inp "to" "in 'for' statement").map fun _ => false

mutual

def statement (inp : Input) (c : Cursor) : Outcome Stmt c.size :=
  let start := c.head inp
  match c.take Opening.of? with
  | some (.block, ⟨c₁, h₁⟩) =>
    match compound inp start c₁ with
    | ⟨body, c₂, h₂⟩ => .ok (.block body (c₂.spanFrom start)) c₂ (by omega)
  | some (.ifThen, ⟨c₁, h₁⟩) =>
    (expression inp c₁).andThen fun condition c₂ _ =>
      (c₂.expectWord inp "then" "after 'if' condition").andThen fun _ c₃ _ =>
        (branch inp c₃).andThen fun thenBody c₄ _ =>
          match c₄.acceptWord "else" with
          | none => .ok (.ifThen condition thenBody none (c₄.spanFrom start)) c₄ (by omega)
          | some (_, ⟨c₅, h₅⟩) =>
            (branch inp c₅).andThen fun elseBody c₆ _ =>
              .ok (.ifThen condition thenBody (some elseBody) (c₆.spanFrom start)) c₆ (by omega)
  | some (.caseOf, ⟨c₁, h₁⟩) =>
    (expression inp c₁).andThen fun selector c₂ _ =>
      (c₂.expectWord inp "of" "after 'case' selector").andThen fun _ c₃ _ =>
        (branches inp start c₃).andThen fun parts c₄ _ =>
          (c₄.expectWord inp "end" "to close 'case'").andThen fun _ c₅ _ =>
            .ok (.caseOf selector parts.1 parts.2 (c₅.spanFrom start)) c₅ (by omega)
  | some (.repeatUntil, ⟨c₁, h₁⟩) =>
    match statements inp ["until"] c₁ with
    | ⟨body, c₂, h₂⟩ =>
      (c₂.expectWord inp "until" s!"to close 'repeat' on line {start.span.line}").andThen fun _ c₃ _ =>
        (expression inp c₃).andThen fun condition c₄ _ =>
          .ok (.repeatUntil body condition (c₄.spanFrom start)) c₄ (by omega)
  | some (.whileDo, ⟨c₁, h₁⟩) =>
    (expression inp c₁).andThen fun condition c₂ _ =>
      (c₂.expectWord inp "do" "after 'while' condition").andThen fun _ c₃ _ =>
        (branch inp c₃).andThen fun body c₄ _ =>
          .ok (.whileDo condition body (c₄.spanFrom start)) c₄ (by omega)
  | some (.forTo, ⟨c₁, h₁⟩) =>
    (c₁.expectName inp "after 'for'").andThen fun name c₂ _ =>
      (c₂.expectOp inp ":=" "in 'for' statement").andThen fun _ c₃ _ =>
        (expression inp c₃).andThen fun first c₄ _ =>
          (forDirection inp c₄).andThen fun down c₅ _ =>
            (expression inp c₅).andThen fun last c₆ _ =>
              (c₆.expectWord inp "do" "in 'for' statement").andThen fun _ c₇ _ =>
                (branch inp c₇).andThen fun body c₈ _ =>
                  .ok (.forTo (.name name.value name.isQuoted name.span) first last down body
                    (c₈.spanFrom start)) c₈ (by omega)
  | some (.forEach, ⟨c₁, h₁⟩) =>
    (c₁.expectName inp "after 'foreach'").andThen fun name c₂ _ =>
      (c₂.expectWord inp "in" "in 'foreach' statement").andThen fun _ c₃ _ =>
        (expression inp c₃).andThen fun iterable c₄ _ =>
          (c₄.expectWord inp "do" "in 'foreach' statement").andThen fun _ c₅ _ =>
            (branch inp c₅).andThen fun body c₆ _ =>
              .ok (.forEach (.name name.value name.isQuoted name.span) iterable body (c₆.spanFrom start)) c₆
                (by omega)
  | some (.exit, ⟨c₁, h₁⟩) =>
    match c₁.acceptOp "(" with
    | none => .ok (.exit none (c₁.spanFrom start)) c₁ h₁
    | some (_, ⟨c₂, h₂⟩) =>
      if (c₂.head inp).isOp ")" then
        (c₂.expectOp inp ")" "after exit value").andThen fun _ c₃ _ =>
          .ok (.exit none (c₃.spanFrom start)) c₃ (by omega)
      else
        (expression inp c₂).andThen fun value c₃ _ =>
          (c₃.expectOp inp ")" "after exit value").andThen fun _ c₄ _ =>
            .ok (.exit (some value) (c₄.spanFrom start)) c₄ (by omega)
  | some (.withDo, ⟨c₁, h₁⟩) =>
    (expression inp c₁).andThen fun target c₂ _ =>
      (c₂.expectWord inp "do" "after 'with' target").andThen fun _ c₃ _ =>
        (branch inp c₃).andThen fun body c₄ _ =>
          .ok (.withDo target body (c₄.spanFrom start)) c₄ (by omega)
  | some (.assertError, ⟨c₁, h₁⟩) =>
    (statement inp c₁).andThen fun inner c₂ _ => .ok (.block [inner] (c₂.spanFrom start)) c₂ (by omega)
  | none =>
    match (c.take jump?).filter fun found => endsJump (found.2.1.head inp) with
    | some (jump, ⟨c₁, h₁⟩) => .ok (.jump jump start.span) c₁ h₁
    | none =>
      if reservedWords.contains start.lower then c.failHere inp (.unexpectedWord start.found)
      else simpleStatement inp c
termination_by (c.size, 1)
decreasing_by all_goals omega

/-- Reads the statements of a block that the token `opener` opened, and its end. -/
def compound (inp : Input) (opener : Token) (c : Cursor) : Read (List Stmt) c.size :=
  match statements inp ["end"] c with
  | ⟨body, c₁, h₁⟩ =>
    match blockEnd inp opener c₁ with
    | ⟨_, c₂, h₂⟩ => ⟨body, c₂, by omega⟩
termination_by (c.size, 3)
decreasing_by all_goals omega

/-- Reads what follows `then`, `else`, `do` or a case value: a statement, or nothing. -/
def branch (inp : Input) (c : Cursor) : Outcome (List Stmt) (c.size + 1) :=
  if endsBranch (c.head inp) then .ok [] c (by omega)
  else (statement inp c).andThen fun s c₁ _ => .ok (unwrapped s) c₁ (by omega)
termination_by (c.size, 2)
decreasing_by all_goals omega

/-- Reads the branches of a case statement that the token `start` opened, up to its end. -/
def branches (inp : Input) (start : Token) (c : Cursor) :
    Outcome (List (Branch Stmt) × Option (List Stmt)) (c.size + 1) :=
  let t := c.head inp
  if t.isWord "end" then .ok ([], none) c (by omega)
  else if t.kind == .eof || t.isOp "\x7d" then
    .fail ⟨.missingEnd "case" start.span.line, t.span⟩ c (by omega)
  else
    match c.acceptOp ";" with
    | some (_, ⟨c₁, h₁⟩) => (branches inp start c₁).weaken
    | none =>
      match c.acceptWord "else" with
      | some (_, ⟨c₁, h₁⟩) =>
        match statements inp ["end"] c₁ with
        | ⟨body, c₂, h₂⟩ => .ok ([], some body) c₂ (by omega)
      | none =>
        (expressions inp c).andThen fun values c₁ _ =>
          (c₁.expectOp inp ":" "after case value").andThen fun _ c₂ _ =>
            (branch inp c₂).andThen fun body c₃ _ =>
              let part : Branch Stmt := ⟨values, body, c₃.spanFrom t⟩
              match c₃.acceptOp ";" with
              | some (_, ⟨c₄, h₄⟩) =>
                (branches inp start c₄).andThen fun rest c₅ _ => .ok (part :: rest.1, rest.2) c₅ (by omega)
              | none =>
                if (c₃.head inp).isWordIn ["end", "else"] then
                  (branches inp start c₃).andThen fun rest c₅ _ => .ok (part :: rest.1, rest.2) c₅ (by omega)
                else
                  .fail ⟨.unterminatedBranch (c₃.head inp).found, (c₃.head inp).span⟩ c₃ (by omega)
termination_by (c.size, 0)
decreasing_by all_goals omega

/-- Reads statements up to one of the words in `terminators`, a closing brace or the end. -/
def statements (inp : Input) (terminators : List String) (c : Cursor) : Read (List Stmt) c.size :=
  match hc : c.rest with
  | [] => ⟨[], c, Nat.le_refl _⟩
  | t :: ts =>
    have hlt : ts.length < c.size := by simp [Cursor.size, hc]
    if endsList terminators t then ⟨[], c, Nat.le_refl _⟩
    else if t.isOp ";" then
      match statements inp terminators (c.past t ts) with
      | ⟨body, c₁, h₁⟩ => ⟨body, c₁, by simp only [Cursor.past, Cursor.size] at *; omega⟩
    else
      match statement inp c with
      | .fail issue c₁ _ =>
        have h₂ := size_resumeStatement_le terminators t ts (c₁.report issue.complaint issue.span)
        match statements inp terminators
          (resumeStatement terminators t ts (c₁.report issue.complaint issue.span)) with
        | ⟨body, c₂, _⟩ => ⟨body, c₂, by omega⟩
      | .ok s c₁ h₁ =>
        match c₁.acceptOp ";" with
        | some (_, ⟨c₂, h₂⟩) =>
          match statements inp terminators c₂ with
          | ⟨body, c₃, _⟩ => ⟨s :: body, c₃, by omega⟩
        | none =>
          let next := c₁.head inp
          if endsList terminators next then ⟨[s], c₁, Nat.le_of_lt h₁⟩
          else
            match statements inp terminators (c₁.report (.unterminatedStatement next.found) next.span) with
            | ⟨body, c₂, h₂⟩ => ⟨s :: body, c₂, by simp only [Cursor.report, Cursor.size] at *; omega⟩
termination_by (c.size, 2)
decreasing_by all_goals first | omega | (simp only [Cursor.size_past, Cursor.size_report]; omega)

end

/-!
## Reading variables, triggers and procedures

A declaration that cannot be read is reported and left behind at its semicolon, or before the code that
follows.
-/

def visibility? (t : Token) : Option Visibility :=
  [Visibility.sameObject, .sameApp, .extensions].find? fun v => t.isWord v.text

def sectionWords : List String := [
  "begin", "var", "trigger", "procedure", "local", "internal", "protected"]

/-- Splits tokens before the first one outside of brackets that satisfies `stops`, closes a brace, or closes a bracket
that none of the tokens opened. -/
def collect (stops : Token → Bool) (depth : Nat) : List Token → List Token × List Token
  | [] => ([], [])
  | t :: ts =>
    if depth = 0 && (stops t || t.isOp "\x7d") then ([], t :: ts)
    else if t.isOpIn ["(", "["] then
      let (taken, rest) := collect stops (depth + 1) ts
      (t :: taken, rest)
    else if t.isOpIn [")", "]"] then
      if depth = 0 then ([], t :: ts)
      else
        let (taken, rest) := collect stops (depth - 1) ts
        (t :: taken, rest)
    else
      let (taken, rest) := collect stops depth ts
      (t :: taken, rest)

theorem length_collect_le (stops : Token → Bool) (depth : Nat) (ts : List Token) :
    (collect stops depth ts).2.length ≤ ts.length := by
  fun_induction collect stops depth ts <;> simp_all <;> omega

def collected (stops : Token → Bool) (c : Cursor) : Read (List Token) c.size :=
  let parts := collect stops 0 c.rest
  ⟨parts.1, { c with last := parts.1.getLast?.getD c.last, rest := parts.2 }, length_collect_le stops 0 c.rest⟩

def names (inp : Input) (context : String) (c : Cursor) : Outcome (Token × List Token) c.size :=
  (c.expectName inp context).andThen fun name c₁ h₁ =>
    match c₁.acceptOp "," with
    | none => .ok (name, []) c₁ h₁
    | some (_, ⟨c₂, h₂⟩) =>
      (names inp "after ','" c₂).andThen fun more c₃ _ => .ok (name, more.1 :: more.2) c₃ (by omega)
termination_by c.size
decreasing_by all_goals omega

def declaration (inp : Input) (c : Cursor) : Outcome (List Variable) c.size :=
  (names inp "in variable declaration" c).andThen fun group c₁ _ =>
    (c₁.expectOp inp ":" s!"after variable '{group.1.value}'").andThen fun _ c₂ _ =>
      match collected (fun t => t.isOp ";" || t.isWordIn sectionWords) c₂ with
      | ⟨[], c₃, _⟩ => .fail ⟨.expectedVariableType group.1.value, (c₃.head inp).span⟩ c₃ (by omega)
      | ⟨first :: rest, c₃, _⟩ =>
        let c₄ : { next : Cursor // next.size ≤ c₃.size } :=
          match c₃.acceptOp ";" with
          | some (_, ⟨next, h⟩) => ⟨next, Nat.le_of_lt h⟩
          | none => ⟨c₃.report (.unterminatedVariable group.1.value) (c₃.head inp).span, Nat.le_refl _⟩
        have := c₄.2
        let vars := (group.1 :: group.2).map fun name =>
          { name := name.value
            type := typeRef inp first rest
            span := Span.covering name.span c₄.1.last.span
            quoted := name.isQuoted
            label := typeLabel? inp first rest : Variable }
        .ok vars c₄.1 (by omega)

/-- Skips over a damaged declaration: past its semicolon, or up to the code that follows. -/
def skipDeclaration (last : Token) (issues : List Issue) : List Token → Cursor
  | [] => ⟨last, [], issues⟩
  | t :: ts =>
    if t.isWord "begin" || t.isOp "\x7d" then ⟨last, t :: ts, issues⟩
    else if t.isOp ";" then ⟨t, ts, issues⟩
    else skipDeclaration t issues ts

theorem size_skipDeclaration_le (last : Token) (issues : List Issue) (ts : List Token) :
    (skipDeclaration last issues ts).size ≤ ts.length := by
  fun_induction skipDeclaration last issues ts <;> simp_all [Cursor.size]; omega

/-- Recovers after a declaration that starts with `t`, goes on in `ts` and failed at `c`. -/
def resumeDeclaration (t : Token) (ts : List Token) (c : Cursor) : Cursor :=
  if c.size ≤ ts.length then skipDeclaration c.last c.issues c.rest else skipDeclaration t c.issues ts

theorem size_resumeDeclaration_le (t : Token) (ts : List Token) (c : Cursor) :
    (resumeDeclaration t ts c).size ≤ ts.length := by
  unfold resumeDeclaration
  split
  · exact Nat.le_trans (size_skipDeclaration_le ..) ‹_›
  · exact size_skipDeclaration_le ..

def startsDeclaration (t next : Token) : Bool :=
  t.isName && next.isOpIn [":", ","] && !t.isWordIn sectionWords

def declarations (inp : Input) (c : Cursor) : Read (List Variable) c.size :=
  match hc : c.rest with
  | [] => ⟨[], c, Nat.le_refl _⟩
  | t :: ts =>
    have hlt : ts.length < c.size := by simp [Cursor.size, hc]
    if startsDeclaration t (c.peek inp) then
      match declaration inp c with
      | .ok group c₁ h₁ =>
        match declarations inp c₁ with
        | ⟨more, c₂, _⟩ => ⟨group ++ more, c₂, by omega⟩
      | .fail issue c₁ _ =>
        have h₂ := size_resumeDeclaration_le t ts (c₁.report issue.complaint issue.span)
        match declarations inp (resumeDeclaration t ts (c₁.report issue.complaint issue.span)) with
        | ⟨more, c₂, _⟩ => ⟨more, c₂, by omega⟩
    else ⟨[], c, Nat.le_refl _⟩
termination_by c.size
decreasing_by all_goals omega

def byRef? (next t : Token) : Option Unit := if t.isWord "var" && next.isName then some () else none

/-- Reads parameters up to the closing parenthesis. Parameters of one group share their type. -/
def parameters (inp : Input) (c : Cursor) : Outcome (List Parameter) c.size :=
  match c.acceptOp ")" with
  | some (_, ⟨c₁, h₁⟩) => .ok [] c₁ h₁
  | none =>
    if (c.head inp).kind == .eof then c.failHere inp .openParameters
    else
      let start : Bool × { next : Cursor // next.size ≤ c.size } :=
        match c.take (byRef? (c.peek inp)) with
        | some (_, ⟨next, h⟩) => (true, ⟨next, Nat.le_of_lt h⟩)
        | none => (false, ⟨c, Nat.le_refl _⟩)
      have := start.2.2
      (names inp "in parameter list" start.2.1).andThen fun group c₁ _ =>
        (c₁.expectOp inp ":" s!"after parameter '{group.1.value}'").andThen fun _ c₂ _ =>
          match collected (·.isOp ";") c₂ with
          | ⟨[], c₃, _⟩ => .fail ⟨.expectedParameterType group.1.value, (c₃.head inp).span⟩ c₃ (by omega)
          | ⟨first :: rest, c₃, _⟩ =>
            let these := (group.1 :: group.2).map fun name =>
              { name := name.value, type := typeRef inp first rest, span := name.span
                byRef := start.1 : Parameter }
            match c₃.acceptOp ";" with
            | some (_, ⟨c₄, _⟩) =>
              (parameters inp c₄).andThen fun more c₅ _ => .ok (these ++ more) c₅ (by omega)
            | none =>
              (c₃.expectOp inp ")" "to close parameter list").andThen fun _ c₄ _ => .ok these c₄ (by omega)
termination_by c.size
decreasing_by all_goals omega

def parameterList (inp : Input) (c : Cursor) : Outcome (List Parameter) (c.size + 1) :=
  match c.acceptOp "(" with
  | none => .ok [] c (by omega)
  | some (_, ⟨c₁, _⟩) => (parameters inp c₁).weaken

def returnName (inp : Input) (c : Cursor) : Read (Option String) c.size :=
  let next := c.peek inp
  match c.accept fun t => t.isName && next.isOp ":" && !t.isWord "var" with
  | some (t, ⟨c₁, h₁⟩) => ⟨some t.value, c₁, Nat.le_of_lt h₁⟩
  | none => ⟨none, c, Nat.le_refl _⟩

def returnType (inp : Input) (name : String) (c : Cursor) : Outcome (Option TypeRef) (c.size + 1) :=
  match c.acceptOp ":" with
  | none =>
    match c.skipOp ";" with
    | ⟨c₁, h₁⟩ => .ok none c₁ (by omega)
  | some (_, ⟨c₁, _⟩) =>
    match collected (fun t => t.isOp ";" || t.isWordIn ["var", "begin"]) c₁ with
    | ⟨[], c₂, _⟩ => .fail ⟨.expectedReturnType name, (c₂.head inp).span⟩ c₂ (by omega)
    | ⟨first :: rest, c₂, _⟩ =>
      match c₂.skipOp ";" with
      | ⟨c₃, h₃⟩ => .ok (some (typeRef inp first rest)) c₃ (by omega)

def localVariables (inp : Input) (c : Cursor) : Read (List Variable) c.size :=
  match c.acceptWord "var" with
  | none => ⟨[], c, Nat.le_refl _⟩
  | some (_, ⟨c₁, _⟩) =>
    match declarations inp c₁ with
    | ⟨vars, c₂, _⟩ => ⟨vars, c₂, by omega⟩

def codeBody (inp : Input) (c : Cursor) : Read (Option (List Stmt)) c.size :=
  match c.acceptWord "begin" with
  | none => ⟨none, c, Nat.le_refl _⟩
  | some (opener, ⟨c₁, _⟩) =>
    match compound inp opener c₁ with
    | ⟨body, c₂, _⟩ =>
      match c₂.skipOp ";" with
      | ⟨c₃, _⟩ => ⟨some body, c₃, by omega⟩

/-- Reads what stands before the body of a trigger or procedure, as if there were no body. Its attributes have
been read, the first of them at the token `lead`. -/
def codeHeader (inp : Input) (attributes : List String) (lead : Option Token) (c : Cursor) :
    Outcome CodeMember c.size :=
  let start := c.head inp
  let doc := ((lead.map Token.docs).getD []) ++ start.docs
  let front : Visibility × { next : Cursor // next.size ≤ c.size } :=
    match c.take visibility? with
    | some (v, ⟨next, h⟩) => (v, ⟨next, Nat.le_of_lt h⟩)
    | none => (.everyone, ⟨c, Nat.le_refl _⟩)
  have := front.2.2
  (front.2.1.expect inp (·.isWordIn ["trigger", "procedure"]) (.expected "procedure" "after visibility")).andThen
    fun keyword c₁ _ =>
      (c₁.expectName inp s!"after '{keyword.value}'").andThen fun name c₂ _ =>
        (parameterList inp c₂).andThen fun parameters c₃ _ =>
          match returnName inp c₃ with
          | ⟨returnName, c₄, _⟩ =>
            (returnType inp name.value c₄).andThen fun returnType c₅ _ =>
              match localVariables inp c₅ with
              | ⟨vars, c₆, _⟩ =>
                let member : CodeMember :=
                  { kind := if keyword.isWord "trigger" then .trigger else .procedure
                    name := name.value
                    span := c₆.spanFrom start
                    visibility := front.1
                    attributes, parameters, returnType, returnName, vars
                    body := []
                    hasBody := false
                    doc }
                .ok member c₆ (by omega)

def code (inp : Input) (attributes : List String) (lead : Option Token) (c : Cursor) : Outcome CodeMember c.size :=
  (codeHeader inp attributes lead c).andThen fun header c₁ _ =>
    match codeBody inp c₁ with
    | ⟨body, c₂, _⟩ =>
      .ok { header with span := c₂.spanFrom (c.head inp), body := body.getD [], hasBody := body.isSome } c₂ (by omega)

/-!
## Reading objects

A file is a list of objects, an object a header and members between braces, and a member a property,
variables, code, or an element with members of its own. A damaged member is left behind at its semicolon or
before the brace that closes its container, a damaged object at the next object keyword outside of braces.
-/

def objectTypes : List String := [
  "table", "tableextension", "codeunit", "page", "pageextension", "pagecustomization", "enum",
  "enumextension", "report", "reportextension", "query", "xmlport", "interface", "permissionset",
  "permissionsetextension", "profile", "controladdin", "entitlement", "dotnet"]

/-- Finds the bracket that closes an attribute: the tokens before it, the bracket, and the tokens after. -/
def attributeEnd (depth : Nat) (last : Token) : List Token → Except Token (Token × List Token)
  | [] => .error last
  | t :: ts =>
    if t.isOp "[" then attributeEnd (depth + 1) t ts
    else if t.isOp "]" then
      if depth = 0 then .ok (t, ts) else attributeEnd (depth - 1) t ts
    else attributeEnd depth t ts

theorem length_attributeEnd_lt {depth : Nat} {last : Token} {found : Token × List Token}
    (h : attributeEnd depth last ts = .ok found) : found.2.length < ts.length := by
  fun_induction attributeEnd depth last ts <;> simp_all <;> first | omega | (cases h; simp)

def attributeText (inp : Input) (c : Cursor) : Outcome String c.size :=
  match hc : c.rest with
  | [] => c.failHere inp .openAttribute
  | t :: ts =>
    match h : attributeEnd 0 t ts with
    | .error last =>
      .fail ⟨.openAttribute, t.span⟩ { c with last, rest := [] } (Nat.zero_le _)
    | .ok (closing, rest) =>
      .ok (Text.strip (inp.slice (ts.headD inp.eof).start closing.start)) (c.past closing rest)
        (by have := length_attributeEnd_lt h; simp_all [Cursor.size, Cursor.past]; omega)

def property (inp : Input) (c : Cursor) : Outcome Property c.size :=
  let name := c.head inp
  (c.expectName inp "").andThen fun _ c₁ _ =>
    (c₁.expectOp inp "=" "").andThen fun _ c₂ _ =>
      match collected (·.isOp ";") c₂ with
      | ⟨[], c₃, _⟩ => .fail ⟨.emptyProperty name.value, name.span⟩ c₃ (by omega)
      | ⟨first :: rest, c₃, _⟩ =>
        let value := inp.textOf (first :: rest)
        match c₃.acceptOp ";" with
        | some (_, ⟨c₄, _⟩) => .ok ⟨name.value, value, c₄.spanFrom name⟩ c₄ (by omega)
        | none =>
          if (c₃.head inp).isOp "\x7d" then .ok ⟨name.value, value, c₃.spanFrom name⟩ c₃ (by omega)
          else .fail ⟨.unterminatedProperty name.value, (c₃.head inp).span⟩ c₃ (by omega)

/-- Finds the parenthesis that closes the arguments of an element: the tokens before it, the parenthesis, and the
tokens after. If a brace or the end comes first, gives the last token before that and the tokens left. -/
def argumentsEnd (depth : Int) (last : Token) : List Token →
    Except (Token × List Token) (List Token × Token × List Token)
  | [] => .error (last, [])
  | t :: ts =>
    if t.isOpIn ["\x7b", "\x7d"] then .error (last, t :: ts)
    else if depth = 0 && t.isOp ")" then .ok ([], t, ts)
    else
      match argumentsEnd (depth + depthChange t) t ts with
      | .ok (taken, closing, rest) => .ok (t :: taken, closing, rest)
      | .error left => .error left

theorem length_argumentsEnd_lt {last : Token}
    {found : List Token × Token × List Token} (h : argumentsEnd depth last ts = .ok found) :
    found.2.2.length < ts.length := by
  fun_induction argumentsEnd depth last ts generalizing found with
  | case1 => cases h
  | case2 => cases h
  | case3 => cases h; simp
  | case4 _ _ _ _ _ _ taken closing rest heq ih => cases h; have := ih heq; simp_all; omega
  | case5 => cases h

theorem length_argumentsEnd_le {last : Token} {left : Token × List Token}
    (h : argumentsEnd depth last ts = .error left) : left.2.length ≤ ts.length := by
  fun_induction argumentsEnd depth last ts generalizing left with
  | case1 => cases h; simp
  | case2 => cases h; simp
  | case3 => cases h
  | case4 => cases h
  | case5 _ _ _ _ _ _ left' heq ih => cases h; have := ih heq; simp_all; omega

/-- Reads the arguments of an element that the token `keyword` names, if it has any. -/
def elementArguments (keyword : Token) (c : Cursor) : Outcome (List (List Token)) (c.size + 1) :=
  match c.acceptOp "(" with
  | none => .ok [] c (by omega)
  | some (opening, ⟨c₁, h₁⟩) =>
    match h : argumentsEnd 0 opening c₁.rest with
    | .ok (taken, closing, rest) =>
      .ok (splitTokens ";" taken) (c₁.past closing rest)
        (by have := length_argumentsEnd_lt h; simp only [Cursor.size, Cursor.past] at *; omega)
    | .error (last, rest) =>
      .fail ⟨.openArguments keyword.value, keyword.span⟩ { c₁ with last, rest }
        (by have := length_argumentsEnd_le h; simp only [Cursor.size] at *; omega)

/-- Skips over a damaged member. `braces` counts the braces that are open, and `closers` are the words that will
close the blocks entered on the way, innermost first. -/
def skipMember (braces : Nat) (closers : List String) (last : Token) (issues : List Issue) : List Token → Cursor
  | [] => ⟨last, [], issues⟩
  | t :: ts =>
    if t.isOp "\x7b" then skipMember (braces + 1) closers t issues ts
    else if t.isOp "\x7d" then
      if braces = 0 then ⟨last, t :: ts, issues⟩ else skipMember (braces - 1) closers t issues ts
    else
      match closer? t, closers with
      | some closer, _ => skipMember braces (closer :: closers) t issues ts
      | none, closer :: outer =>
        skipMember braces (if t.isWord closer then outer else closers) t issues ts
      | none, [] =>
        if braces = 0 && t.isOp ";" then ⟨t, ts, issues⟩ else skipMember braces [] t issues ts

theorem size_skipMember_le (braces : Nat) (closers : List String) (last : Token) (issues : List Issue)
    (ts : List Token) : (skipMember braces closers last issues ts).size ≤ ts.length := by
  fun_induction skipMember braces closers last issues ts <;> simp_all [Cursor.size] <;> omega

/-- Recovers after a member that starts with `t`, goes on in `ts` and failed at `c`. If no token was used, the
first one is left behind. -/
def resumeMember (t : Token) (ts : List Token) (c : Cursor) : Cursor :=
  if c.size ≤ ts.length then skipMember 0 [] c.last c.issues c.rest
  else skipMember (if t.isOp "\x7b" then 1 else 0) (closer? t).toList t c.issues ts

theorem size_resumeMember_le (t : Token) (ts : List Token) (c : Cursor) :
    (resumeMember t ts c).size ≤ ts.length := by
  unfold resumeMember
  split
  · exact Nat.le_trans (size_skipMember_le ..) ‹_›
  · exact size_skipMember_le ..

/-- What stands between the braces of an object or element, by kind and in order. -/
structure Members where
  properties : List Property := []
  children : List Element := []
  codes : List CodeMember := []
  vars : List Variable := []

inductive Member where
  | property (p : Property)
  | element (e : Element)
  | code (c : CodeMember)
  | vars (vs : List Variable)

def Members.cons (m : Member) (ms : Members) : Members :=
  match m with
  | .property p => { ms with properties := p :: ms.properties }
  | .element e => { ms with children := e :: ms.children }
  | .code c => { ms with codes := c :: ms.codes }
  | .vars vs => { ms with vars := vs ++ ms.vars }

/-- The attributes that wait for the code they belong to, and the token at which the first of them starts. -/
structure Pending where
  attributes : List String := []
  lead : Option Token := none

def Pending.add (p : Pending) (t : Token) (text : String) : Pending :=
  ⟨p.attributes ++ [text], if p.attributes.isEmpty then some t else p.lead⟩

inductive MemberStart where
  | vars
  | protectedVariables
  | code
  | property
  | element

def MemberStart.of? (t next : Token) : Option MemberStart :=
  if t.isWord "var" then some .vars
  else if t.isWord "protected" && next.isWord "var" then some .protectedVariables
  else if t.isWordIn ["trigger", "procedure"] then some .code
  else if (visibility? t).isSome && next.isWord "procedure" then some .code
  else if t.isName && next.isOp "=" then some .property
  else if t.kind == .ident && next.isOpIn ["(", "\x7b"] then some .element
  else none

/-- Reads what follows the first tokens of a section of variables. -/
def variableSection (inp : Input) (words : List String) (c : Cursor) : Outcome (List Variable) c.size :=
  match words with
  | [] => c.failHere inp (.expectedName "in variable declaration" (c.head inp).found)
  | [word] =>
    (c.expectWord inp word "").andThen fun _ c₁ _ =>
      match declarations inp c₁ with
      | ⟨vars, c₂, _⟩ => .ok vars c₂ (by omega)
  | word :: words =>
    (c.expectWord inp word "").andThen fun _ c₁ _ => (variableSection inp words c₁).weaken

mutual

def member (inp : Input) (keyword : String) (pending : Pending) (c : Cursor) : Outcome Member c.size :=
  match MemberStart.of? (c.head inp) (c.peek inp) with
  | some .vars => (variableSection inp ["var"] c).map .vars
  | some .protectedVariables => (variableSection inp ["protected", "var"] c).map .vars
  | some .code => (code inp pending.attributes pending.lead c).map .code
  | some .property => (property inp c).map .property
  | some .element => (element inp c).map .element
  | none => c.failHere inp (.unexpectedMember keyword (c.head inp).found)
termination_by (c.size, 1)
decreasing_by all_goals omega

def element (inp : Input) (c : Cursor) : Outcome Element c.size :=
  (c.expectName inp "").andThen fun keyword c₁ _ =>
    (elementArguments keyword c₁).andThen fun args c₂ _ =>
      let inner : Read Members c₂.size :=
        match c₂.acceptOp "\x7b" with
        | none => ⟨{}, c₂, Nat.le_refl _⟩
        | some (_, ⟨c₃, _⟩) =>
          match members inp keyword.lower {} c₃ with
          | ⟨ms, c₄, _⟩ => ⟨ms, c₄, by omega⟩
      match inner with
      | ⟨ms, c₃, _⟩ =>
        match c₃.skipOp ";" with
        | ⟨c₄, _⟩ =>
          let e : Element :=
            { keyword := keyword.lower, span := c₄.spanFrom keyword, args, properties := ms.properties
              children := ms.children, codes := ms.codes, vars := ms.vars, doc := keyword.docs }
          .ok e c₄ (by omega)
termination_by (c.size, 0)
decreasing_by all_goals omega

/-- Reads the members of an object or element that `keyword` names, up to and with the brace that closes it. -/
def members (inp : Input) (keyword : String) (pending : Pending) (c : Cursor) : Read Members c.size :=
  match hc : c.rest with
  | [] => ⟨{}, c.report (.missingBrace keyword) inp.eof.span, Nat.le_refl _⟩
  | t :: ts =>
    have hlt : ts.length < c.size := by simp [Cursor.size, hc]
    if t.isOp "\x7d" then ⟨{}, c.past t ts, Nat.le_of_lt hlt⟩
    else if t.isOp ";" then
      match members inp keyword pending (c.past t ts) with
      | ⟨ms, c₁, _⟩ => ⟨ms, c₁, by simp only [Cursor.past, Cursor.size] at *; omega⟩
    else if t.isOp "[" then
      match attributeText inp c with
      | .ok text c₁ _ =>
        match members inp keyword (pending.add t text) c₁ with
        | ⟨ms, c₂, _⟩ => ⟨ms, c₂, by omega⟩
      | .fail issue c₁ _ =>
        have := size_resumeMember_le t ts (c₁.report issue.complaint issue.span)
        match members inp keyword {} (resumeMember t ts (c₁.report issue.complaint issue.span)) with
        | ⟨ms, c₂, _⟩ => ⟨ms, c₂, by omega⟩
    else
      match member inp keyword pending c with
      | .ok m c₁ _ =>
        match members inp keyword {} c₁ with
        | ⟨ms, c₂, _⟩ => ⟨ms.cons m, c₂, by omega⟩
      | .fail issue c₁ _ =>
        have := size_resumeMember_le t ts (c₁.report issue.complaint issue.span)
        match members inp keyword {} (resumeMember t ts (c₁.report issue.complaint issue.span)) with
        | ⟨ms, c₂, _⟩ => ⟨ms, c₂, by omega⟩
termination_by (c.size, 2)
decreasing_by all_goals first | omega | (simp only [Cursor.size_past]; omega)

end

structure Clauses where
  extends? : Option String := none
  implements : List String := []

/-- Reads the clauses of a header up to the opening brace. Of two extended objects the last one counts. -/
def clauses (inp : Input) (keyword : String) (found : Clauses) (c : Cursor) : Outcome Clauses c.size :=
  match c.acceptOp "\x7b" with
  | some (_, ⟨c₁, h₁⟩) => .ok found c₁ h₁
  | none =>
    match c.acceptWord "extends" with
    | some (_, ⟨c₁, _⟩) =>
      (c₁.expectName inp "after 'extends'").andThen fun name c₂ _ =>
        (clauses inp keyword { found with extends? := some name.value } c₂).weaken
    | none =>
      match c.acceptWord "implements" with
      | some (_, ⟨c₁, _⟩) =>
        (names inp "after 'implements'" c₁).andThen fun group c₂ _ =>
          let more := (group.1 :: group.2).map Token.value
          (clauses inp keyword { found with implements := found.implements ++ more } c₂).weaken
      | none => c.failHere inp (.unexpectedInHeader keyword (c.head inp).found)
termination_by c.size
decreasing_by all_goals omega

/-- Reads the number of an object, if there is one. Only a whole number counts. -/
def objectNumber (c : Cursor) : Except Oversized (Read (Option Nat) c.size) :=
  match c.accept (·.kind == .number) with
  | none => .ok ⟨none, c, Nat.le_refl _⟩
  | some (t, ⟨c₁, h₁⟩) => (wholeNumber? t.value).map fun number => ⟨number, c₁, Nat.le_of_lt h₁⟩

def objectName (c : Cursor) : Read String c.size :=
  match c.accept fun t => t.isName && !t.isWordIn ["extends", "implements"] with
  | none => ⟨"", c, Nat.le_refl _⟩
  | some (t, ⟨c₁, h₁⟩) => ⟨t.value, c₁, Nat.le_of_lt h₁⟩

def object (inp : Input) (start : Token) (c : Cursor) : Except Oversized (Outcome ObjectSyntax c.size) :=
  (objectNumber c).map fun number =>
    match number with
    | ⟨objectId, c₁, _⟩ =>
      match objectName c₁ with
      | ⟨name, c₂, _⟩ =>
        (clauses inp start.lower {} c₂).andThen fun header c₃ _ =>
          match members inp start.lower {} c₃ with
          | ⟨ms, c₄, _⟩ =>
            let body : Element :=
              { keyword := start.lower, span := c₄.spanFrom start, args := [], properties := ms.properties
                children := ms.children, codes := ms.codes, vars := ms.vars, doc := start.docs }
            .ok { objectId, name, extends? := header.extends?, implements := header.implements, body } c₄
              (by omega)

def skipDirective (last : Token) (issues : List Issue) : List Token → Cursor
  | [] => ⟨last, [], issues⟩
  | t :: ts => if t.isOp ";" then ⟨t, ts, issues⟩ else skipDirective t issues ts

theorem size_skipDirective_le (last : Token) (issues : List Issue) (ts : List Token) :
    (skipDirective last issues ts).size ≤ ts.length := by
  fun_induction skipDirective last issues ts <;> simp_all [Cursor.size]; omega

def skipObject (depth : Nat) (last : Token) (issues : List Issue) : List Token → Cursor
  | [] => ⟨last, [], issues⟩
  | t :: ts =>
    if t.isOp "\x7b" then skipObject (depth + 1) t issues ts
    else if t.isOp "\x7d" then skipObject (depth - 1) t issues ts
    else if depth = 0 && t.isWordIn objectTypes then ⟨last, t :: ts, issues⟩
    else skipObject depth t issues ts

theorem size_skipObject_le (depth : Nat) (last : Token) (issues : List Issue) (ts : List Token) :
    (skipObject depth last issues ts).size ≤ ts.length := by
  fun_induction skipObject depth last issues ts <;> simp_all [Cursor.size] <;> omega

def objects (inp : Input) (c : Cursor) : Except Oversized (List ObjectSyntax × List Issue) :=
  match hc : c.rest with
  | [] => .ok ([], c.issues)
  | t :: ts =>
    have hlt : ts.length < c.size := by simp [Cursor.size, hc]
    if t.isWordIn ["namespace", "using"] then
      have := size_skipDirective_le t c.issues ts
      objects inp (skipDirective t c.issues ts)
    else if t.isWordIn objectTypes then
      match object inp t (c.past t ts) with
      | .error oversized => .error oversized
      | .ok (.ok o c₁ h₁) =>
        have : c₁.size < c.size := by simp only [Cursor.past, Cursor.size] at *; omega
        (objects inp c₁).map fun more => (o :: more.1, more.2)
      | .ok (.fail issue c₁ h₁) =>
        have := size_skipObject_le 0 c₁.last (c₁.issues ++ [issue]) c₁.rest
        have : c₁.rest.length < c.size := by simp only [Cursor.past, Cursor.size] at *; omega
        objects inp (skipObject 0 c₁.last (c₁.issues ++ [issue]) c₁.rest)
    else
      have := size_skipObject_le 0 t (c.issues ++ [⟨.expectedObject t.found, t.span⟩]) ts
      objects inp (skipObject 0 t (c.issues ++ [⟨.expectedObject t.found, t.span⟩]) ts)
termination_by c.size
decreasing_by all_goals omega

end AlLint.Reading
