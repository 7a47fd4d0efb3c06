import AlLint.Proofs.Reading.Spared

/-!
# Writing expressions and statements

The other direction of reading: the tokens that an expression or a statement is written with.

Parentheses in an expression are a matter of how tightly its operators bind. From the loosest to the tightest
these are a range (0), relations (1), sums (2), products (3), signs and negation (4), and what follows a primary
expression (5). Operators of one level group to the left and a range does not chain, so the left operand of a
relation, sum or product may be of its own level, and every other operand must be of a tighter one; what is
looser stands in parentheses.

Every statement is followed by a semicolon, and what stands behind `then`, `else`, `do` or the values of a case
branch is written between `begin` and `end`. Behind `repeat`, and behind the `else` of a case statement, stand
statements without that.

A `Lexeme` is a token without its place, and `Cursor.Spells` says that some lexemes stand between two cursors. What is
written says nothing about spans: `Expr.unplaced` and `Stmt.unplaced` leave them out.
-/

namespace AlLint

open List

open Reading (implicitMethods reservedWords isLiteral)

/-! ## Lexemes -/

/-- What a token says, apart from its place and the case of its letters if it is a keyword. -/
inductive Lexeme where
  | word (word : String)
  | sign (sign : String)
  | name (name : String) (quoted : Bool)
  /-- What may follow `::`, a name or a number. -/
  | label (name : String)
  | number (text : String)
  | string (value : String)
deriving DecidableEq, Repr

def Lexeme.spelledBy : Lexeme → Token → Bool
  | word w, t => t.isWord w
  | sign s, t => t.isOp s
  | name n quoted, t => t.kind == (if quoted then .quoted else .ident) && t.value == n
  | label n, t => (t.isName || t.kind == .number) && t.value == n
  | number s, t => t.kind == .number && t.text == s
  | string s, t => t.kind == .string && t.value == s

def Lexeme.token : Lexeme → Token
  | word w => ⟨.ident, w, w, default, 0, 0, []⟩
  | sign s => ⟨.op, s, s, default, 0, 0, []⟩
  | name n quoted => ⟨if quoted then .quoted else .ident, n, n, default, 0, 0, []⟩
  | label n => ⟨.ident, n, n, default, 0, 0, []⟩
  | number s => ⟨.number, s, s, default, 0, 0, []⟩
  | string s => ⟨.string, s, s, default, 0, 0, []⟩

def BinaryOp.tightness : BinaryOp → Nat
  | range => 0
  | equal | notEqual | less | greater | lessEqual | greaterEqual | isIn => 1
  | plus | minus | or | xor => 2
  | times | divide | wholeDivide | modulo | and => 3

def BinaryOp.lexeme (op : BinaryOp) : Lexeme :=
  match op with
  | isIn | or | xor | wholeDivide | modulo | and => .word op.text
  | _ => .sign op.text

/-- The operator that is written with some text. -/
def BinaryOp.ofText? (s : String) : Option BinaryOp :=
  [range, equal, notEqual, less, greater, lessEqual, greaterEqual, isIn, plus, minus, or, xor,
    times, divide, wholeDivide, modulo, and].find? (·.text = s)

theorem BinaryOp.ofText?_text (op : BinaryOp) : ofText? op.text = some op := by
  cases op <;> decide

theorem BinaryOp.ofText?_of_spelledBy {op : BinaryOp} {t : Token} (h : op.lexeme.spelledBy t = true) :
    ofText? (if t.kind = .op then t.text else Text.lower t.value) = some op := by
  rw [← ofText?_text op]
  cases op <;> simp [lexeme, Lexeme.spelledBy, Token.isOp_iff, Token.isWord_iff] at h <;> simp [h.1, h.2]

theorem BinaryOp.eq_of_spelledBy {op op' : BinaryOp} {t : Token} (h : op.lexeme.spelledBy t = true)
    (h' : op'.lexeme.spelledBy t = true) : op = op' :=
  Option.some.inj ((ofText?_of_spelledBy h).symm.trans (ofText?_of_spelledBy h'))

def UnaryOp.lexeme (op : UnaryOp) : Lexeme :=
  match op with
  | not => .word op.text
  | minus | plus => .sign op.text

def LiteralKind.lexeme (kind : LiteralKind) (value : String) : Lexeme :=
  match kind with
  | string => .string value
  | number | date => .number value
  | boolean => .word value

/-- Puts lexemes in parentheses if that is needed. -/
def grouped (needed : Bool) (xs : List Lexeme) : List Lexeme :=
  if needed then .sign "(" :: xs ++ [.sign ")"] else xs

/-! ## Expressions as lexemes -/

namespace Expr

def tightness : Expr → Nat
  | binary op _ _ _ => op.tightness
  | unary .. => 4
  | _ => 5

/-- Whether an expression is a call without parentheses. -/
def isImplicitCall : Expr → Bool
  | call _ _ implicit _ => implicit
  | _ => false

/-- Whether an expression is a method that is called without parentheses when it is named. -/
def isImplicitMethod : Expr → Bool
  | member _ n quoted _ => !quoted && implicitMethods.contains (Text.lower n)
  | _ => false

/-- Whether an expression is a range of which the upper end, an empty string, is left out. -/
def isOpenRange (leavesOut : Expr → Bool) : Expr → Bool
  | e@(binary .range _ (constant value .string _) _) => value == "" && leavesOut e
  | _ => false

mutual

/-- The lexemes that an expression is written with. Parentheses stand where the levels ask for them and, if
`groups` says so, around a call without parentheses that is itself called. Ranges without an upper end are those
that `leavesOut` names. -/
def lexemes (groups : Bool) (leavesOut : Expr → Bool) : Expr → List Lexeme
  | constant value kind _ => [kind.lexeme value]
  | name n quoted _ => [.name n quoted]
  | member target n quoted _ =>
    grouped (target.tightness < 5) (lexemes groups leavesOut target) ++ [.sign ".", .name n quoted]
  | scope target n _ => grouped (target.tightness < 5) (lexemes groups leavesOut target) ++ [.sign "::", .label n]
  | index target indices _ =>
    grouped (target.tightness < 5) (lexemes groups leavesOut target) ++
      .sign "[" :: (listLexemes groups leavesOut indices ++ [.sign "]"])
  | unary op operand _ => op.lexeme :: grouped (operand.tightness < 4) (lexemes groups leavesOut operand)
  | e@(binary op left right _) =>
    grouped (left.tightness < max 1 op.tightness) (lexemes groups leavesOut left) ++
      op.lexeme :: if e.isOpenRange leavesOut then []
        else grouped (right.tightness < op.tightness + 1) (lexemes groups leavesOut right)
  | set items _ => .sign "[" :: (listLexemes groups leavesOut items ++ [.sign "]"])
  | call callee _ true _ => grouped (callee.tightness < 5) (lexemes groups leavesOut callee)
  | call callee args false _ =>
    grouped (callee.tightness < 5 || groups && callee.isImplicitCall) (lexemes groups leavesOut callee) ++
      .sign "(" :: (listLexemes groups leavesOut args ++ [.sign ")"])

/-- The lexemes of expressions with commas between them. -/
def listLexemes (groups : Bool) (leavesOut : Expr → Bool) : List Expr → List Lexeme
  | [] => []
  | [e] => lexemes groups leavesOut e
  | e :: rest => lexemes groups leavesOut e ++ .sign "," :: listLexemes groups leavesOut rest

end

/-- Whether a literal of a kind can have a value. -/
def hasLiteral (kind : LiteralKind) (value : String) : Bool :=
  match kind with
  | .string => true
  | .number | .date => LiteralKind.ofNumber value == kind
  | .boolean => ["true", "false"].contains value

mutual

/-- Whether an expression can be written. Unquoted names are not keywords. A method that may be called without
parentheses is called wherever it is named without quotes, and no other member is called without them. A literal
takes no index. -/
def isWritable (called : Bool) : Expr → Bool
  | constant value kind _ => hasLiteral kind value
  | name n quoted _ => quoted || !("true" :: "false" :: "not" :: reservedWords).contains (Text.lower n)
  | e@(member target _ _ _) => isWritable false target && (called || !e.isImplicitMethod)
  | scope target _ _ => isWritable false target
  | index target indices _ => isWritable false target && !isLiteral target && areWritable indices
  | unary _ operand _ => isWritable false operand
  | binary _ left right _ => isWritable false left && isWritable false right
  | set items _ => areWritable items
  | call callee args implicit _ =>
    isWritable true callee && areWritable args && (!implicit || callee.isImplicitMethod && args.isEmpty)

def areWritable : List Expr → Bool
  | [] => true
  | e :: rest => isWritable false e && areWritable rest

end

mutual

def unplaced : Expr → Expr
  | constant value kind _ => constant value kind default
  | name n quoted _ => name n quoted default
  | member target n quoted _ => member (unplaced target) n quoted default
  | scope target n _ => scope (unplaced target) n default
  | index target indices _ => index (unplaced target) (allUnplaced indices) default
  | unary op operand _ => unary op (unplaced operand) default
  | binary op left right _ => binary op (unplaced left) (unplaced right) default
  | set items _ => set (allUnplaced items) default
  | call callee args implicit _ => call (unplaced callee) (allUnplaced args) implicit default

def allUnplaced : List Expr → List Expr
  | [] => []
  | e :: rest => unplaced e :: allUnplaced rest

end

theorem isLiteral_unplaced (e : Expr) : isLiteral e.unplaced = isLiteral e := by
  cases e <;> rfl

theorem isLiteral_eq_of_unplaced {e e' : Expr} (h : e'.unplaced = e.unplaced) : isLiteral e' = isLiteral e := by
  rw [← isLiteral_unplaced e', h, isLiteral_unplaced]

end Expr

/-! ## Statements as lexemes -/

/-- Whether an expression can stand where no bracket, comma or colon follows it: a range has its upper end there. -/
def Expr.standsAlone (leavesOut : Expr → Bool) (e : Expr) : Bool := e.isWritable false && !e.isOpenRange leavesOut

/-- Whether an expression is a name of its own, of a member or in a scope. -/
def Expr.isNaming : Expr → Bool
  | name .. | member .. | scope .. => true
  | _ => false

/-- Whether the first of some lexemes may be a word. -/
def startsWith (words : List String) : List Lexeme → Bool
  | .word w :: _ => words.contains w
  | .name n false :: _ => words.contains (Text.lower n)
  | .label n :: _ => words.contains (Text.lower n)
  | _ => false

/-- Words that are names in an expression, but open a statement. -/
def statementWords : List String := ["asserterror", "break", "continue"]

namespace Call

def unplaced (c : Call) : Call := ⟨c.callee.unplaced, Expr.allUnplaced c.args, c.implicit, default⟩

/-- Whether a call can be written as a statement. Any name is called by it there. -/
def isWritable (leavesOut : Expr → Bool) (c : Call) : Bool :=
  (if c.implicit then c.args.isEmpty && c.callee.isNaming &&
    c.callee.isWritable true else c.toExpr.isWritable false) &&
    !startsWith statementWords (c.toExpr.lexemes true leavesOut)

def isError (c : Call) : Bool := c.isGlobal && c.method == "error"

end Call

/-- Puts lexemes between `begin` and `end`. -/
def wrapped (xs : List Lexeme) : List Lexeme := .word "begin" :: xs ++ [.word "end"]

namespace Stmt

mutual

/-- The lexemes that a statement is written with. Bodies are wrapped; if `wraps` says so, also those behind
`repeat` and behind the `else` of a case statement. -/
def lexemes (wraps : Bool) (leavesOut : Expr → Bool) : Stmt → List Lexeme
  | assignment target op value _ =>
    grouped (target.tightness < 5) (target.lexemes true leavesOut) ++ .sign op.text :: value.lexemes true leavesOut
  | call c _ => c.toExpr.lexemes true leavesOut
  | error c _ => c.toExpr.lexemes true leavesOut
  | ifThen condition thenBody elseBody _ =>
    .word "if" :: (condition.lexemes true leavesOut ++ .word "then" ::
      (wrapped (listLexemes wraps leavesOut thenBody) ++
      elseLexemes wraps leavesOut elseBody))
  | caseOf selector branches elseBody _ =>
    .word "case" :: (selector.lexemes true leavesOut ++ .word "of" :: (branchLexemes wraps leavesOut branches ++
      (otherLexemes wraps leavesOut elseBody ++ [.word "end"])))
  | repeatUntil body condition _ =>
    .word "repeat" :: ((if wraps then wrapped (listLexemes wraps leavesOut body) else listLexemes
      wraps leavesOut body) ++
      .word "until" :: condition.lexemes true leavesOut)
  | whileDo condition body _ =>
    .word "while" :: (condition.lexemes true leavesOut ++ .word "do" :: wrapped (listLexemes wraps leavesOut body))
  | forTo counter first last down body _ =>
    .word "for" :: (counter.lexemes true leavesOut ++ .sign ":=" :: (first.lexemes true leavesOut ++
      .word (if down then "downto" else "to") :: (last.lexemes true leavesOut ++
        .word "do" :: wrapped (listLexemes wraps leavesOut body))))
  | forEach item iterable body _ =>
    .word "foreach" :: (item.lexemes true leavesOut ++ .word "in" :: (iterable.lexemes true leavesOut ++
      .word "do" :: wrapped (listLexemes wraps leavesOut body)))
  | exit none _ => [.word "exit"]
  | exit (some value) _ => .word "exit" :: .sign "(" :: (value.lexemes true leavesOut ++ [.sign ")"])
  | block body _ => wrapped (listLexemes wraps leavesOut body)
  | withDo target body _ =>
    .word "with" :: (target.lexemes true leavesOut ++ .word "do" :: wrapped (listLexemes wraps leavesOut body))
  | jump j _ => [.word j.text]

/-- The lexemes of statements with a semicolon behind each. -/
def listLexemes (wraps : Bool) (leavesOut : Expr → Bool) : List Stmt → List Lexeme
  | [] => []
  | s :: rest => lexemes wraps leavesOut s ++ .sign ";" :: listLexemes wraps leavesOut rest

/-- The lexemes of the else part of an if statement. -/
def elseLexemes (wraps : Bool) (leavesOut : Expr → Bool) : Option (List Stmt) → List Lexeme
  | none => []
  | some body => .word "else" :: wrapped (listLexemes wraps leavesOut body)

/-- The lexemes of the else part of a case statement. -/
def otherLexemes (wraps : Bool) (leavesOut : Expr → Bool) : Option (List Stmt) → List Lexeme
  | none => []
  | some body =>
    .word "else" :: if wraps then wrapped (listLexemes wraps leavesOut body) else listLexemes wraps leavesOut body

/-- The lexemes of the branches of a case statement. -/
def branchLexemes (wraps : Bool) (leavesOut : Expr → Bool) : List (Branch Stmt) → List Lexeme
  | [] => []
  | ⟨values, body, _⟩ :: rest =>
    Expr.listLexemes true leavesOut values ++ .sign ":" :: (wrapped (listLexemes wraps leavesOut body) ++
      .sign ";" :: branchLexemes wraps leavesOut rest)

end

mutual

/-- Whether a statement can be written. A loop counts with, and goes through, a plain name; a case branch has a
value. -/
def isWritable (leavesOut : Expr → Bool) : Stmt → Bool
  | assignment target _ value _ =>
    target.isWritable false && value.standsAlone leavesOut &&
      !startsWith statementWords (grouped (target.tightness < 5) (target.lexemes true leavesOut))
  | call c _ => c.isWritable leavesOut && !c.isError
  | error c _ => c.isWritable leavesOut && c.isError
  | ifThen condition thenBody elseBody _ =>
    condition.standsAlone leavesOut && areWritable leavesOut thenBody && elseWritable leavesOut elseBody
  | caseOf selector branches elseBody _ =>
    selector.standsAlone leavesOut && branchesWritable leavesOut branches && elseWritable leavesOut elseBody
  | repeatUntil body condition _ => areWritable leavesOut body && condition.standsAlone leavesOut
  | whileDo condition body _ => condition.standsAlone leavesOut && areWritable leavesOut body
  | forTo (.name ..) first last _ body _ =>
    first.standsAlone leavesOut && last.standsAlone leavesOut && areWritable leavesOut body
  | forTo .. => false
  | forEach (.name ..) iterable body _ => iterable.standsAlone leavesOut && areWritable leavesOut body
  | forEach .. => false
  | exit none _ => true
  | exit (some value) _ => value.isWritable false
  | block body _ => areWritable leavesOut body
  | withDo target body _ => target.standsAlone leavesOut && areWritable leavesOut body
  | jump .. => true

def areWritable (leavesOut : Expr → Bool) : List Stmt → Bool
  | [] => true
  | s :: rest => isWritable leavesOut s && areWritable leavesOut rest

def elseWritable (leavesOut : Expr → Bool) : Option (List Stmt) → Bool
  | none => true
  | some body => areWritable leavesOut body

def branchesWritable (leavesOut : Expr → Bool) : List (Branch Stmt) → Bool
  | [] => true
  | ⟨values, body, _⟩ :: rest =>
    !values.isEmpty && Expr.areWritable values && areWritable leavesOut body && branchesWritable leavesOut rest

end

mutual

def unplaced : Stmt → Stmt
  | assignment target op value _ => assignment target.unplaced op value.unplaced default
  | call c _ => call c.unplaced default
  | error c _ => error c.unplaced default
  | ifThen condition thenBody elseBody _ =>
    ifThen condition.unplaced (allUnplaced thenBody) (elseUnplaced elseBody) default
  | caseOf selector branches elseBody _ =>
    caseOf selector.unplaced (branchesUnplaced branches) (elseUnplaced elseBody) default
  | repeatUntil body condition _ => repeatUntil (allUnplaced body) condition.unplaced default
  | whileDo condition body _ => whileDo condition.unplaced (allUnplaced body) default
  | forTo counter first last down body _ =>
    forTo counter.unplaced first.unplaced last.unplaced down (allUnplaced body) default
  | forEach item iterable body _ => forEach item.unplaced iterable.unplaced (allUnplaced body) default
  | exit value _ => exit (value.map Expr.unplaced) default
  | block body _ => block (allUnplaced body) default
  | withDo target body _ => withDo target.unplaced (allUnplaced body) default
  | jump j _ => jump j default

def allUnplaced : List Stmt → List Stmt
  | [] => []
  | s :: rest => unplaced s :: allUnplaced rest

def elseUnplaced : Option (List Stmt) → Option (List Stmt)
  | none => none
  | some body => some (allUnplaced body)

def branchesUnplaced : List (Branch Stmt) → List (Branch Stmt)
  | [] => []
  | ⟨values, body, _⟩ :: rest => ⟨Expr.allUnplaced values, allUnplaced body, default⟩ :: branchesUnplaced rest

end

end Stmt

namespace Reading

/-! ## Lexemes between cursors -/

/-- From `c` to `d` stand the tokens that spell some lexemes. -/
def Cursor.Spells (c : Cursor) : List Lexeme → Cursor → Prop
  | [], d => c = d
  | x :: xs, d => ∃ t ts, c.rest = t :: ts ∧ x.spelledBy t = true ∧ (c.past t ts).Spells xs d

namespace Cursor

theorem spells_append {xs ys : List Lexeme} {c e : Cursor} :
    c.Spells (xs ++ ys) e ↔ ∃ d, c.Spells xs d ∧ d.Spells ys e := by
  induction xs generalizing c with
  | nil => simp [Spells]
  | cons x xs ih =>
    simp only [cons_append, Spells, ih]
    constructor
    · rintro ⟨t, ts, hc, hx, d, hxs, hys⟩
      exact ⟨d, ⟨t, ts, hc, hx, hxs⟩, hys⟩
    · rintro ⟨d, ⟨t, ts, hc, hx, hxs⟩, hys⟩
      exact ⟨t, ts, hc, hx, d, hxs, hys⟩

end Cursor

/-- A cursor before the plainest tokens of some lexemes. -/
def Cursor.ofLexemes (xs : List Lexeme) : Cursor := ⟨(Lexeme.sign ";").token, xs.map Lexeme.token, []⟩

/-- The plainest tokens spell their lexemes, if words are in lower case. -/
theorem Cursor.exists_spells {xs : List Lexeme} (h : ∀ x ∈ xs, x.spelledBy x.token = true) {ts : List Token} :
    ∀ {c : Cursor}, c.rest = xs.map Lexeme.token ++ ts → ∃ d, c.Spells xs d ∧ d.rest = ts := by
  induction xs with
  | nil => exact fun {c} hc => ⟨c, rfl, hc⟩
  | cons x xs ih =>
    intro c hc
    obtain ⟨d, hspells, hrest⟩ := ih (fun y hy => h y (mem_cons_of_mem _ hy))
      (show (c.past x.token _).rest = _ from rfl)
    exact ⟨d, ⟨x.token, _, hc, h x mem_cons_self, hspells⟩, hrest⟩

theorem Cursor.exists_spells_ofLexemes {xs : List Lexeme} (h : ∀ x ∈ xs, x.spelledBy x.token = true)
    (ys : List Lexeme) :
    ∃ d, (ofLexemes (xs ++ ys)).Spells xs d ∧ d.rest = ys.map Lexeme.token :=
  exists_spells h map_append

/-- Between two cursors stand as many tokens as lexemes, and no issue was noted. -/
theorem Cursor.Spells.rest_and_issues {xs : List Lexeme} {c d : Cursor} (h : c.Spells xs d) :
    d.rest = c.rest.drop xs.length ∧ d.issues = c.issues := by
  induction xs generalizing c with
  | nil =>
    obtain rfl : c = d := h
    exact ⟨rfl, rfl⟩
  | cons x xs ih =>
    obtain ⟨t, ts, hc, hx, hxs⟩ := h
    obtain ⟨hrest, hissues⟩ := ih hxs
    exact ⟨by rw [hc, hrest]; rfl, hissues⟩

end Reading

end AlLint
