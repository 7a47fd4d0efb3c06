import AlLint.Source.Token

/-!
# Expressions

The expressions of the language, how they are written in messages, and what is inside them.
-/

namespace AlLint

inductive UnaryOp where
  | not
  | minus
  | plus
deriving DecidableEq, Repr

def UnaryOp.text : UnaryOp → String
  | .not => "not"
  | .minus => "-"
  | .plus => "+"

inductive BinaryOp where
  | range
  | equal
  | notEqual
  | less
  | greater
  | lessEqual
  | greaterEqual
  | isIn
  | plus
  | minus
  | or
  | xor
  | times
  | divide
  | wholeDivide
  | modulo
  | and
deriving DecidableEq, Repr

def BinaryOp.text : BinaryOp → String
  | .range => ".."
  | .equal => "="
  | .notEqual => "<>"
  | .less => "<"
  | .greater => ">"
  | .lessEqual => "<="
  | .greaterEqual => ">="
  | .isIn => "in"
  | .plus => "+"
  | .minus => "-"
  | .or => "or"
  | .xor => "xor"
  | .times => "*"
  | .divide => "/"
  | .wholeDivide => "div"
  | .modulo => "mod"
  | .and => "and"

/-- Expressions. A call is implicit if it is written without parentheses. -/
inductive Expr where
  | constant (value : String) (kind : LiteralKind) (span : Span)
  | name (name : String) (quoted : Bool) (span : Span)
  | member (target : Expr) (name : String) (quoted : Bool) (span : Span)
  | scope (target : Expr) (name : String) (span : Span)
  | index (target : Expr) (indices : List Expr) (span : Span)
  | unary (op : UnaryOp) (operand : Expr) (span : Span)
  | binary (op : BinaryOp) (left right : Expr) (span : Span)
  | set (items : List Expr) (span : Span)
  | call (callee : Expr) (args : List Expr) (implicit : Bool) (span : Span)
deriving Repr

namespace Expr

def span : Expr → Span
  | constant _ _ s | name _ _ s | member _ _ _ s | scope _ _ s | index _ _ s | unary _ _ s
  | binary _ _ _ s | set _ s | call _ _ _ s => s

def kind : Expr → String
  | constant .. => "constant"
  | name .. => "name"
  | member .. => "member"
  | scope .. => "scope"
  | index .. => "index"
  | unary .. => "unary"
  | binary .. => "binary"
  | set .. => "set"
  | call .. => "call"

/-- A name as it is written: between double quotes if it is quoted. -/
def nameText (name : String) (quoted : Bool) : String := if quoted then "\"" ++ name ++ "\"" else name

def stringText (value : String) : String :=
  "'" ++ String.ofList (value.toList.flatMap fun c => if c = '\'' then ['\'', '\''] else [c]) ++ "'"

mutual

/-- An expression on one line, as messages show it. Grouping parentheses are not kept. -/
def text : Expr → String
  | constant value kind _ => if kind = .string then stringText value else value
  | name n quoted _ => nameText n quoted
  | member target n quoted _ => text target ++ "." ++ nameText n quoted
  | scope target n _ => text target ++ "::" ++ n
  | index target indices _ => text target ++ "[" ++ listText indices ++ "]"
  | unary op operand _ => op.text ++ (if op = .not then " " else "") ++ text operand
  | binary op left right _ => text left ++ " " ++ op.text ++ " " ++ text right
  | set items _ => "[" ++ listText items ++ "]"
  | call callee args implicit _ =>
    if implicit then text callee else text callee ++ "(" ++ listText args ++ ")"

def listText : List Expr → String
  | [] => ""
  | [e] => text e
  | e :: rest => text e ++ ", " ++ listText rest

end

mutual

/-- An expression and everything inside it, outermost first and from left to right. -/
def subexpressions : Expr → List Expr
  | e@(constant ..) => [e]
  | e@(name ..) => [e]
  | e@(member target _ _ _) => e :: subexpressions target
  | e@(scope target _ _) => e :: subexpressions target
  | e@(index target indices _) => e :: (subexpressions target ++ allSubexpressions indices)
  | e@(unary _ operand _) => e :: subexpressions operand
  | e@(binary _ left right _) => e :: (subexpressions left ++ subexpressions right)
  | e@(set items _) => e :: allSubexpressions items
  | e@(call callee args _ _) => e :: (subexpressions callee ++ allSubexpressions args)

def allSubexpressions : List Expr → List Expr
  | [] => []
  | e :: rest => subexpressions e ++ allSubexpressions rest

end

end Expr

structure Call where
  callee : Expr
  args : List Expr
  implicit : Bool
  span : Span
deriving Repr

namespace Call

def toExpr (c : Call) : Expr := .call c.callee c.args c.implicit c.span

/-- The name of the called function or method, in lower case; nothing if it has none. -/
def method (c : Call) : String :=
  match c.callee with
  | .name n _ _ | .member _ n _ _ | .scope _ n _ => Text.lower n
  | _ => ""

/-- The variable that a method is called on, in lower case, if it is a plain variable. -/
def receiver? (c : Call) : Option String :=
  match c.callee with
  | .member (.name n _ _) _ _ _ => some (Text.lower n)
  | _ => none

def isGlobal (c : Call) : Bool :=
  match c.callee with
  | .name .. => true
  | _ => false

def calleeText (c : Call) : String := c.callee.text

/-- How the receiver of a method call is written; nothing for other calls. -/
def receiverText (c : Call) : String :=
  match c.callee with
  | .member target _ _ _ => target.text
  | _ => ""

def methodText (c : Call) : String :=
  match c.callee with
  | .name n _ _ | .member _ n _ _ => n
  | _ => c.method

end Call

namespace Expr

def asCall? : Expr → Option Call
  | call callee args implicit span => some ⟨callee, args, implicit, span⟩
  | _ => none

def calls (e : Expr) : List Call := e.subexpressions.filterMap asCall?

end Expr

end AlLint
