import AlLint.Proofs.Source.Offset
import AlLint.Syntax.Element

/-!
# Outlines of syntax trees

All that the spans of a syntax tree say: an outline is a tree that has, at each node, the span of an object, an
element, a property, a variable, a piece of code, a statement, a branch or an expression, and below it the
outlines of what is inside.

`Outline.WellNested` says when a node stands right over its children. The children of one row come one after
another in the text. Those of an element stand in three rows, since properties, elements and code may be mixed
and only the order within each kind is kept; still no two of them overlap. The variables that are declared
together share their type, so their spans do overlap: they are loose.
-/

namespace AlLint

open List

namespace Span

def Within (s t : Span) : Prop := t.first ≤ s.first ∧ s.past ≤ t.past

/-- A span that ends before another begins. -/
def Before (s t : Span) : Prop := s.past ≤ t.first

def Apart (s t : Span) : Prop := s.Before t ∨ t.Before s

end Span

/-- A node, with its children in rows, and children that may overlap. -/
inductive Outline where
  | node (span : Span) (rows : List (List Outline)) (loose : List Outline)

namespace Outline

def span : Outline → Span
  | node s _ _ => s

def rows : Outline → List (List Outline)
  | node _ rows _ => rows

def loose : Outline → List Outline
  | node _ _ loose => loose

def children (o : Outline) : List Outline := o.rows.flatten ++ o.loose

/-- A node with all its children in one row. -/
def row (s : Span) (os : List Outline) : Outline := node s [os] []

def leaf (s : Span) : Outline := row s []

mutual

def nodes : Outline → List Outline
  | node s rows loose => node s rows loose :: (rowNodes rows ++ allNodes loose)

def allNodes : List Outline → List Outline
  | [] => []
  | o :: os => nodes o ++ allNodes os

/-- The nodes of some rows and all nodes below them. -/
def rowNodes : List (List Outline) → List Outline
  | [] => []
  | os :: rows => allNodes os ++ rowNodes rows

end

/-- How a node stands in a text with some tokens: from the start of a token to the end of one that is not before
it, with its children inside, those of a row one after another, and no two of different rows over each other. -/
structure WellNested (tokens : List Token) (o : Outline) : Prop where
  anchored : ∃ (i j : Nat) (first last : Token), i ≤ j ∧ tokens[i]? = some first ∧ tokens[j]? = some last ∧
    o.span = Span.covering first.span last.span
  proper : o.span.first < o.span.past
  within : ∀ child ∈ o.children, child.span.Within o.span
  ordered : ∀ row ∈ o.rows, row.Pairwise fun x y => x.span.Before y.span
  apart : o.rows.flatten.Pairwise fun x y => x.span.Apart y.span

theorem allNodes_eq (os : List Outline) : allNodes os = os.flatMap nodes := by
  induction os with
  | nil => rw [allNodes, flatMap_nil]
  | cons o os ih => rw [allNodes, flatMap_cons, ih]

theorem rowNodes_eq (rows : List (List Outline)) : rowNodes rows = rows.flatten.flatMap nodes := by
  induction rows with
  | nil => rw [rowNodes, flatten_nil, flatMap_nil]
  | cons os rows ih => rw [rowNodes, flatten_cons, flatMap_append, ih, allNodes_eq]

/-- A node below another is that node, or below one of its children. -/
theorem mem_nodes {o n : Outline} : n ∈ o.nodes ↔ n = o ∨ ∃ child ∈ o.children, n ∈ child.nodes := by
  obtain ⟨s, rows, loose⟩ := o
  rw [nodes, rowNodes_eq, allNodes_eq, ← flatMap_append, mem_cons, mem_flatMap]
  rfl

end Outline

open Outline

/-! ## Expressions -/

mutual

def Expr.outline : Expr → Outline
  | .constant _ _ s => leaf s
  | .name _ _ s => leaf s
  | .member target _ _ s => row s [target.outline]
  | .scope target _ s => row s [target.outline]
  | .index target indices s => row s (target.outline :: Expr.outlines indices)
  | .unary _ operand s => row s [operand.outline]
  | .binary _ left right s => row s [left.outline, right.outline]
  | .set items s => row s (Expr.outlines items)
  | .call callee args _ s => row s (callee.outline :: Expr.outlines args)

def Expr.outlines : List Expr → List Outline
  | [] => []
  | e :: es => e.outline :: Expr.outlines es

end

/-! ## Statements -/

mutual

def Stmt.outline : Stmt → Outline
  | .assignment target _ value s => row s [target.outline, value.outline]
  | .call c s => row s [c.toExpr.outline]
  | .error c s => row s [c.toExpr.outline]
  | .ifThen condition thenBody elseBody s =>
    row s (condition.outline :: (Stmt.outlines thenBody ++ Stmt.elseOutlines elseBody))
  | .caseOf selector branches elseBody s =>
    row s (selector.outline :: (Stmt.branchOutlines branches ++ Stmt.elseOutlines elseBody))
  | .repeatUntil body condition s => row s (Stmt.outlines body ++ [condition.outline])
  | .whileDo condition body s => row s (condition.outline :: Stmt.outlines body)
  | .forTo counter first last _ body s =>
    row s (counter.outline :: first.outline :: last.outline :: Stmt.outlines body)
  | .forEach item iterable body s => row s (item.outline :: iterable.outline :: Stmt.outlines body)
  | .exit value s => row s (Expr.outlines value.toList)
  | .block body s => row s (Stmt.outlines body)
  | .withDo target body s => row s (target.outline :: Stmt.outlines body)
  | .jump _ s => leaf s

def Stmt.outlines : List Stmt → List Outline
  | [] => []
  | s :: ss => s.outline :: Stmt.outlines ss

def Stmt.elseOutlines : Option (List Stmt) → List Outline
  | none => []
  | some body => Stmt.outlines body

/-- A branch of a case statement is a node with its values and its statements. -/
def Stmt.branchOutlines : List (Branch Stmt) → List Outline
  | [] => []
  | ⟨values, body, s⟩ :: rest => row s (Expr.outlines values ++ Stmt.outlines body) :: Stmt.branchOutlines rest

end

/-! ## Objects -/

def Variable.outline (v : Variable) : Outline := leaf v.span

def Parameter.outline (p : Parameter) : Outline := leaf p.span

def Property.outline (p : Property) : Outline := leaf p.span

def CodeMember.outline (m : CodeMember) : Outline :=
  .node m.span [m.parameters.map Parameter.outline ++ Stmt.outlines m.body] (m.vars.map Variable.outline)

mutual

def Element.outline : Element → Outline
  | ⟨_, s, _, properties, children, codes, vars, _⟩ =>
    .node s [properties.map Property.outline, Element.outlines children, codes.map CodeMember.outline]
      (vars.map Variable.outline)

def Element.outlines : List Element → List Outline
  | [] => []
  | e :: es => e.outline :: Element.outlines es

end

/-- The outlines of the objects of a file. -/
def SyntaxTree.outlines (tree : SyntaxTree) : List Outline := tree.objects.map fun o => o.body.outline

end AlLint
