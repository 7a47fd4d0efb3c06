import AlLint.Flow.Context

/-!
# Nodes

The parts of a file that rules look at. A rule says which kinds of node it wants to see.
-/

namespace AlLint

inductive Node where
  | declaration (d : Declaration)
  | var (v : Variable)
  | field (f : Field)
  | key (k : TableKey)
  | pageField (f : PageField)
  | action (a : PageAction)
  | enumValue (v : EnumValue)
  | routine (r : Routine)
  | stmt (s : Stmt)
  | expr (e : Expr)

namespace Node

def kind : Node → String
  | declaration _ => "declaration"
  | var _ => "variable"
  | field _ => "field"
  | key _ => "key"
  | pageField _ => "page_field"
  | action _ => "action"
  | enumValue _ => "enum_value"
  | routine (.trigger _) => "trigger"
  | routine (.procedure _) => "procedure"
  | stmt s => s.kind
  | expr e => e.kind

def span : Node → Span
  | declaration d => d.span
  | var v => v.span
  | field f => f.span
  | key k => k.span
  | pageField f => f.span
  | action a => a.span
  | enumValue v => v.span
  | routine (.trigger t) => t.span
  | routine (.procedure p) => p.span
  | stmt s => s.span
  | expr e => e.span

end Node

end AlLint
