import AlLint.Formula.Given
import AlLint.Formula.Method
import AlLint.Formula.Read

/-!
# What stands behind a view

A generator gives away the frame that it works in, and a frame gives away a function that computes the value of
a text. A helper that is given this function as its key calls it with each of its items, while its own arguments
are at hand under the names `args` and `kwargs`. A text may use private attributes, and so it comes from a view
among the arguments to the context behind it.

Texts may be anything. Described here are those that go from the arguments to attributes and items of what they
find, and of the attributes of a context those that are plain values.
-/

namespace AlLint.Formula

def Literal.value : Literal → Mark → Value
  | .none, _ => .none
  | .bool b, _ => .bool b
  | .int n, m => .ofInt n m
  | .float f, m => .float f m
  | .imaginary f, m => .complex 0 f m
  | .text s, m => .ofText s m
  | .bytes bs, m => .ofBytes bs m
  | .ellipsis, _ => .ellipsis

def contextAttribute (c : Context) (name : String) : Except Mishap Value :=
  let own := Mark.named (.single 0 Hidden.context.label) name
  match name with
  | "member_kind" => .ok (.word c.place.label)
  | "owner" => .ok (.ofText? c.owner own)
  | "loop_depth" => .ok (.ofInt c.loopDepth own)
  | "if_depth" => .ok (.ofInt c.ifDepth own)
  | "silent" => .ok (.ofInt c.silent own)
  | "prefix" => .ok (.ofText? c.namePrefix own)
  | "options" => .ok (.ofKeyed (Value.ofKeyed Value.ofDocument) c.options own)
  | _ => .error .beyond

def outsideAttribute (c : Option Context) (v : Value) (name : String) : Except Mishap Value :=
  match c, v with
  | some _, .part .place _ => if name = "_ctx" then .ok (.ofHidden .context) else .error .beyond
  | some c, .part (.hidden .context) _ => contextAttribute c name
  | _, _ => .error .beyond

/-- What a text stands for outside of formulas, where the arguments of a helper are at hand. -/
def outsideValue (c : Option Context) (a : Args) : Term → Except Mishap Value
  | .literal l place => .ok (l.value (.literal place))
  | .name "args" => .ok (.ofItems a.places (.given "args"))
  | .name "kwargs" => .ok (.ofKeyed (fun v _ => v) a.named (.given "kwargs"))
  | .access t name => do outsideAttribute c (← outsideValue c a t) name
  | .item t index => do (← outsideValue c a t).item (← outsideValue c a index) (.given "item")
  | _ => .error .beyond

/-- Calls the function that computes the value of a text. A sealed view does not let it be called. -/
def callEvaluator (s : Scene) (a : Args) (v : Value) : Except Mishap Value :=
  match s.behind, v with
  | .context c, .text text _ =>
    match Term.ofText? (Text.strip text) with
    | some t => outsideValue c a t
    | none => .error .beyond
  | .context _, .bytes .. | .sealed, _ => .error .beyond
  | .context _, _ => .error .type

end AlLint.Formula
