import AlLint.Catalog.Basic
import AlLint.Catalog.Option
import AlLint.Text.Sort

/-!
# Rules about the quality of code

Documentation, names, labels and nesting.
-/

namespace AlLint.Catalog

def commas (texts : List String) : String := ", ".intercalate texts

def docMismatch? (p : Procedure) (doc : Doc) : Option String :=
  let documented := doc.params.map Text.lower
  let declared := p.parameters.map Parameter.key
  if Text.sorted documented = Text.sorted declared then none
  else
    let missing := (p.parameters.filter fun q => !documented.contains q.key).map Parameter.name
    let unknown := doc.params.filter fun name => !declared.contains (Text.lower name)
    let problems :=
      (if missing.isEmpty then [] else ["undocumented: " ++ commas missing]) ++
        (if unknown.isEmpty then [] else ["unknown: " ++ commas unknown])
    some (if problems.isEmpty then "duplicate <param> tags" else "; ".intercalate problems)

def undocumented (p : Procedure) : List Finding :=
  if !p.isPublic then []
  else
    match p.doc with
    | none => [found p.span [p.name]]
    | some doc =>
      match docMismatch? p doc with
      | none => []
      | some mismatch =>
        let message := "Documentation of " ++ p.name ++ " does not match its parameters (" ++ mismatch ++ ")"
        [{ span := p.span, message := some message }]

def missingDoc : Rule where
  id := "missing-doc"
  category := "CodeQuality"
  severity := "warning"
  kinds := ["procedure"]
  message := "Public procedure %1 has no /// documentation comment"
  check := onProcedure undocumented
  description := "Public procedures without a matching /// block."

def labelSuffixes : List String := ["Lbl", "Msg", "Err", "Qst", "Tok", "Txt"]

/-- The functions that take a label, each with the option for the ending of the label's name and its default. -/
def suffixOptions : List (String × String × String) := [
  ("error", "error_suffix", "Err"),
  ("confirm", "confirm_suffix", "Qst"),
  ("message", "message_suffix", "Msg")]

def variableCasing (v : Variable) : List Finding :=
  if !v.quoted && !Text.startsUpper v.name then
    [found v.span ["Variable " ++ v.name ++ " should start with an upper-case letter"]]
  else []

def labelEnding (c : Context) (v : Variable) : Except Misfit (List Finding) :=
  if v.type.isLabel then do
    let endings ← listed (c.option "naming" "label_suffixes" (.list (labelSuffixes.map .text)))
    let ends ← endsWithOne v.name endings
    let message := "Label " ++ v.name ++ " should end with one of " ++ commas (endings.map Document.shown)
    return if ends then [] else [found v.span [message]]
  else .ok []

def variableName (c : Context) (v : Variable) : Verdict :=
  let ending := Verdict.ofExcept (labelEnding c v)
  { ending with findings := variableCasing v ++ ending.findings }

def fieldName (f : Field) : List Finding :=
  if Text.startsLower f.name then
    [found f.span ["Field " ++ f.name ++ " should not start with a lower-case letter"]]
  else []

def objectName (c : Context) (d : Declaration) : List Finding :=
  match c.namePrefix.filter (· ≠ "") with
  | none => []
  | some start =>
    if (Text.lower start).toList.isPrefixOf (Text.lower d.name).toList then []
    else [found d.span ["Object name " ++ d.name ++ " does not start with the project prefix " ++ start]]

def passedLabel (c : Context) (call : Call) : Except Misfit (List Finding) :=
  match suffixOptions.find? (·.1 == call.method), call.isGlobal, call.args with
  | some (_, option, default), true, .name n _ span :: _ =>
    if ((c.typeOf? n).map TypeRef.isLabel).getD false then
      let ending := c.option "naming" option (.text default)
      let message := "Label " ++ n ++ " passed to " ++ call.methodText ++ " should end with " ++ ending.shown
      (endsWithValue n ending).map fun ends => if ends then [] else [found span [message]]
    else .ok []
  | _, _, _ => .ok []

/-- The casing of names, the endings of labels and the start that the names of a project share. -/
def naming : Rule where
  id := "naming"
  category := "CodeQuality"
  severity := "warning"
  kinds := ["variable", "field", "declaration", "call"]
  message := "%1"
  check := fun _ s =>
    match s.node with
    | .var v => variableName s.context v
    | .field f => { findings := fieldName f }
    | .declaration d => { findings := objectName s.context d }
    | .expr e => .ofExcept (((e.asCall?).map (passedLabel s.context)).getD (.ok []))
    | _ => {}
  description := "Identifier casing, label suffixes and the project prefix."
  options := ("label_suffixes", .list (labelSuffixes.map .text)) ::
    suffixOptions.map fun entry => (entry.2.1, .text entry.2.2)

/-- Whether a text has a place for a value: a percent sign before a digit. -/
def hasPlace : List Char → Bool
  | '%' :: c :: rest => Text.isDecimal c || hasPlace (c :: rest)
  | _ :: rest => hasPlace rest
  | [] => false

def unexplainedLabel (_ : Context) (v : Variable) : List Finding :=
  match v.label with
  | none => []
  | some label =>
    if !label.locked && (label.comment.getD "").isEmpty && hasPlace label.text.toList then
      [found v.span [v.name]]
    else []

def labelPlaceholderComment : Rule where
  id := "label-placeholder-comment"
  category := "CodeQuality"
  severity := "warning"
  kinds := ["variable"]
  message := "Label %1 has placeholders but no Comment explaining them"
  check := onVariable unexplainedLabel
  description := "Translatable labels with %1-style placeholders need a Comment."

def deepCondition (c : Context) (s : Stmt) : Except Misfit (List Finding) :=
  let limit := c.option "nested-conditionals" "max_depth" (.int 3)
  (isNext c.ifDepth limit).map fun next =>
    if next then [found s.span [toString c.ifDepth, limit.shown]] else []

def nestedConditionals : Rule where
  id := "nested-conditionals"
  category := "CodeQuality"
  severity := "warning"
  kinds := ["if"]
  message := "if statement nested %1 levels deep (maximum %2); prefer guard clauses or a helper procedure"
  check := onStmtWith deepCondition
  description := "Deeply nested if statements; else-if chains do not add depth."
  options := [("max_depth", .int 3)]

end AlLint.Catalog
