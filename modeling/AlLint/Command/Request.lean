import AlLint.Command.Argument
import AlLint.Report.Basic
import AlLint.Source.Numeral
import AlLint.Text.Blank

/-!
# Requests

A request is what the arguments of the program ask for: to analyse some paths, or to list the rules.
-/

namespace AlLint.Command

structure AnalyzeRequest where
  paths : List String
  format : Report.Format := .text
  ruleConfig : Option String := none
  ruleFiles : List String := []
  failOn : Severity := .error
  timeout : Option String := none
  jobs : Option Int := none
  namePrefix : Option String := none
  out : Option String := none

inductive Request where
  | analyze (r : AnalyzeRequest)
  | rules (files : List String)

/-- The digits of a whole number. Underscores may stand between them, one at a time. -/
def digits? : List Char → Option (List Char)
  | [] => none
  | [c] => if Text.isDecimal c then some [c] else none
  | c :: '_' :: rest => if Text.isDecimal c then (digits? rest).map (c :: ·) else none
  | c :: rest => if Text.isDecimal c then (digits? rest).map (c :: ·) else none

def signed : List Char → Bool × List Char
  | '-' :: rest => (true, rest)
  | '+' :: rest => (false, rest)
  | cs => (false, cs)

def wholeNumber? (text : String) : Option Int := do
  let (negative, cs) := signed (Text.dropAround Text.isBlank text.toList)
  let digits ← digits? cs
  if digits.length > maxDigits then none
  else
    let n : Int := Text.decimalNumber digits
    some (if negative then -n else n)

namespace Request

def analyzeChoices : List Choice :=
  Argument.helpChoices ++ [⟨"--format", .one⟩, ⟨"--rule-config", .one⟩, ⟨"--rules", .many⟩, ⟨"--fail-on", .one⟩,
    ⟨"--timeout", .one⟩, ⟨"--jobs", .one⟩, ⟨"--prefix", .one⟩, ⟨"--out", .one⟩]

def rulesChoices : List Choice := Argument.helpChoices ++ [⟨"--rules", .many⟩]

def accepts (name value : String) : Bool :=
  if name = "--format" then (Report.Format.ofLabel? value).isSome
  else if name = "--fail-on" then (Severity.ofLabel? value).isSome
  else if name = "--jobs" then (wholeNumber? value).isSome
  else true

def analyzeOf (g : Given) : AnalyzeRequest where
  paths := g.operands
  format := ((g.one? "--format").bind Report.Format.ofLabel?).getD .text
  ruleConfig := g.one? "--rule-config"
  ruleFiles := (g.get? "--rules").getD []
  failOn := ((g.one? "--fail-on").bind Severity.ofLabel?).getD .error
  timeout := g.one? "--timeout"
  jobs := (g.one? "--jobs").bind wholeNumber?
  namePrefix := g.one? "--prefix"
  out := g.one? "--out"

def ofCommand (name : String) (args : List String) : Except Stop Request :=
  if name = "analyze" then do
    let g ← Given.ofArguments analyzeChoices accepts true args
    .ok (.analyze (analyzeOf g))
  else if name = "rules" then do
    let g ← Given.ofArguments rulesChoices accepts false args
    .ok (.rules ((g.get? "--rules").getD []))
  else .error .usage

/-- The request of some arguments: the first word is the command. Before it only a call for help makes sense. -/
def ofArguments : List String → Except Stop Request
  | [] => .error .usage
  | arg :: rest =>
    if arg = "--" then .error .usage
    else
      match Argument.ofText? Argument.helpChoices arg with
      | none => .error .usage
      | some (.word _) => ofCommand arg rest
      | some (.flag (.known c attached)) => .error (Given.askHelp c.name attached)
      | some (.flag (.unknown _)) =>
        match ofArguments rest with
        | .error stop => .error stop
        | .ok _ => .error .usage

end Request

end AlLint.Command
