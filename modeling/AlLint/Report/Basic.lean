import AlLint.Report.Json

/-!
# Reports

A report is written as text, one line for each diagnostic, or in JSON. The verdict of a run depends on the gravest
diagnostics.
-/

namespace AlLint.Report

def line (d : Diagnostic) : String :=
  s!"{d.path}:{d.line}:{d.column}: {d.severity} [{d.ruleId}] {d.message}\n"

def text (ds : List Diagnostic) : String := String.join (ds.map line)

inductive Format where
  | text
  | json
deriving DecidableEq, Repr

namespace Format

def label : Format → String
  | .text => "text"
  | .json => "json"

def ofLabel? (l : String) : Option Format := [Format.text, .json].find? fun f => f.label == l

def render : Format → List Diagnostic → String
  | .text, ds => Report.text ds
  | .json, ds => Report.json ds

end Format

/-- How a run can end: with nothing to complain about, with something, or not at all. -/
inductive Outcome where
  | clean
  | findings
  | incomplete
deriving DecidableEq, Repr

def Outcome.status : Outcome → Nat
  | .clean => 0
  | .findings => 1
  | .incomplete => 2

def outcome (threshold : String) (completed : Bool) (ds : List Diagnostic) : Outcome :=
  if !completed then .incomplete
  else if ds.any fun d => Severity.atLeast d.severity threshold then .findings
  else .clean

def outcome? (threshold : String) (completed : Bool) (ds : List Diagnostic) : Option Outcome :=
  if Severity.labels.contains threshold then some (outcome threshold completed ds) else none

end AlLint.Report
