/-!
# Severities

Diagnostics are graded. A grade that is not known counts as the lowest one.
-/

namespace AlLint

inductive Severity where
  | info
  | warning
  | error
deriving DecidableEq, Repr

namespace Severity

def all : List Severity := [info, warning, error]

def label : Severity → String
  | info => "info"
  | warning => "warning"
  | error => "error"

def rank : Severity → Nat
  | info => 0
  | warning => 1
  | error => 2

def labels : List String := all.map label

def ofLabel? (l : String) : Option Severity := all.find? fun s => s.label == l

def rankOf (l : String) : Nat := ((ofLabel? l).map rank).getD 0

def atLeast (severity threshold : String) : Bool := rankOf threshold ≤ rankOf severity

end Severity

end AlLint
