import AlLint.Report.Diagnostic
import AlLint.Text.Quoted

/-!
# Reports in JSON

A report is an array with one object for each diagnostic, indented by two blanks. Everything outside of printable
ASCII is escaped, characters above the basic plane as two surrogates.
-/

namespace AlLint.Report

def unitEscape (n : Nat) : List Char := '\\' :: 'u' :: Text.hex 4 n

def escape (c : Char) : List Char :=
  if c = '"' then ['\\', '"']
  else if c = '\\' then ['\\', '\\']
  else if c = '\n' then ['\\', 'n']
  else if c = '\r' then ['\\', 'r']
  else if c = '\t' then ['\\', 't']
  else if c = '\x08' then ['\\', 'b']
  else if c = '\x0c' then ['\\', 'f']
  else if 32 ≤ c.toNat ∧ c.toNat ≤ 126 then [c]
  else if c.toNat < 0x10000 then unitEscape c.toNat
  else
    let n := c.toNat - 0x10000
    unitEscape (0xD800 + n / 0x400) ++ unitEscape (0xDC00 + n % 0x400)

def string (s : String) : String := String.ofList ('"' :: s.toList.flatMap escape ++ ['"'])

/-- A member of an object: its name, and its value as it is written. -/
abbrev Member := String × String

def object (indent : String) (members : List Member) : String :=
  let inner := indent ++ "  "
  let lines := members.map fun m => inner ++ string m.1 ++ ": " ++ m.2
  "\x7b\n" ++ ",\n".intercalate lines ++ "\n" ++ indent ++ "\x7d"

def toolName : String := "alnomic"

def toolVersion : String := "0.1.0"

def diagnostic (d : Diagnostic) : String :=
  let location := object "    " [
    ("file", string d.path), ("line", toString d.line), ("column", toString d.column)]
  object "  " [
    ("rule_id", string d.ruleId), ("severity", string d.severity), ("category", string d.category),
    ("message", string d.message), ("location", location), ("tool", string toolName),
    ("version", string toolVersion)]

def json (ds : List Diagnostic) : String :=
  match ds with
  | [] => "[]\n"
  | _ => "[\n" ++ ",\n".intercalate (ds.map fun d => "  " ++ diagnostic d) ++ "\n]\n"

end AlLint.Report
