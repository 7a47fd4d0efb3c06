import AlLint.Formula.Part
import AlLint.Formula.StringMethod

/-!
# Methods

What the methods of lists and mappings give for their arguments, and what the questions about parts answer.
Methods only read what they are called on.
-/

namespace AlLint.Formula

/-! ## Lists and mappings -/

def listBound (length : Int) (v : Value) : Except Mishap Int :=
  match v.place? with
  | some i => .ok (if i < 0 then max 0 (i + length) else i)
  | none => .error .type

def findPlace (test : Value.Test) (place : Nat) : List Value → Except Mishap (Option Nat)
  | [] => .ok none
  | v :: rest => do if ← test v then return some place else findPlace test (place + 1) rest

def listMethod (items : List Value) (name : String) (a : Args) (m : Mark) : Except Mishap Value := do
  match name with
  | "count" =>
    let args ← a.byPlace 1 1
    let hits ← items.filterM fun v => v.isFound (args.headD .none)
    return .ofInt hits.length m
  | "index" =>
    let args ← a.byPlace 1 3
    let bounds ← (args.drop 1).mapM (listBound items.length)
    let first := (bounds.headD 0).toNat
    let last := (bounds.getD 1 items.length).toNat
    match ← findPlace (·.isFound (args.headD .none)) first ((items.take last).drop first) with
    | some place => return .ofInt place m
    | none => .error .value
  | _ => .error .type

def dictMethod (entries : List (Value × Value)) (name : String) (a : Args) (m : Mark) : Except Mishap Value := do
  match name with
  | "get" =>
    let args ← a.byPlace 1 2
    let found ← Value.entryOf? entries (args.headD .none)
    return found.getD (args.getD 1 .none)
  | "keys" => a.plain (.view .keys entries m)
  | "values" => a.plain (.view .values entries m)
  | "items" => a.plain (.view .items entries m)
  | _ => .error .type

/-! ## Parts -/

/-- The name that a question is about. Bytes can be written in small letters too, but are the name of nothing. -/
def nameArg : Value → Except Mishap (Option String)
  | .text s _ => .ok (some s)
  | .bytes .. => .ok none
  | .helper .str => .error .type
  | _ => .error .noAttribute

/-- The answer to a question about one name, or what it is for no name. A name that is false has no variable if
`isOptional`. -/
def ask (a : Args) (isOptional : Bool) (otherwise : Value) (answer : String → Value) : Except Mishap Value := do
  let v ← a.one "name"
  if isOptional && !v.truth then return .bool false
  return ((← nameArg v).map answer).getD otherwise

def placeMethod (file : Nat) (s : Surroundings) (name : String) (a : Args) : Except Mishap Value :=
  match name with
  | "type_of" => ask a false .none fun n => .ofType? file (s.typeOf n)
  | "is_record" => ask a true (.bool false) fun n => .bool (s.isRecord n)
  | "is_temporary" => ask a true (.bool false) fun n => .bool (s.isTemporary n)
  | "load_state" => ask a false (.word Load.unknownLabel) fun n => .word (s.load n)
  | "loop_entry_load_state" => ask a false (.word Load.unknownLabel) fun n => .word (s.loopEntryLoad n)
  | "is_emptiness_checked" => ask a false (.bool false) fun n => .bool (s.isChecked n)
  | _ => .error .type

def spanArg : Option Value → Except Mishap Span
  | some (.part (.span s) _) => .ok s
  | some _ => .error .noAttribute
  | none => .error .type

/-- The text of the line with some number. The only line of a file is its text. -/
def lineText (f : SourceFile) (own : Mark) (v : Value) (m : Mark) : Except Mishap Value := do
  let count := (Text.lines f.text).length
  if !(← Value.order .lessEqual (.ofInt 1 m) v) || !(← Value.order .lessEqual v (.ofInt count m)) then return .word ""
  match v.place? with
  | some i =>
    let line := f.lineText i
    return .ofText line (if line = f.text then .named own "text" else m)
  | none => .error .type

def partMethod (face : Option Surroundings) (p : Part) (own : Mark) (name : String) (a : Args) (m : Mark) :
    Except Mishap Value :=
  match p, name with
  | .node (.declaration d), "property_value" => ask a false .none fun n => .ofPropertyText? own.file d.properties n
  | .span _, "covering" => do
    match ← a.byName ["start", "end"] with
    | [first, last] =>
      if first.isNone || last.isNone then .error .type
      return .ofSpan (Span.covering (← spanArg first) (← spanArg last)) m
    | _ => .error .type
  | .file f, "line_text" => do lineText f own (← a.one "line") m
  | .place, name =>
    match face with
    | some s => placeMethod own.file s name a
    | none => .error .type
  | _, _ => .error .type

def callMethod (face : Option Surroundings) (receiver : Value) (name : String) (a : Args) (m : Mark) :
    Except Mishap Value :=
  match receiver with
  | .text s _ => textMethod receiver s name a m
  | .bytes bs _ => bytesMethod receiver bs name a m
  | .list items _ | .tuple items _ => listMethod items name a m
  | .dict entries _ | .mapping entries _ => dictMethod entries name a m
  | .part p own => partMethod face p own name a m
  | _ => .error .type

/-! ## Which methods there are -/

def readOnlyMethods : List String := [
  "lower", "upper", "casefold", "strip", "lstrip", "rstrip", "startswith", "endswith", "split", "rsplit",
  "splitlines", "replace", "find", "rfind", "isdigit", "isalpha", "isalnum", "isupper", "islower", "count",
  "index", "get", "keys", "values", "items"]

def textMethods : List String := [
  "capitalize", "casefold", "center", "count", "encode", "endswith", "expandtabs", "find", "index", "isalnum",
  "isalpha", "isascii", "isdecimal", "isdigit", "isidentifier", "islower", "isnumeric", "isprintable",
  "isspace", "istitle", "isupper", "join", "ljust", "lower", "lstrip", "maketrans", "partition", "removeprefix",
  "removesuffix", "replace", "rfind", "rindex", "rjust", "rpartition", "rsplit", "rstrip", "split",
  "splitlines", "startswith", "strip", "swapcase", "title", "translate", "upper", "zfill"]

def bytesMethods : List String := [
  "capitalize", "center", "count", "decode", "endswith", "expandtabs", "find", "fromhex", "hex", "index", "isalnum",
  "isalpha", "isascii", "isdigit", "islower", "isspace", "istitle", "isupper", "join", "ljust", "lower", "lstrip",
  "maketrans", "partition", "removeprefix", "removesuffix", "replace", "rfind", "rindex", "rjust", "rpartition",
  "rsplit", "rstrip", "split", "splitlines", "startswith", "strip", "swapcase", "title", "translate", "upper",
  "zfill"]

def Value.methods : Value → List String
  | .text .. => textMethods
  | .bytes .. => bytesMethods
  | .list .. => [
    "append", "clear", "copy", "count", "extend", "index", "insert", "pop", "remove", "reverse", "sort"]
  | .tuple .. => ["count", "index"]
  | .set .. => [
    "add", "clear", "copy", "difference", "difference_update", "discard", "intersection", "intersection_update",
    "isdisjoint", "issubset", "issuperset", "pop", "remove", "symmetric_difference",
    "symmetric_difference_update", "union", "update"]
  | .dict .. =>
    ["clear", "copy", "fromkeys", "get", "items", "keys", "pop", "popitem", "setdefault", "update", "values"]
  | .mapping .. => ["copy", "get", "items", "keys", "values"]
  | .view .values .. => []
  | .view .. => ["isdisjoint"]
  | .bool _ | .int .. => ["as_integer_ratio", "bit_count", "bit_length", "conjugate", "from_bytes", "to_bytes"]
  | .float .. => ["as_integer_ratio", "conjugate", "fromhex", "hex", "is_integer"]
  | .complex .. => ["conjugate"]
  | .generator _ => ["close", "send", "throw"]
  | _ => []

def plainAttribute? (v : Value) (name : String) (m : Mark) : Option Value :=
  match v, name with
  | .int .., "real" | .int .., "numerator" | .float .., "real" => some v
  | .bool b, "real" | .bool b, "numerator" => some (.ofInt (if b then 1 else 0) m)
  | .int .., "imag" | .bool _, "imag" => some (.ofInt 0 m)
  | .int .., "denominator" | .bool _, "denominator" => some (.ofInt 1 m)
  | .float .., "imag" => some (.float 0 m)
  | .complex re _ _, "real" => some (.float re m)
  | .complex _ im _, "imag" => some (.float im m)
  | .view _ entries _, "mapping" => some (.mapping entries m)
  | _, _ => none

/-- What a formula reads of something hidden. Frames and what they know have more to read than is described. -/
def hiddenAttribute (h : Hidden) (name : String) : Except Stop Value :=
  match h, name with
  | .frame, "f_builtins" => .ok (.ofHidden .builtins)
  | .frame, "f_back" | .frame, "f_trace" => .ok .none
  | .frame, "f_trace_lines" => .ok (.bool true)
  | .frame, "f_trace_opcodes" => .ok (.bool false)
  | .frame, "clear" => .error (.refused (.method name))
  | .frame, "f_code" | .frame, "f_globals" | .frame, "f_lasti" | .frame, "f_lineno" | .frame, "f_locals" =>
    .error (.failed .beyond)
  | .builtins, "get" | .builtins, "items" | .builtins, "keys" | .builtins, "values" => .error (.failed .beyond)
  | .builtins, name =>
    .error (if (Value.dict [] .only).methods.contains name then .refused (.method name) else .failed .noAttribute)
  | .context, _ => .error (.failed .beyond)
  | _, _ => .error (.failed .noAttribute)

def Value.attribute (face : Option Surroundings) (v : Value) (name : String) (m : Mark) : Except Stop Value :=
  match v with
  | .part (.hidden h) _ => hiddenAttribute h name
  | .part p own =>
    match p.attribute? face own m name with
    | some value => .ok value
    | Option.none => .error (.failed .noAttribute)
  | .helper .str => .error (if textMethods.contains name then .refused (.method name) else .failed .noAttribute)
  | _ =>
    match plainAttribute? v name m with
    | some value => .ok value
    | Option.none =>
      if !v.methods.contains name then .error (.failed .noAttribute)
      else if readOnlyMethods.contains name then .ok (.method v name m)
      else .error (.refused (.method name))

end AlLint.Formula
