import AlLint.Formula.Quoted

/-!
# Reading formulas

One function per level of the grammar, from conditionals down to literals. Each takes the tokens that are left
and gives a formula and the tokens after it. `fuel` bounds the depth of the calls; the levels between two tokens
are few, so a fixed multiple of the length of the text is enough.
-/

namespace AlLint.Formula

/-- The form of a part of a display: a formula, one that also gives a name its value, or one whose items are taken. -/
inductive Form where
  | plain
  | named
  | starred
deriving DecidableEq, Repr

def levels : List (List (String × Operator)) := [
  [("|", .bitOr)], [("^", .bitXor)], [("&", .bitAnd)], [("<<", .shiftLeft), (">>", .shiftRight)],
  [("+", .add), ("-", .subtract)],
  [("*", .multiply), ("/", .divide), ("//", .floorDivide), ("%", .modulo), ("@", .matrixMultiply)]]

def operator? (ops : List (String × Operator)) : List Token → Option (Operator × List Token)
  | .mark m :: rest => (ops.lookup m).map (·, rest)
  | _ => none

def comparison? : List Token → Option (Comparison × List Token)
  | .mark "==" :: rest => some (.equal, rest)
  | .mark "!=" :: rest => some (.notEqual, rest)
  | .mark "<" :: rest => some (.less, rest)
  | .mark "<=" :: rest => some (.lessEqual, rest)
  | .mark ">" :: rest => some (.greater, rest)
  | .mark ">=" :: rest => some (.greaterEqual, rest)
  | .keyword "in" :: rest => some (.isIn, rest)
  | .keyword "not" :: .keyword "in" :: rest => some (.notIn, rest)
  | .keyword "is" :: .keyword "not" :: rest => some (.notSame, rest)
  | .keyword "is" :: rest => some (.same, rest)
  | _ => none

def spanTexts : List Token → List (Quotation × List Char) × List Token
  | .quoted how body :: rest => let (more, after) := spanTexts rest; ((how, body) :: more, after)
  | ts => ([], ts)

def expect (m : String) : List Token → Option (List Token)
  | .mark n :: rest => if n = m then some rest else none
  | _ => none

structure Arguments where
  args : List Term := []
  named : List (String × Term) := []
  /-- A mapping was taken in. -/
  unpacked : Bool := false

structure Parameters where
  count : Nat := 0
  hasDefault : Bool := false
  hasSlash : Bool := false
  hasStar : Bool := false
  /-- A star stands alone, and no name has followed it yet. -/
  bareStar : Bool := false

mutual

def formula : Nat → List Token → Option (Term × List Token)
  | 0, _ => none
  | fuel + 1, .keyword "lambda" :: ts => lambda fuel {} ts
  | fuel + 1, ts => do
    let (ifTrue, ts) ← disjunction fuel ts
    match ts with
    | .keyword "if" :: ts => do
      let (test, ts) ← disjunction fuel ts
      match ts with
      | .keyword "else" :: ts => do
        let (ifFalse, ts) ← formula fuel ts
        return (.choice test ifTrue ifFalse, ts)
      | _ => none
    | _ => return (ifTrue, ts)

def lambda : Nat → Parameters → List Token → Option (Term × List Token)
  | 0, _, _ => none
  | fuel + 1, seen, ts =>
    match ts with
    | .mark ":" :: ts => if seen.bareStar then none else lambdaBody fuel ts
    | .mark "/" :: ts =>
      if seen.count = 0 || seen.hasSlash || seen.hasStar then none
      else lambdaNext fuel { seen with hasSlash := true } ts
    | .mark "*" :: .name _ :: ts =>
      if seen.hasStar then none else lambdaNext fuel { seen with hasStar := true } ts
    | .mark "*" :: .mark "," :: ts =>
      if seen.hasStar then none else lambda fuel { seen with hasStar := true, bareStar := true } ts
    | .mark "**" :: .name _ :: ts =>
      if seen.bareStar then none
      else
        match ts with
        | .mark ":" :: ts => lambdaBody fuel ts
        | .mark "," :: .mark ":" :: ts => lambdaBody fuel ts
        | _ => none
    | .name _ :: .mark "=" :: ts => do
      let (_, ts) ← formula fuel ts
      lambdaNext fuel { seen with count := seen.count + 1, hasDefault := true, bareStar := false } ts
    | .name _ :: ts =>
      if seen.hasDefault && !seen.hasStar then none
      else lambdaNext fuel { seen with count := seen.count + 1, bareStar := false } ts
    | _ => none

def lambdaNext : Nat → Parameters → List Token → Option (Term × List Token)
  | 0, _, _ => none
  | fuel + 1, seen, .mark "," :: ts => lambda fuel seen ts
  | fuel + 1, seen, .mark ":" :: ts => if seen.bareStar then none else lambdaBody fuel ts
  | _ + 1, _, _ => none

def lambdaBody : Nat → List Token → Option (Term × List Token)
  | 0, _ => none
  | fuel + 1, ts => (formula fuel ts).map fun (_, ts) => (.unsupported "Lambda", ts)

def disjunction : Nat → List Token → Option (Term × List Token)
  | 0, _ => none
  | fuel + 1, ts => do
    let (first, ts) ← conjunction fuel ts
    let (rest, ts) ← disjuncts fuel ts
    return (if rest.isEmpty then first else .junction false (first :: rest), ts)

def disjuncts : Nat → List Token → Option ((List Term) × List Token)
  | 0, _ => none
  | fuel + 1, .keyword "or" :: ts => do
    let (part, ts) ← conjunction fuel ts
    let (rest, ts) ← disjuncts fuel ts
    return (part :: rest, ts)
  | _ + 1, ts => some ([], ts)

def conjunction : Nat → List Token → Option (Term × List Token)
  | 0, _ => none
  | fuel + 1, ts => do
    let (first, ts) ← inversion fuel ts
    let (rest, ts) ← conjuncts fuel ts
    return (if rest.isEmpty then first else .junction true (first :: rest), ts)

def conjuncts : Nat → List Token → Option ((List Term) × List Token)
  | 0, _ => none
  | fuel + 1, .keyword "and" :: ts => do
    let (part, ts) ← inversion fuel ts
    let (rest, ts) ← conjuncts fuel ts
    return (part :: rest, ts)
  | _ + 1, ts => some ([], ts)

def inversion : Nat → List Token → Option (Term × List Token)
  | 0, _ => none
  | fuel + 1, .keyword "not" :: ts => (inversion fuel ts).map fun (f, ts) => (.unary .not f, ts)
  | fuel + 1, ts => do
    let (first, ts) ← operand fuel levels ts
    let (rest, ts) ← comparisons fuel ts
    return (if rest.isEmpty then first else .relation first rest, ts)

def comparisons : Nat → List Token → Option ((List (Comparison × Term)) × List Token)
  | 0, _ => none
  | fuel + 1, ts =>
    match comparison? ts with
    | none => some ([], ts)
    | some (op, ts) => do
      let (right, ts) ← operand fuel levels ts
      let (rest, ts) ← comparisons fuel ts
      return ((op, right) :: rest, ts)

def operand : Nat → List (List (String × Operator)) → List Token → Option (Term × List Token)
  | 0, _, _ => none
  | fuel + 1, [], ts => factor fuel ts
  | fuel + 1, ops :: tighter, ts => do
    let (left, ts) ← operand fuel tighter ts
    operands fuel ops tighter left ts

def operands : Nat → List (String × Operator) → List (List (String × Operator)) → Term → List Token →
    Option (Term × List Token)
  | 0, _, _, _, _ => none
  | fuel + 1, ops, tighter, left, ts =>
    match operator? ops ts with
    | none => some (left, ts)
    | some (op, ts) => do
      let (right, ts) ← operand fuel tighter ts
      operands fuel ops tighter (.binary op left right) ts

def factor : Nat → List Token → Option (Term × List Token)
  | 0, _ => none
  | fuel + 1, .mark "+" :: ts => (factor fuel ts).map fun (f, ts) => (.unary .plus f, ts)
  | fuel + 1, .mark "-" :: ts => (factor fuel ts).map fun (f, ts) => (.unary .minus f, ts)
  | fuel + 1, .mark "~" :: ts => (factor fuel ts).map fun (f, ts) => (.unary .invert f, ts)
  | fuel + 1, ts => do
    let (base, ts) ←
      match ts with
      | .keyword "await" :: ts => (primary fuel ts).map fun (_, ts) => (.unsupported "Await", ts)
      | _ => primary fuel ts
    match ts with
    | .mark "**" :: ts => (factor fuel ts).map fun (exponent, ts) => (.binary .power base exponent, ts)
    | _ => some (base, ts)

def primary : Nat → List Token → Option (Term × List Token)
  | 0, _ => none
  | fuel + 1, ts => do
    let (f, ts) ← atom fuel ts
    trailers fuel f ts

def trailers : Nat → Term → List Token → Option (Term × List Token)
  | 0, _, _ => none
  | fuel + 1, f, .mark "." :: .name id :: ts => trailers fuel (.access f id) ts
  | fuel + 1, f, .mark "(" :: ts => do
    let (seen, ts) ← arguments fuel {} ts
    trailers fuel (.call f seen.args seen.named) ts
  | fuel + 1, f, .mark "[" :: ts => do
    let (g, ts) ← subscript fuel f ts
    trailers fuel g ts
  | _ + 1, f, ts => some (f, ts)

def arguments : Nat → Arguments → List Token → Option (Arguments × List Token)
  | 0, _, _ => none
  | _ + 1, seen, .mark ")" :: ts => some (seen, ts)
  | fuel + 1, seen, .mark "*" :: ts => do
    let (f, ts) ← formula fuel ts
    if seen.unpacked then none else argumentsNext fuel { seen with args := seen.args ++ [.starred f] } ts
  | fuel + 1, seen, .mark "**" :: ts => do
    let (_, ts) ← formula fuel ts
    argumentsNext fuel { seen with unpacked := true } ts
  | fuel + 1, seen, .name id :: .mark "=" :: ts => do
    let (value, ts) ← formula fuel ts
    argumentsNext fuel { seen with named := seen.named ++ [(id, value)] } ts
  | fuel + 1, seen, ts => do
    let (f, _, ts) ← named fuel ts
    match ts with
    | .keyword "for" :: _ | .keyword "async" :: _ => do
      -- comprehensions without brackets are the only argument
      let (clauses, ts) ← clauses fuel ts
      let ts ← expect ")" ts
      if seen.args.isEmpty && seen.named.isEmpty && !seen.unpacked then
        return ({ seen with args := [.generator f clauses] }, ts)
      else none
    | _ =>
      if seen.named.isEmpty && !seen.unpacked then
        argumentsNext fuel { seen with args := seen.args ++ [f] } ts
      else none

def argumentsNext : Nat → Arguments → List Token → Option (Arguments × List Token)
  | 0, _, _ => none
  | fuel + 1, seen, .mark "," :: ts => arguments fuel seen ts
  | _ + 1, seen, .mark ")" :: ts => some (seen, ts)
  | _ + 1, _, _ => none

def subscript : Nat → Term → List Token → Option (Term × List Token)
  | 0, _, _ => none
  | fuel + 1, f, ts => do
    let (first, sliced, isStarred, ts) ← index fuel f ts
    match ts with
    | .mark "]" :: ts =>
      if sliced then return (first, ts)
      else return (.item f (if isStarred then .tuple [first] else first), ts)
    | .mark "," :: ts => do
      let (rest, ts) ← indices fuel f ts
      return (.item f (.tuple ((if sliced then .unsupported "Slice" else first) :: rest)), ts)
    | _ => none

def indices : Nat → Term → List Token → Option ((List Term) × List Token)
  | 0, _, _ => none
  | _ + 1, _, .mark "]" :: ts => some ([], ts)
  | fuel + 1, f, ts => do
    let (first, sliced, _, ts) ← index fuel f ts
    let first := if sliced then .unsupported "Slice" else first
    match ts with
    | .mark "]" :: ts => return ([first], ts)
    | .mark "," :: ts => do
      let (rest, ts) ← indices fuel f ts
      return (first :: rest, ts)
    | _ => none

/-- One item, or the slice of a formula. Says which it is, and whether its items are taken. -/
def index : Nat → Term → List Token → Option (Term × Bool × Bool × List Token)
  | 0, _, _ => none
  | fuel + 1, f, .mark ":" :: ts => do
    let (g, ts) ← sliceEnd fuel f none ts
    return (g, true, false, ts)
  | fuel + 1, f, ts => do
    let (first, form, ts) ← starNamed fuel ts
    match ts with
    | .mark ":" :: ts => do
      if form ≠ .plain then none
      let (g, ts) ← sliceEnd fuel f (some first) ts
      return (g, true, false, ts)
    | _ => return (first, false, form = .starred, ts)

def sliceEnd : Nat → Term → Option Term → List Token → Option (Term × List Token)
  | 0, _, _, _ => none
  | fuel + 1, f, start, ts => do
    let (stop, ts) ← bound fuel ts
    match ts with
    | .mark ":" :: ts => do
      let (step, ts) ← bound fuel ts
      return (.slice f start stop step, ts)
    | _ => return (.slice f start stop none, ts)

def bound : Nat → List Token → Option ((Option Term) × List Token)
  | 0, _ => none
  | _ + 1, .mark ":" :: ts => some (none, .mark ":" :: ts)
  | _ + 1, .mark "," :: ts => some (none, .mark "," :: ts)
  | _ + 1, .mark "]" :: ts => some (none, .mark "]" :: ts)
  | fuel + 1, ts => (formula fuel ts).map fun (f, ts) => (some f, ts)

def named : Nat → List Token → Option (Term × Form × List Token)
  | 0, _ => none
  | fuel + 1, .name _ :: .mark ":=" :: ts => do
    let (_, ts) ← formula fuel ts
    return (.unsupported "NamedExpr", .named, ts)
  | fuel + 1, ts => (formula fuel ts).map fun (f, ts) => (f, .plain, ts)

def starNamed : Nat → List Token → Option (Term × Form × List Token)
  | 0, _ => none
  | fuel + 1, .mark "*" :: ts => (operand fuel levels ts).map fun (f, ts) => (.starred f, .starred, ts)
  | fuel + 1, ts => named fuel ts

def parts : Nat → String → List Token → Option ((List Term) × List Token)
  | 0, _, _ => none
  | fuel + 1, closer, ts =>
    match expect closer ts with
    | some ts => some ([], ts)
    | none => do
      let (first, _, ts) ← starNamed fuel ts
      match expect closer ts with
      | some ts => return ([first], ts)
      | none => do
        let ts ← expect "," ts
        let (rest, ts) ← parts fuel closer ts
        return (first :: rest, ts)

/-- Formulas that are yielded, up to the bracket that closes them. None of them gives a name its value. -/
def yielded : Nat → List Token → Option (List Token)
  | 0, _ => none
  | _ + 1, .mark ")" :: ts => some ts
  | fuel + 1, ts => do
    let (_, form, ts) ← starNamed fuel ts
    if form = .named then none
    match ts with
    | .mark ")" :: ts => some ts
    | .mark "," :: ts => yielded fuel ts
    | _ => none

def bare : Nat → List Token → Option ((List Term × Bool) × List Token)
  | 0, _ => none
  | fuel + 1, ts => do
    let (first, ts) ← formula fuel ts
    match ts with
    | [.mark ","] => return (([first], true), [])
    | .mark "," :: ts => do
      let ((rest, _), ts) ← bare fuel ts
      return ((first :: rest, true), ts)
    | _ => return (([first], false), ts)

/-- What stands between round brackets: nothing, a formula, a comprehension, or the parts of a tuple. -/
def group : Nat → List Token → Option (Term × List Token)
  | 0, _ => none
  | _ + 1, .mark ")" :: ts => some (.tuple [], ts)
  | fuel + 1, .keyword "yield" :: .keyword "from" :: ts => do
    let (_, ts) ← formula fuel ts
    let ts ← expect ")" ts
    return (.unsupported "YieldFrom", ts)
  | fuel + 1, .keyword "yield" :: ts => do
    let ts ← yielded fuel ts
    return (.unsupported "Yield", ts)
  | fuel + 1, ts => do
    let (first, form, ts) ← starNamed fuel ts
    match ts with
    | .mark ")" :: ts => if form = .starred then none else return (first, ts)
    | .mark "," :: ts => do
      let (rest, ts) ← parts fuel ")" ts
      return (.tuple (first :: rest), ts)
    | _ => do
      let (clauses, ts) ← clauses fuel ts
      let ts ← expect ")" ts
      if form = .starred then none else return (.generator first clauses, ts)

def square : Nat → List Token → Option (Term × List Token)
  | 0, _ => none
  | _ + 1, .mark "]" :: ts => some (.list [], ts)
  | fuel + 1, ts => do
    let (first, form, ts) ← starNamed fuel ts
    match ts with
    | .mark "]" :: ts => return (.list [first], ts)
    | .mark "," :: ts => do
      let (rest, ts) ← parts fuel "]" ts
      return (.list (first :: rest), ts)
    | _ => do
      let (clauses, ts) ← clauses fuel ts
      let ts ← expect "]" ts
      if form = .starred then none else return (.listOf first clauses, ts)

def braces : Nat → List Token → Option (Term × List Token)
  | 0, _ => none
  | _ + 1, .mark "\x7d" :: ts => some (.dict [], ts)
  | fuel + 1, .mark "**" :: ts => do
    let (_, ts) ← operand fuel levels ts
    let (_, ts) ← entriesNext fuel ts
    return (.unpacking, ts)
  | fuel + 1, ts => do
    let (first, form, ts) ← starNamed fuel ts
    match ts with
    | .mark ":" :: ts => do
      if form ≠ .plain then none
      let (value, ts) ← formula fuel ts
      match ts with
      | .keyword "for" :: _ | .keyword "async" :: _ => do
        let (clauses, ts) ← clauses fuel ts
        let ts ← expect "\x7d" ts
        return (.dictOf first value clauses, ts)
      | _ => do
        let (rest, ts) ← entriesNext fuel ts
        match rest with
        | some rest => return (.dict ((first, value) :: rest), ts)
        | none => return (.unpacking, ts)
    | .mark "\x7d" :: ts => return (.set [first], ts)
    | .mark "," :: ts => do
      let (rest, ts) ← parts fuel "\x7d" ts
      return (.set (first :: rest), ts)
    | _ => do
      let (clauses, ts) ← clauses fuel ts
      let ts ← expect "\x7d" ts
      if form = .starred then none else return (.setOf first clauses, ts)

/-- Further entries of a mapping, up to the brace that closes it. Gives no entries if another mapping is taken in. -/
def entries : Nat → List Token → Option ((Option (List (Term × Term))) × List Token)
  | 0, _ => none
  | _ + 1, .mark "\x7d" :: ts => some (some [], ts)
  | fuel + 1, .mark "**" :: ts => do
    let (_, ts) ← operand fuel levels ts
    let (_, ts) ← entriesNext fuel ts
    return (none, ts)
  | fuel + 1, ts => do
    let (key, ts) ← formula fuel ts
    let ts ← expect ":" ts
    let (value, ts) ← formula fuel ts
    let (rest, ts) ← entriesNext fuel ts
    return (rest.map ((key, value) :: ·), ts)

def entriesNext : Nat → List Token → Option ((Option (List (Term × Term))) × List Token)
  | 0, _ => none
  | fuel + 1, .mark "," :: ts => entries fuel ts
  | _ + 1, .mark "\x7d" :: ts => some (some [], ts)
  | _ + 1, _ => none

def clauses : Nat → List Token → Option ((List (Clause Term)) × List Token)
  | 0, _ => none
  | fuel + 1, ts => do
    let ts ←
      match ts with
      | .keyword "for" :: ts => some ts
      | .keyword "async" :: .keyword "for" :: ts => some ts
      | _ => none
    let (target, ts) ← targets fuel ts
    let (source, ts) ← disjunction fuel ts
    let (conditions, ts) ← conditions fuel ts
    let clause : Clause Term := ⟨target, source, conditions⟩
    match ts with
    | .keyword "for" :: _ | .keyword "async" :: _ => do
      let (rest, ts) ← clauses fuel ts
      return (clause :: rest, ts)
    | _ => return ([clause], ts)

def conditions : Nat → List Token → Option ((List Term) × List Token)
  | 0, _ => none
  | fuel + 1, .keyword "if" :: ts => do
    let (condition, ts) ← disjunction fuel ts
    let (rest, ts) ← conditions fuel ts
    return (condition :: rest, ts)
  | _ + 1, ts => some ([], ts)

def targets : Nat → List Token → Option (Term × List Token)
  | 0, _ => none
  | fuel + 1, ts => do
    let (first, ts) ← target fuel ts
    match ts with
    | .keyword "in" :: ts => return (first, ts)
    | .mark "," :: ts => do
      let (rest, ts) ← moreTargets fuel ts
      return (.tuple (first :: rest), ts)
    | _ => none

def moreTargets : Nat → List Token → Option ((List Term) × List Token)
  | 0, _ => none
  | _ + 1, .keyword "in" :: ts => some ([], ts)
  | fuel + 1, ts => do
    let (first, ts) ← target fuel ts
    match ts with
    | .keyword "in" :: ts => return ([first], ts)
    | .mark "," :: ts => do
      let (rest, ts) ← moreTargets fuel ts
      return (first :: rest, ts)
    | _ => none

def target : Nat → List Token → Option (Term × List Token)
  | 0, _ => none
  | fuel + 1, .mark "*" :: ts => do
    let (f, ts) ← primary fuel ts
    if f.isTarget then return (.starred f, ts) else none
  | fuel + 1, ts => do
    let (f, ts) ← primary fuel ts
    if f.isTarget then return (f, ts) else none

def atom : Nat → List Token → Option (Term × List Token)
  | 0, _ => none
  | _ + 1, .keyword "True" :: ts => some (.literal (.bool true) ts.length, ts)
  | _ + 1, .keyword "False" :: ts => some (.literal (.bool false) ts.length, ts)
  | _ + 1, .keyword "None" :: ts => some (.literal .none ts.length, ts)
  | _ + 1, .name id :: ts => some (.name id, ts)
  | _ + 1, .number value :: ts => some (.literal value ts.length, ts)
  | _ + 1, .mark "..." :: ts => some (.literal .ellipsis ts.length, ts)
  | fuel + 1, .mark "(" :: ts => group fuel ts
  | fuel + 1, .mark "[" :: ts => square fuel ts
  | fuel + 1, .mark "\x7b" :: ts => braces fuel ts
  | fuel + 1, .quoted how body :: ts =>
    let (more, ts) := spanTexts ts
    let texts := (how, body) :: more
    if texts.any (·.1.formatted) then
      if texts.all fun (how, body) => !how.bytes && areSlots fuel (how.formulas? body) then
        some (.unsupported "JoinedStr", ts)
      else none
    else (joined? texts).map fun value => (.literal value ts.length, ts)
  | _ + 1, _ => none

def areSlots : Nat → Option (List (List Char)) → Bool
  | 0, _ => false
  | _ + 1, none => false
  | fuel + 1, some formulas => formulas.all (isSlot fuel)

def isSlot : Nat → List Char → Bool
  | 0, _ => false
  | fuel + 1, cs =>
    match tokens? ('(' :: cs ++ [')']) with
    | some (.mark "(" :: .mark ")" :: _) => false
    | some (.mark "(" :: ts) =>
      match group fuel ts with
      | some (_, []) => true
      | _ => false
    | _ => false

end

def Term.ofText? (text : String) : Option Term := do
  let cs := text.toList
  let ts ← tokens? cs
  let ((fs, isTuple), rest) ← bare (40 * (cs.length + 2)) ts
  match fs, isTuple, rest with
  | [f], false, [] => some f
  | fs, true, [] => some (.tuple fs)
  | _, _, _ => none

end AlLint.Formula
