import AlLint.Text.Digit

/-!
# Arguments

The arguments of a command are options with their values, and operands. An option may be shortened as long as it
stays the only one that starts so, and may have its value behind an equals sign. After two dashes alone
everything is an operand. The operands of a command stand together: ones in a second place are left over.
-/

namespace AlLint.Command

/-- Why there is nothing to do: the arguments are wrong, or they ask for help. -/
inductive Stop where
  | usage
  | help
deriving DecidableEq, Repr

def Stop.status : Stop → Nat
  | .usage => 2
  | .help => 0

inductive Arity where
  | help
  | one
  | many
deriving DecidableEq, Repr

structure Choice where
  name : String
  arity : Arity
deriving DecidableEq, Repr

inductive Word where
  | text (t : String)
  | divider
deriving DecidableEq, Repr

/-- An option as it is given, with a value that is attached to it, or an argument that only looks like one. -/
inductive Flag where
  | known (c : Choice) (attached : Option String)
  | unknown (text : String)
deriving DecidableEq, Repr

inductive Argument where
  | word (w : Word)
  | flag (f : Flag)
deriving DecidableEq, Repr

namespace Argument

def helpChoices : List Choice := [⟨"-h", .help⟩, ⟨"--help", .help⟩]

def cutAtEquals? (cs : List Char) : Option (List Char × List Char) :=
  match cs.dropWhile (· ≠ '=') with
  | [] => none
  | _ :: rest => some (cs.takeWhile (· ≠ '='), rest)

def named? (choices : List Choice) (cs : List Char) : Option Choice := choices.find? fun c => c.name.toList == cs

def startingWith (choices : List Choice) (cs : List Char) : List Choice :=
  choices.filter fun c => cs.isPrefixOf c.name.toList

/-- The options that an argument may be short for, each with what is attached to it. -/
def candidates (choices : List Choice) : List Char → List Flag
  | '-' :: '-' :: rest =>
    let cs := '-' :: '-' :: rest
    match cutAtEquals? cs with
    | some (name, value) => (startingWith choices name).map fun c => .known c (some (String.ofList value))
    | none => (startingWith choices cs).map fun c => .known c none
  | '-' :: letter :: rest =>
    choices.filterMap fun c =>
      if c.name.toList == ['-', letter] then some (.known c (some (String.ofList rest)))
      else if ('-' :: letter :: rest).isPrefixOf c.name.toList then some (.known c none)
      else none
  | _ => []

/-- Whether some characters are a negative number, which is no option. A line end may follow. -/
def isNegativeNumber : List Char → Bool
  | '-' :: rest =>
    let rest := if rest.getLast? = some '\n' then rest.dropLast else rest
    match rest.dropWhile Text.isDecimal with
    | [] => !rest.isEmpty
    | '.' :: fraction => !fraction.isEmpty && fraction.all Text.isDecimal
    | _ => false
  | _ => false

def isLong (cs : List Char) : Bool := ['-', '-'].isPrefixOf cs

/-- The option that an argument is exactly, the value that it has behind an equals sign apart. -/
def whole? (choices : List Choice) (cs : List Char) : Option Flag :=
  match named? choices cs with
  | some c => some (.known c none)
  | none => do
    let (name, value) ← cutAtEquals? cs
    let c ← named? choices name
    some (.known c (some (String.ofList value)))

/-- What an argument is. None if it is short for more than one option. -/
def ofText? (choices : List Choice) (text : String) : Option Argument :=
  let cs := text.toList
  if cs.head? ≠ some '-' || cs = ['-'] then some (.word (.text text))
  else
    match whole? choices cs with
    | some f => some (.flag f)
    | none =>
      match candidates choices cs with
      | [f] => some (.flag f)
      | _ :: _ :: _ => none
      | [] =>
        if isNegativeNumber cs || cs.contains ' ' then some (.word (.text text)) else some (.flag (.unknown text))

def ofTexts? (choices : List Choice) : List String → Option (List Argument)
  | [] => some []
  | text :: rest =>
    if text = "--" then some (.word .divider :: rest.map fun t => .word (.text t))
    else do
      let a ← ofText? choices text
      let more ← ofTexts? choices rest
      some (a :: more)

/-- Splits arguments into the words before the first option, and each option with the words after it. -/
def groups : List Argument → List Word × List (Flag × List Word)
  | [] => ([], [])
  | .word w :: rest =>
    let (words, more) := groups rest
    (w :: words, more)
  | .flag f :: rest =>
    let (words, more) := groups rest
    ([], (f, words) :: more)

end Argument

def Word.texts : List Word → List String
  | .text t :: rest => t :: texts rest
  | _ => []

def Word.operands (words : List Word) : List String :=
  words.filterMap fun
    | .text t => some t
    | .divider => none

structure Given where
  values : List (String × List String) := []
  operands : List String := []
  leftOver : Bool := false

namespace Given

def get? (g : Given) (name : String) : Option (List String) := g.values.reverse.lookup name

def one? (g : Given) (name : String) : Option String := (g.get? name).bind List.head?

/-- Takes words as operands if there are none yet and the command has some; otherwise they are left over. -/
def addWords (takesOperands : Bool) (g : Given) (words : List Word) : Given :=
  if words.isEmpty then g
  else if takesOperands && g.operands.isEmpty && !(Word.operands words).isEmpty then
    { g with operands := Word.operands words }
  else { g with leftOver := true }

/-- What an option that asks for help does. It takes no value, so only its own letter may follow the short one
in an argument. -/
def askHelp (name : String) (attached : Option String) : Stop :=
  match attached with
  | none => .help
  | some value => if !Argument.isLong name.toList && value ≠ "" && value.toList.all (· == 'h') then .help else .usage

def addValues (accepts : String → String → Bool) (g : Given) (name : String) (values : List String) :
    Except Stop Given :=
  if !values.isEmpty && values.all (accepts name) then .ok { g with values := g.values ++ [(name, values)] }
  else .error .usage

def addFlag (accepts : String → String → Bool) (takesOperands : Bool) (g : Given) :
    Flag × List Word → Except Stop Given
  | (.unknown _, words) => .ok ({ g with leftOver := true }.addWords takesOperands words)
  | (.known c attached, words) =>
    let own :=
      match attached with
      | some value => [value]
      | none => if c.arity = .one then (Word.texts words).take 1 else Word.texts words
    let taken := if attached.isSome then 0 else own.length
    match c.arity with
    | .help => .error (askHelp c.name attached)
    | .one | .many => do
      let g ← addValues accepts g c.name own
      .ok (g.addWords takesOperands (words.drop taken))

def ofArguments (choices : List Choice) (accepts : String → String → Bool) (takesOperands : Bool)
    (args : List String) : Except Stop Given :=
  match Argument.ofTexts? choices args with
  | none => .error .usage
  | some parsed => do
    let (words, options) := Argument.groups parsed
    let g ← options.foldlM (addFlag accepts takesOperands) (({} : Given).addWords takesOperands words)
    if g.leftOver || (takesOperands && g.operands.isEmpty) then .error .usage else .ok g

end Given

end AlLint.Command
