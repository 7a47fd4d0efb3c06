import AlLint.Source.Span
import AlLint.Text.Quoted

/-!
# Issues

Everything that can be wrong with a source text and does not stop the reading of it: what the scanner, the
reader of objects and the builder of declarations complain about, and how each complaint is worded.
-/

namespace AlLint

/-- What was found where something else was expected: a token's text, or nothing at the end. -/
abbrev Found := Option String

def Found.describe : Found → String
  | none => "end of file"
  | some text => s!"'{text}'"

inductive Complaint where
  -- characters
  | unexpectedCharacter (c : Char)
  | openComment
  | openQuotedName
  | openString
  -- objects and their members
  | expectedObject (found : Found)
  | unexpectedInHeader (keyword : String) (found : Found)
  | missingBrace (keyword : String)
  | unexpectedMember (keyword : String) (found : Found)
  | openAttribute
  | emptyProperty (name : String)
  | unterminatedProperty (name : String)
  | openArguments (keyword : String)
  -- variables and code
  | expected (text : String) (context : String) (found : Found)
  | expectedName (context : String) (found : Found)
  | expectedVariableType (name : String)
  | unterminatedVariable (name : String)
  | expectedReturnType (name : String)
  | openParameters
  | expectedParameterType (name : String)
  -- statements and expressions
  | missingEnd (opener : String) (line : Nat)
  | unterminatedStatement (found : Found)
  | unexpectedWord (found : Found)
  | notAStatement
  | unterminatedBranch (found : Found)
  | expectedExpression (found : Found)
  -- elements without a meaning
  | incompleteField
  | namelessModification
  | namelessKey
  | emptyKey (name : String)
  | incompleteEnumValue
  | namelessPageField
  | namelessAction
  | misplacedProcedure (owner : String)
deriving DecidableEq, Repr

def Complaint.message : Complaint → String
  | .unexpectedCharacter c => s!"unexpected character {Text.quoted (String.singleton c)}"
  | .openComment => "unterminated block comment"
  | .openQuotedName => "unterminated quoted identifier"
  | .openString => "unterminated string literal"
  | .expectedObject found => s!"expected an object declaration, found {found.describe}"
  | .unexpectedInHeader keyword found => s!"unexpected {found.describe} in {keyword} header"
  | .missingBrace keyword => s!"missing '\x7d' to close {keyword}"
  | .unexpectedMember keyword found => s!"unexpected {found.describe} in {keyword}"
  | .openAttribute => "unterminated attribute"
  | .emptyProperty name => s!"property '{name}' has no value"
  | .unterminatedProperty name => s!"expected ';' after property '{name}'"
  | .openArguments keyword => s!"missing ')' in {keyword}(...)"
  | .expected text context found => s!"expected '{text}' {context}, found {found.describe}"
  | .expectedName context found => s!"expected a name {context}, found {found.describe}"
  | .expectedVariableType name => s!"expected a type for variable '{name}'"
  | .unterminatedVariable name => s!"expected ';' after declaration of '{name}'"
  | .expectedReturnType name => s!"expected a return type for '{name}'"
  | .openParameters => "missing ')' after parameter list"
  | .expectedParameterType name => s!"expected a type for parameter '{name}'"
  | .missingEnd opener line => s!"missing 'end' for '{opener}' on line {line}"
  | .unterminatedStatement found => s!"expected ';' after statement, found {found.describe}"
  | .unexpectedWord found => s!"unexpected {found.describe}"
  | .notAStatement => "expression cannot be used as a statement"
  | .unterminatedBranch found => s!"expected ';' after case branch, found {found.describe}"
  | .expectedExpression found => s!"expected an expression, found {found.describe}"
  | .incompleteField => "field declaration needs an id, a name and a type"
  | .namelessModification => "modify() needs the name of the field it changes"
  | .namelessKey => "key declaration has no name"
  | .emptyKey name => s!"key '{name}' declares no fields"
  | .incompleteEnumValue => "enum value needs an ordinal and a name"
  | .namelessPageField => "page field has no name"
  | .namelessAction => "action has no name"
  | .misplacedProcedure owner => s!"procedures are not allowed inside '{owner}'"

structure Issue where
  complaint : Complaint
  span : Span
deriving DecidableEq, Repr

def Issue.message (issue : Issue) : String := issue.complaint.message

end AlLint
