import AlLint.Source.Span
import AlLint.Text.Blank
import AlLint.Text.Search

/-!
# Documentation

The documentation of a procedure or field: the text of the comments right before it, and what its tags say.
Tags may be written in any letter case.
-/

namespace AlLint

structure Doc where
  text : String
  span : Span
  summary : Option String
  params : List String
  returns : Option String

namespace Doc

def isQuote (c : Char) : Bool := c == '"' || c == '\''

def skipBlanks (cs : List Char) : List Char := cs.dropWhile Text.isBlank

theorem length_skipBlanks_le (cs : List Char) : (skipBlanks cs).length ≤ cs.length :=
  (List.dropWhile_suffix _).length_le

/-- The name in the tag of a parameter at the start of some characters, and what follows the name. -/
def param? (cs : List Char) : Option (List Char × List Char) :=
  match Text.dropFolded? "<param".toList cs with
  | some (c :: rest) =>
    if !Text.isBlank c then none
    else
      match Text.dropFolded? "name".toList (skipBlanks rest) with
      | none => none
      | some rest =>
        match skipBlanks rest with
        | '=' :: rest =>
          match skipBlanks rest with
          | q :: rest =>
            match isQuote q, rest.dropWhile (!isQuote ·) with
            | true, _ :: after => some (rest.takeWhile (!isQuote ·), after)
            | _, _ => none
          | [] => none
        | _ => none
  | _ => none

theorem length_param?_lt {cs name after : List Char} (h : param? cs = some (name, after)) :
    after.length < cs.length := by
  unfold param? at h
  split at h <;> try contradiction
  rename_i c rest h₁
  split at h <;> try contradiction
  split at h <;> try contradiction
  rename_i rest₂ h₂
  split at h <;> try contradiction
  rename_i rest₃ h₃
  split at h <;> try contradiction
  rename_i q rest₄ h₄
  split at h <;> try contradiction
  rename_i c₅ after₅ _ h₅
  cases h
  have := Text.length_dropFolded? h₁
  have := Text.length_dropFolded? h₂
  have := length_skipBlanks_le rest
  have := length_skipBlanks_le rest₂
  have := length_skipBlanks_le rest₃
  have := (List.dropWhile_suffix (fun x => !isQuote x) (l := rest₄)).length_le
  simp only [h₃, h₄, h₅, List.length_cons] at *
  omega

def paramNames : List Char → List String
  | [] => []
  | c :: cs =>
    match _h : param? (c :: cs) with
    | some (name, after) => String.ofList name :: paramNames after
    | none => paramNames cs
termination_by cs => cs.length
decreasing_by
  · exact length_param?_lt _h
  · simp

/-- The text of a documentation comment: without the mark that starts it, and without blanks around it. -/
def line (c : Comment) : String := Text.strip (String.ofList (c.text.toList.drop 3))

def tagText? (opening closing : String) (text : String) : Option String :=
  (Text.between? opening closing text.toList).map fun cs => Text.strip (String.ofList cs)

def ofComments? : List Comment → Option Doc
  | [] => none
  | first :: rest =>
    let text := "\n".intercalate ((first :: rest).map line)
    some
      { text
        span := Span.covering first.span (rest.getLastD first).span
        summary := tagText? "<summary>" "</summary>" text
        params := paramNames text.toList
        returns := tagText? "<returns>" "</returns>" text }

end Doc

end AlLint
