/-!
# Finding words without regard to case

Patterns are written in lower case ASCII. A letter of a pattern stands for its upper case form too, and for the
few letters outside of ASCII that are other forms of it.
-/

namespace AlLint.Text

/-- The lower case ASCII letter that a character is a form of; other characters are left alone. -/
def asciiFold (c : Char) : Char :=
  if c = 'ſ' then 's'
  else if c = 'K' then 'k'
  else if c = 'İ' || c = 'ı' then 'i'
  else c.toLower

def dropFolded? : List Char → List Char → Option (List Char)
  | [], cs => some cs
  | _ :: _, [] => none
  | p :: ps, c :: cs => if asciiFold c = p then dropFolded? ps cs else none

theorem length_dropFolded? {ps cs rest : List Char} (h : dropFolded? ps cs = some rest) :
    cs.length = ps.length + rest.length := by
  fun_induction dropFolded? ps cs <;> simp_all
  omega

/-- The characters before the first place where a pattern starts, and those after the pattern. -/
def splitFolded? (ps : List Char) : List Char → Option (List Char × List Char)
  | [] => (dropFolded? ps []).map ([], ·)
  | c :: cs =>
    match dropFolded? ps (c :: cs) with
    | some rest => some ([], rest)
    | none => (splitFolded? ps cs).map fun parts => (c :: parts.1, parts.2)

/-- The characters between the first opening mark that is closed and the first closing mark after it. -/
def between? (opening closing : String) (cs : List Char) : Option (List Char) := do
  let (_, rest) ← splitFolded? opening.toList cs
  let (inner, _) ← splitFolded? closing.toList rest
  return inner

end AlLint.Text
