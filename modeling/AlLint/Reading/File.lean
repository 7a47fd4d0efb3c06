import AlLint.Reading.Grammar

/-!
# Reading a file

Reading a text never fails for what is written in it: damaged parts become issues. Only a number with too
many digits is refused.
-/

namespace AlLint

def Scan.open (scan : Scan) (text : String) : Reading.Input × Reading.Cursor :=
  (⟨text, scan.eof⟩, ⟨scan.tokens.headD scan.eof, scan.tokens, scan.issues⟩)

def SyntaxTree.ofText (text : String) : Except Oversized SyntaxTree :=
  let scan := Scan.ofText text
  let (inp, c) := scan.open text
  (Reading.objects inp c).map fun found => ⟨found.1, scan.comments, found.2⟩

end AlLint
