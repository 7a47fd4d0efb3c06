import AlLint.Formula.Shelf

/-!
# Values that formulas are given

The values of documents, as formulas see them under names; a date is seen as its text. Each part of a document
is a value of its own, apart from the keys of mappings: of equal keys there is one.
-/

namespace AlLint.Formula

namespace Value

mutual

def ofDocument : Document → Mark → Value
  | .null, _ => none
  | .bool b, _ => bool b
  | .int i, m => ofInt i m
  | .float f, m => float f m
  | .text s, m => ofText s m
  | .moment d, m => ofText d.shown m
  | .bytes bs, m => ofBytes bs m
  | .list items, m => list (ofDocuments items m 0) m
  | .tuple items, m => tuple (ofDocuments items m 0) m
  | .set items, m => setOf (ofDocuments items m 0) 0 m
  | .map entries, m => dict (ofEntries entries m) m

def ofDocuments : List Document → Mark → Nat → List Value
  | [], _, _ => []
  | d :: rest, m, place => ofDocument d (.inside m place) :: ofDocuments rest m (place + 1)

def ofEntries : List (Document × Document) → Mark → List (Value × Value)
  | [], _ => []
  | (k, d) :: rest, m => (ofDocument k (.key k.quoted), ofDocument d (.named m k.quoted)) :: ofEntries rest m

end

end Value

def Environment.given (entries : List (String × Document)) : Environment :=
  entries.map fun (name, d) => (name, .ofDocument d (.given name))

end AlLint.Formula
