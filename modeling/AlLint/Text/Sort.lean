/-!
# Sorted texts

Texts are sorted by their characters, character by character.
-/

namespace AlLint.Text

def sorted (texts : List String) : List String := texts.mergeSort fun a b => decide (a ≤ b)

end AlLint.Text
