/-!
# The order of texts

Texts are ordered by their code points, which is also the order of their UTF-8 bytes.
-/

namespace BicepForge.Text

def later (a b : String) : String :=
  if a ≤ b then b else a

/-- The last text of a list in the order of texts. -/
def latest? : List String → Option String
  | [] => none
  | s :: rest => some (rest.foldl later s)

/-- The texts in order. -/
def sorted (texts : List String) : List String :=
  texts.mergeSort (fun a b => decide (a ≤ b))

end BicepForge.Text
