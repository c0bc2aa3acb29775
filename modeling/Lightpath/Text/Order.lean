/-!
# Texts in order

Texts are ordered by the code points of their characters.
-/

namespace Lightpath.Text

/-- The texts in ascending order. -/
def sorted (texts : List String) : List String :=
  texts.mergeSort fun a b => decide (a ≤ b)

/-- The texts in ascending order, each of them once. -/
def sortedOnce (texts : List String) : List String :=
  sorted texts.eraseDups

theorem mem_sorted {texts : List String} {s : String} : s ∈ sorted texts ↔ s ∈ texts := by
  simp [sorted]

end Lightpath.Text
