import Lightpath.Text.Blank

/-!
# Elements

A document as a tree of elements. Of the text of an element only what stands before its first child is
kept, because nothing reads the rest. Elements are found by the local part of their name, whatever
namespace it is in.
-/

namespace Lightpath.Xml

/-! ## The tree -/

/-- A name with the namespace that its prefix stands for. -/
structure Name where
  space : Option String
  localPart : String
  deriving DecidableEq, Repr

/-- An element: its name, its attributes, the text before its first child, and its children. -/
structure Element where
  name : Name
  attributes : List (Name × String)
  text : String
  children : List Element
  deriving Repr

namespace Element

/-- Whether the local part of the name is the given one. -/
def isNamed (e : Element) (n : String) : Bool :=
  e.name.localPart == n

/-- The text without the white space around it; an element without any text has none. -/
def content? (e : Element) : Option String :=
  if e.text = "" then none else some (Text.trimmed e.text)

/-! ## Finding -/

/-- The children of a name. -/
def childrenNamed (e : Element) (n : String) : List Element :=
  e.children.filter (·.isNamed n)

/-- The text of the first child of a name. -/
def childText? (e : Element) (n : String) : Option String :=
  (e.childrenNamed n).head?.bind content?

mutual

/-- The element and all elements inside it, in the order of their start tags. -/
def inOrder : Element → List Element
  | ⟨name, attributes, text, children⟩ =>
    ⟨name, attributes, text, children⟩ :: inOrderAll children

/-- All elements of a list of trees, in the order of their start tags. -/
def inOrderAll : List Element → List Element
  | [] => []
  | e :: es => inOrder e ++ inOrderAll es

end

theorem inOrderAll_eq_flatMap (es : List Element) : inOrderAll es = es.flatMap inOrder := by
  induction es with
  | nil => rfl
  | cons e es ih => simp [inOrderAll, ih]

/-- The elements of a name anywhere in the tree. -/
def allNamed (e : Element) (n : String) : List Element :=
  e.inOrder.filter (·.isNamed n)

/-- The elements that are reached from some elements by going down along names. -/
def reach (es : List Element) : List String → List Element
  | [] => es
  | n :: path => reach (es.flatMap (·.childrenNamed n)) path

/-- The text of the first element that is reached by going down along names. -/
def textAt? (e : Element) (path : List String) : Option String :=
  (reach [e] path).head?.bind content?

@[simp] theorem reach_nil (path : List String) : reach [] path = [] := by
  induction path with
  | nil => rfl
  | cons n path ih => simp [reach, ih]

theorem reach_append (es fs : List Element) (path : List String) :
    reach (es ++ fs) path = reach es path ++ reach fs path := by
  induction path generalizing es fs with
  | nil => rfl
  | cons n path ih => simp [reach, ih]

end Element

end Lightpath.Xml
