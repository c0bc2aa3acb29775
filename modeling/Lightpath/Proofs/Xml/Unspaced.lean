import Lightpath.Proofs.Xml.PlainNames
import Mathlib.Data.List.TakeWhile

/-!
# Documents without their namespaces

Elements are found by the local part of their names. So nothing that is looked for in a document depends on
the namespaces in it, and they can be taken out of it before. A name may also be written as one text, with
its namespace in braces in front; whatever the namespace is, the local part stands behind the last closing
brace of this text.
-/

namespace Lightpath.Xml

/-! ## Written names -/

namespace Name

/-- A name as one text: its namespace, if it has one, stands in braces in front of the local part. -/
def written (n : Name) : String :=
  match n.space with
  | none => n.localPart
  | some uri => "\x7b" ++ uri ++ "\x7d" ++ n.localPart

/-- The name in no namespace. -/
def unspaced (n : Name) : Name :=
  { n with space := none }

end Name

/-- What stands behind the last closing brace of a text; all of it if there is none. -/
def behindBrace (s : String) : String :=
  String.ofList (s.toList.reverse.takeWhile (· ≠ '}')).reverse

/-- **The local part stands behind the last closing brace**, also if there are braces in the namespace. -/
theorem behindBrace_written {n : Name} (h : '}' ∉ n.localPart.toList) :
    behindBrace n.written = n.localPart := by
  have hall : ∀ c ∈ n.localPart.toList.reverse, decide (c ≠ '}') = true := by
    intro c hc
    refine decide_eq_true ?_
    rintro rfl
    exact h (List.mem_reverse.mp hc)
  rw [behindBrace, Name.written]
  cases n.space with
  | none =>
    simp only
    rw [List.takeWhile_eq_self_iff.mpr hall, List.reverse_reverse, String.ofList_toList]
  | some uri =>
    have hbrace : ("\x7d" : String).toList = ['}'] := rfl
    simp only [String.toList_append, List.reverse_append, hbrace, List.reverse_singleton,
      List.singleton_append]
    rw [List.takeWhile_append_of_pos hall, List.takeWhile_cons_of_neg (by simp), List.append_nil,
      List.reverse_reverse, String.ofList_toList]

/-! ## Trees -/

namespace Element

mutual

/-- Whether two trees are equal. The recursion is through the lists of children, so the instance cannot be
derived. -/
def decideEq : (a b : Element) → Decidable (a = b)
  | ⟨name, attributes, text, children⟩, ⟨name', attributes', text', children'⟩ =>
    have := decideEqAll children children'
    decidable_of_iff (name = name' ∧ attributes = attributes' ∧ text = text' ∧ children = children')
      (by rw [Element.mk.injEq])

/-- The same for lists of trees. -/
def decideEqAll : (es fs : List Element) → Decidable (es = fs)
  | [], [] => .isTrue rfl
  | [], f :: fs => .isFalse (List.cons_ne_nil f fs).symm
  | e :: es, [] => .isFalse (List.cons_ne_nil e es)
  | e :: es, f :: fs =>
    have := decideEq e f
    have := decideEqAll es fs
    decidable_of_iff (e = f ∧ es = fs) (by rw [List.cons.injEq])

end

instance : DecidableEq Element :=
  decideEq

mutual

/-- The element with all its names in no namespace. -/
def unspaced : Element → Element
  | ⟨name, attributes, text, children⟩ =>
    ⟨name.unspaced, attributes.map fun a => (a.1.unspaced, a.2), text, unspacedAll children⟩

/-- The same for a list of trees. -/
def unspacedAll : List Element → List Element
  | [] => []
  | e :: es => unspaced e :: unspacedAll es

end

theorem unspacedAll_eq_map (es : List Element) : unspacedAll es = es.map unspaced := by
  induction es with
  | nil => rfl
  | cons e es ih => rw [unspacedAll, ih, List.map_cons]

theorem unspaced_eq (e : Element) :
    e.unspaced = ⟨e.name.unspaced, e.attributes.map fun a => (a.1.unspaced, a.2), e.text,
      e.children.map unspaced⟩ := by
  obtain ⟨name, attributes, text, children⟩ := e
  rw [unspaced, unspacedAll_eq_map]

/-- An element keeps its local name without its namespace, -/
@[simp] theorem isNamed_unspaced (e : Element) (n : String) : e.unspaced.isNamed n = e.isNamed n := by
  rw [unspaced_eq]
  rfl

/-- and its text. -/
@[simp] theorem content?_unspaced (e : Element) : e.unspaced.content? = e.content? := by
  rw [unspaced_eq]
  rfl

theorem filter_isNamed_map_unspaced (es : List Element) (n : String) :
    (es.map unspaced).filter (·.isNamed n) = (es.filter (·.isNamed n)).map unspaced := by
  rw [List.filter_map]
  congr 1
  exact List.filter_congr fun e _ => isNamed_unspaced e n

/-- The children of a name are found without namespaces, -/
theorem childrenNamed_unspaced (e : Element) (n : String) :
    e.unspaced.childrenNamed n = (e.childrenNamed n).map unspaced := by
  rw [childrenNamed, unspaced_eq]
  exact filter_isNamed_map_unspaced e.children n

/-- The first of some elements has the same text. -/
theorem content?_head?_map_unspaced (es : List Element) :
    (es.map unspaced).head?.bind content? = es.head?.bind content? := by
  cases es with
  | nil => rfl
  | cons e es => exact content?_unspaced e

/-- and so are their texts, -/
@[simp] theorem childText?_unspaced (e : Element) (n : String) :
    e.unspaced.childText? n = e.childText? n := by
  rw [childText?, childrenNamed_unspaced, content?_head?_map_unspaced]
  rfl

mutual

/-- The elements inside a tree are the same but for their namespaces. -/
theorem inOrder_unspaced : ∀ e : Element, e.unspaced.inOrder = e.inOrder.map unspaced
  | ⟨name, attributes, text, children⟩ => by
    rw [unspaced, inOrder, inOrder, List.map_cons, inOrderAll_unspacedAll children, unspaced]

theorem inOrderAll_unspacedAll :
    ∀ es : List Element, inOrderAll (unspacedAll es) = (inOrderAll es).map unspaced
  | [] => rfl
  | e :: es => by
    rw [unspacedAll, inOrderAll, inOrderAll, List.map_append, inOrder_unspaced e,
      inOrderAll_unspacedAll es]

end

/-- the elements of a name anywhere in a tree, -/
theorem allNamed_unspaced (e : Element) (n : String) :
    e.unspaced.allNamed n = (e.allNamed n).map unspaced := by
  rw [allNamed, inOrder_unspaced]
  exact filter_isNamed_map_unspaced e.inOrder n

/-- what is reached along a path, -/
theorem reach_map_unspaced (es : List Element) (path : List String) :
    reach (es.map unspaced) path = (reach es path).map unspaced := by
  induction path generalizing es with
  | nil => rfl
  | cons n path ih =>
    have hlevel : (fun e : Element => e.unspaced.childrenNamed n)
        = fun e => (e.childrenNamed n).map unspaced := by
      funext e
      exact childrenNamed_unspaced e n
    rw [reach, reach, ← ih, List.flatMap_map, List.map_flatMap, hlevel]

/-- and the text there. -/
@[simp] theorem textAt?_unspaced (e : Element) (path : List String) :
    e.unspaced.textAt? path = e.textAt? path := by
  have hreach : reach [e.unspaced] path = (reach [e] path).map unspaced := reach_map_unspaced [e] path
  rw [textAt?, hreach, content?_head?_map_unspaced]
  rfl

end Element

/-! ## Documents -/

/-- **In whatever namespaces the elements of a document are put, an element has a name exactly when this name
stands behind the last closing brace of its written one.** -/
theorem isNamed_eq_behindBrace {s : String} {root other e : Element} (h : parse? s = some root)
    (hother : other.unspaced = root.unspaced) (he : e ∈ other.inOrder) (n : String) :
    e.isNamed n = (behindBrace e.name.written == n) := by
  have hmem := List.mem_map_of_mem (f := Element.unspaced) he
  rw [← Element.inOrder_unspaced, hother, Element.inOrder_unspaced] at hmem
  obtain ⟨x, hx, hsame⟩ := List.mem_map.mp hmem
  have hname : x.name.localPart = e.name.localPart := by
    rw [Element.unspaced_eq, Element.unspaced_eq] at hsame
    show x.name.unspaced.localPart = e.name.unspaced.localPart
    rw [(Element.mk.inj hsame).1]
  have hplain := plain_of_parse? h x hx
  rw [Name.Plain, hname] at hplain
  rw [behindBrace_written hplain]
  rfl

/-- Two texts tell documents that differ in their namespaces at most, or neither of them tells one. -/
def SameDocument (x y : String) : Prop :=
  (parse? x).map Element.unspaced = (parse? y).map Element.unspaced

instance (x y : String) : Decidable (SameDocument x y) :=
  inferInstanceAs (Decidable ((parse? x).map Element.unspaced = (parse? y).map Element.unspaced))

end Lightpath.Xml
