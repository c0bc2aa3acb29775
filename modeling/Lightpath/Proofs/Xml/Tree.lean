import Lightpath.Xml.Element

/-!
# Elements inside elements

The elements of a document in the order of their start tags, seen from the children of its root.
-/

namespace Lightpath.Xml.Element

theorem inOrder_eq (e : Element) : e.inOrder = e :: e.children.flatMap inOrder := by
  obtain ⟨name, attributes, text, children⟩ := e
  rw [inOrder, inOrderAll_eq_flatMap]

mutual

/-- What is inside an element inside an element is inside that one. -/
theorem mem_inOrder_trans {x y : Element} :
    ∀ {e : Element}, x ∈ e.inOrder → y ∈ x.inOrder → y ∈ e.inOrder
  | ⟨name, attributes, text, children⟩, hx, hy => by
    rw [inOrder] at hx ⊢
    rcases List.mem_cons.mp hx with rfl | hx
    · rwa [inOrder] at hy
    · exact List.mem_cons_of_mem _ (mem_inOrderAll_trans hx hy)

theorem mem_inOrderAll_trans {x y : Element} :
    ∀ {es : List Element}, x ∈ inOrderAll es → y ∈ x.inOrder → y ∈ inOrderAll es
  | [], hx, _ => by
    rw [inOrderAll] at hx
    exact absurd hx List.not_mem_nil
  | e :: es, hx, hy => by
    rw [inOrderAll] at hx ⊢
    rcases List.mem_append.mp hx with hx | hx
    · exact List.mem_append_left _ (mem_inOrder_trans hx hy)
    · exact List.mem_append_right _ (mem_inOrderAll_trans hx hy)

end

theorem mem_inOrder_of_mem_children {e x : Element} (h : x ∈ e.children) : x ∈ e.inOrder := by
  rw [inOrder_eq, List.mem_cons, List.mem_flatMap]
  refine Or.inr ⟨x, h, ?_⟩
  rw [inOrder_eq]
  exact List.mem_cons_self

/-! ## Names -/

/-- The elements of a name are the element itself, if it has the name, and those inside its
children. -/
theorem allNamed_eq (e : Element) (n : String) :
    e.allNamed n = (if e.isNamed n then [e] else []) ++ e.children.flatMap (·.allNamed n) := by
  rw [allNamed, inOrder_eq, List.filter_cons, List.filter_flatMap]
  split <;> rfl

theorem allNamed_of_not_isNamed {e : Element} {n : String} (h : e.isNamed n = false) :
    e.allNamed n = e.children.flatMap (·.allNamed n) := by
  rw [allNamed_eq, if_neg (by rw [h]; decide), List.nil_append]

end Lightpath.Xml.Element
