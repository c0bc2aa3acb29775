import Lightpath.CrossConnect.Branch
import Lightpath.Proofs.Xml.Unspaced

/-!
# Plans and branches without namespaces

The plan and the live branches in a reply depend on the local parts of its names only. Main statements:
`planOf_eq_of_sameDocument` and `branchesOf_eq_of_sameDocument`.
-/

namespace Lightpath.CrossConnect

open Lightpath.Xml

/-! ## Plans -/

namespace Declaration

theorem ofElement_unspaced (e : Element) : ofElement e.unspaced = ofElement e := by
  rw [ofElement, ofElement, Element.childText?_unspaced, Element.childText?_unspaced,
    Element.childText?_unspaced]

/-- The declarations of a document do not depend on its namespaces. -/
theorem all_unspaced (root : Element) : all root.unspaced = all root := by
  have hplan : (fun plan : Element => (plan.unspaced.childrenNamed "channel").map ofElement)
      = fun plan => (plan.childrenNamed "channel").map ofElement := by
    funext plan
    rw [Element.childrenNamed_unspaced, List.map_map]
    exact List.map_congr_left fun e _ => ofElement_unspaced e
  rw [all, Element.allNamed_unspaced, List.flatMap_map, hplan, ← all]

end Declaration

/-! ## Branches -/

namespace Branch

theorem ofElement_unspaced (front : String) (side : Side) (e : Element) :
    ofElement front side e.unspaced = ofElement front side e := by
  rw [ofElement, ofElement, Element.childText?_unspaced, Element.childrenNamed_unspaced,
    List.head?_map]
  cases e.childText? "channel" with
  | none => rfl
  | some channel =>
    cases (e.childrenNamed side.name).head? with
    | none => rfl
    | some branch =>
      simp only [Option.map_some]
      rw [Element.childText?_unspaced, Element.childText?_unspaced]

theorem onSide_map_unspaced (front : String) (side : Side) (es : List Element) :
    onSide front side (es.map Element.unspaced) = onSide front side es := by
  induction es with
  | nil => rfl
  | cons e es ih => rw [List.map_cons, onSide, onSide, ofElement_unspaced, ih]

/-- The branches of a document do not depend on its namespaces. -/
theorem all_unspaced (front : String) (root : Element) : all front root.unspaced = all front root := by
  rw [all, all, Element.allNamed_unspaced]
  simp only [onSide_map_unspaced]

end Branch

/-! ## Replies -/

variable {x y : String}

/-- What is read off the documents in two replies is the same if it does not depend on namespaces. -/
theorem document_bind_eq_of_sameDocument {α : Type} {f : Element → Outcome α}
    (hf : ∀ root, f root.unspaced = f root) (h : SameDocument x y) :
    (document x >>= f) = (document y >>= f) := by
  have hdocument (reply : String) : (document reply >>= f)
      = ((parse? reply).map Element.unspaced).elim (.error .malformedDocument) f := by
    rw [document]
    cases parse? reply with
    | none => rfl
    | some root => exact (hf root).symm
  rw [hdocument, hdocument, h]

/-- **Replies with the same document have the same plan.** -/
theorem planOf_eq_of_sameDocument (h : SameDocument x y) : planOf x = planOf y :=
  document_bind_eq_of_sameDocument (fun root => by rw [Declaration.all_unspaced]) h

/-- **Replies with the same document have the same live branches.** -/
theorem branchesOf_eq_of_sameDocument (front : String) (h : SameDocument x y) :
    branchesOf front x = branchesOf front y :=
  document_bind_eq_of_sameDocument (Branch.all_unspaced front) h

end Lightpath.CrossConnect
