import Lightpath.CrossConnect.Channel
import Lightpath.Proofs.Outcome
import Lightpath.Proofs.Xml.Allowed

/-!
# Keys of declared channels

The key of a channel is the text of an element of the reply, without the white space around it. So
it is made of characters that a document may hold, and it reads back from a document that it is
written into.
-/

namespace Lightpath.CrossConnect

open Lightpath.Xml

/-- A channel comes from a complete declaration of its key. -/
theorem Declaration.exists_of_mem_channels {ds : List Declaration} {plan : List Channel}
    (h : channels ds = .ok plan) {c : Channel} (hc : c ∈ plan) :
    ∃ low high, complete c.key low high ∈ ds := by
  induction ds generalizing plan with
  | nil =>
    rw [← Except.ok.inj h] at hc
    exact absurd hc List.not_mem_nil
  | cons d ds ih =>
    rw [channels] at h
    obtain ⟨first, hd, h⟩ := Outcome.bind_eq_ok_iff.mp h
    obtain ⟨rest, hrest, h⟩ := Outcome.bind_eq_ok_iff.mp h
    obtain rfl : first.toList ++ rest = plan := Except.ok.inj h
    rcases List.mem_append.mp hc with hc | hc
    · cases d with
      | incomplete name =>
        rw [← Except.ok.inj hd] at hc
        exact absurd hc List.not_mem_nil
      | complete name low high =>
        rw [channel?] at hd
        -- a declaration whose edges cannot be read faults, and then there is no plan
        split at hd
        · rw [← Except.ok.inj hd, Option.toList_some, List.mem_singleton] at hc
          exact ⟨low, high, by rw [hc]; exact List.mem_cons_self⟩
        · exact absurd hd (by simp)
    · obtain ⟨low, high, hmem⟩ := ih hrest hc
      exact ⟨low, high, List.mem_cons_of_mem d hmem⟩

/-- A complete declaration of a name is made by an element with this name as the text of a child. -/
theorem Declaration.childText?_of_ofElement {e : Element} {name low high : String}
    (h : ofElement e = complete name low high) : e.childText? "name" = some name := by
  rw [ofElement] at h
  split at h
  · rename_i hname _ _
    rw [hname, (Declaration.complete.inj h).1]
  · exact absurd h (by simp)

variable {reply : String} {plan : List Channel} {c : Channel}

/-- A reply with a plan is a document that declares it. -/
theorem exists_document_of_planOf (h : planOf reply = .ok plan) :
    ∃ root, parse? reply = some root ∧ Declaration.channels (Declaration.all root) = .ok plan := by
  rw [planOf] at h
  obtain ⟨root, hroot, h⟩ := Outcome.bind_eq_ok_iff.mp h
  rw [document] at hroot
  split at hroot
  · rename_i root' hparse
    rw [Except.ok.inj hroot] at hparse
    exact ⟨root, hparse, h⟩
  · exact absurd hroot (by simp)

theorem planOf_of_document {root : Element} (hroot : parse? reply = some root) :
    planOf reply = Declaration.channels (Declaration.all root) := by
  rw [planOf, document, hroot]
  rfl

/-- **The key of a channel is made of characters that a document may hold, and there is no white
space around it.** -/
theorem key_of_planOf (h : planOf reply = .ok plan) (hc : c ∈ plan) :
    (∀ x ∈ c.key.toList, isAllowed x = true) ∧ Text.trimmed c.key = c.key := by
  obtain ⟨root, hroot, hdeclared⟩ := exists_document_of_planOf h
  obtain ⟨low, high, hmem⟩ := Declaration.exists_of_mem_channels hdeclared hc
  obtain ⟨p, hp, hmem⟩ := List.mem_flatMap.mp hmem
  obtain ⟨e, he, hname⟩ := List.mem_map.mp hmem
  have hin : e ∈ root.inOrder := Element.mem_inOrder_trans (List.mem_filter.mp hp).1
    (Element.mem_inOrder_of_mem_children (List.mem_filter.mp he).1)
  obtain ⟨hallowed, text, htext⟩ := allowed_of_childText? ((allowed_of_parse? hroot).of_mem hin)
    (Declaration.childText?_of_ofElement hname)
  refine ⟨hallowed, ?_⟩
  rw [htext, Text.trimmed_trimmed]

end Lightpath.CrossConnect
