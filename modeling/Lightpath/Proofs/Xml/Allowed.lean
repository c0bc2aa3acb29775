import Lightpath.Proofs.Text.Trim
import Lightpath.Proofs.Xml.Simulation
import Lightpath.Proofs.Xml.Tree

/-!
# Characters of a document

All text in a document that has been read is made of characters that a document may hold, so it can
be written into a document again. Main statement: `allowed_of_parse?`.
-/

namespace Lightpath.Xml

/-! ## Texts of elements -/

/-- The texts of an element and of all elements inside it are made of characters that a document may
hold. -/
def Element.Allowed (e : Element) : Prop :=
  ∀ x ∈ e.inOrder, ∀ c ∈ x.text.toList, isAllowed c = true

theorem Element.Allowed.of_mem {e x : Element} (h : e.Allowed) (hx : x ∈ e.inOrder) : x.Allowed :=
  fun _ hy => h _ (mem_inOrder_trans hx hy)

/-- The same for what is known of an element that is still open. -/
def Frame.Allowed (f : Frame) : Prop :=
  (∀ c ∈ f.text, isAllowed c = true) ∧ ∀ e ∈ f.children, e.Allowed

/-- The same for all that has been built. -/
def Draft.Allowed (d : Draft) : Prop :=
  (∀ f ∈ d.frames, f.Allowed) ∧ ∀ e, d.root = some e → e.Allowed

/-- An open element keeps its characters when it is closed. -/
theorem Frame.Allowed.close {f : Frame} (h : f.Allowed) : f.close.Allowed := by
  intro x hx c hc
  rw [Element.inOrder_eq] at hx
  rcases List.mem_cons.mp hx with rfl | hx
  · rw [Frame.close, String.toList_ofList, List.mem_reverse] at hc
    exact h.1 c hc
  · obtain ⟨e, he, hx⟩ := List.mem_flatMap.mp hx
    exact h.2 e (List.mem_reverse.mp he) x hx c hc

/-! ## Readings -/

theorem Draft.Allowed.addText {d d' : Draft} (h : d.Allowed) {c : Char} (hc : isAllowed c = true)
    (hd : d.addText c = some d') : d'.Allowed := by
  rw [Draft.addText] at hd
  split at hd
  · exact absurd hd (by simp)
  · rename_i f outer hframes
    have hf := h.1 f (by rw [hframes]; exact List.mem_cons_self)
    split at hd
    · rw [← Option.some.inj hd]
      refine ⟨fun g hg => ?_, h.2⟩
      rcases List.mem_cons.mp hg with rfl | hg
      · refine ⟨fun x hx => ?_, hf.2⟩
        rcases List.mem_cons.mp hx with rfl | hx
        · exact hc
        · exact hf.1 x hx
      · exact h.1 g (by rw [hframes]; exact List.mem_cons_of_mem f hg)
    · rw [← Option.some.inj hd]
      exact h

theorem Draft.Allowed.closeTag {d d' : Draft} (h : d.Allowed) (hd : d.closeTag = some d') :
    d'.Allowed := by
  rw [Draft.closeTag] at hd
  split at hd
  · exact absurd hd (by simp)
  · rename_i f hframes
    rw [← Option.some.inj hd]
    refine ⟨by simp, fun e he => ?_⟩
    rw [← Option.some.inj he]
    exact (h.1 f (by rw [hframes]; exact List.mem_cons_self)).close
  · rename_i f g outer hframes
    have hf := h.1 f (by rw [hframes]; exact List.mem_cons_self)
    have hg := h.1 g (by rw [hframes]; exact List.mem_cons_of_mem f List.mem_cons_self)
    rw [← Option.some.inj hd]
    refine ⟨fun x hx => ?_, h.2⟩
    rcases List.mem_cons.mp hx with rfl | hx
    · refine ⟨hg.1, fun e he => ?_⟩
      rcases List.mem_cons.mp he with rfl | he
      · exact hf.close
      · exact hg.2 e he
    · exact h.1 x (by rw [hframes]; exact List.mem_cons_of_mem f (List.mem_cons_of_mem g hx))

/-- The reader keeps its text within the characters that a document may hold. -/
theorem alike_allowed : Alike fun d e => d = e ∧ d.Allowed where
  isEmpty := fun h => by rw [h.1]
  root := fun h => by rw [h.1]
  doctype := fun h => by rw [h.1]
  raw := fun h => by rw [h.1]
  scope := fun h => by rw [h.1]
  declare := fun h => ⟨by rw [h.1], h.2⟩
  push := by
    rintro d e ⟨rfl, h⟩ - f htext hchildren
    refine ⟨rfl, fun g hg => ?_, h.2⟩
    rcases List.mem_cons.mp hg with rfl | hg
    · rw [Frame.Allowed, htext, hchildren]
      simp
    · exact h.1 g hg
  addText := by
    rintro d e ⟨rfl, h⟩ c hc d' hd'
    exact ⟨d', hd', rfl, h.addText hc hd'⟩
  closeTag := by
    rintro d e ⟨rfl, h⟩ d' hd'
    exact ⟨d', hd', rfl, h.closeTag hd'⟩

/-- **All text of a document that has been read is made of characters that a document may hold.** -/
theorem allowed_of_parse? {s : String} {root : Element} (h : parse? s = some root) :
    root.Allowed := by
  unfold parse? parseChars at h
  obtain ⟨t, hrun, hroot⟩ := Option.bind_eq_some_iff.mp h
  have hinitial : State.initial.draft.Allowed := ⟨by simp [State.initial], by simp [State.initial]⟩
  obtain ⟨u, -, ⟨hd, hallowed⟩, -, -⟩ :=
    run_follows alike_allowed (s := State.initial) (t := State.initial)
      (related_outside ⟨rfl, hinitial⟩ rfl) _ t hrun
  rw [State.document?] at hroot
  split at hroot
  · split at hroot
    · exact hallowed.2 root hroot
    · exact absurd hroot (by simp)
  · exact absurd hroot (by simp)

/-- The text of a child is part of the text of the document, without the white space around it. -/
theorem allowed_of_childText? {e : Element} (h : e.Allowed) {n s : String}
    (hs : e.childText? n = some s) :
    (∀ c ∈ s.toList, isAllowed c = true) ∧ ∃ text, s = Text.trimmed text := by
  rw [Element.childText?] at hs
  obtain ⟨child, hchild, hcontent⟩ := Option.bind_eq_some_iff.mp hs
  have hmem : child ∈ e.children := (List.mem_filter.mp (List.mem_of_mem_head? hchild)).1
  rw [Element.content?] at hcontent
  split at hcontent
  · exact absurd hcontent (by simp)
  · rw [← Option.some.inj hcontent]
    refine ⟨fun c hc => ?_, child.text, rfl⟩
    exact h child (Element.mem_inOrder_of_mem_children hmem) c (Text.mem_of_mem_trimmed hc)

end Lightpath.Xml
