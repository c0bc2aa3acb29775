import Lightpath.Proofs.Xml.Simulation
import Lightpath.Proofs.Xml.Tree

/-!
# Names in documents

The characters that a name is made of are no braces, so no element of a document that has been read has a
brace in the local part of its name, whatever its namespace is. Main statement: `plain_of_parse?`.
-/

namespace Lightpath.Xml

/-! ## Results of a kind -/

/-- The result is of a kind where there is one. -/
def Kept {α : Type} (P : α → Prop) (x : Option α) : Prop :=
  ∀ a, x = some a → P a

namespace Kept

variable {α β : Type} {P : α → Prop} {Q : β → Prop}

theorem of_none (P : α → Prop) : Kept P none :=
  fun _ h => absurd h (by simp)

theorem of_some {a : α} (h : P a) : Kept P (some a) := by
  intro b hb
  rwa [← Option.some.inj hb]

theorem ite {p : Prop} [Decidable p] {x y : Option α} (h : p → Kept P x) (h' : ¬p → Kept P y) :
    Kept P (if p then x else y) := by
  by_cases hp : p
  · rw [if_pos hp]
    exact h hp
  · rw [if_neg hp]
    exact h' hp

/-- What is kept over one step and over the next is kept over both. -/
theorem bind {x : Option α} {f : α → Option β} (h : Kept P x) (hf : ∀ a, P a → Kept Q (f a)) :
    Kept Q (x.bind f) := by
  intro b hb
  obtain ⟨a, ha, hfa⟩ := Option.bind_eq_some_iff.mp hb
  exact hf a (h a ha) b hfa

theorem map {x : Option α} {f : α → β} (h : Kept P x) (hf : ∀ a, P a → Q (f a)) :
    Kept Q (x.map f) := by
  intro b hb
  obtain ⟨a, ha, rfl⟩ := Option.map_eq_some_iff.mp hb
  exact hf a (h a ha)

end Kept

/-! ## Names without braces -/

/-- A brace is no character of a name. -/
theorem ne_brace_of_isNameMore {c : Char} (h : isNameMore c = true) : c ≠ '}' := by
  rintro rfl
  exact absurd h (by decide)

/-- A name whose local part has no closing brace. -/
def Name.Plain (n : Name) : Prop :=
  '}' ∉ n.localPart.toList

/-- An element is made of elements with such names. -/
def Element.Plain (e : Element) : Prop :=
  ∀ x ∈ e.inOrder, x.name.Plain

/-- The same for what is known of an element that is still open. -/
def Frame.Plain (f : Frame) : Prop :=
  f.name.Plain ∧ ∀ e ∈ f.children, e.Plain

/-- The same for all that has been built. -/
structure Draft.Plain (d : Draft) : Prop where
  frames : ∀ f ∈ d.frames, f.Plain
  root : ∀ e, d.root = some e → e.Plain

/-- An element that is closed has the name that it was opened with. -/
theorem Frame.Plain.close {f : Frame} (h : f.Plain) : f.close.Plain := by
  intro x hx
  rw [Element.inOrder_eq] at hx
  rcases List.mem_cons.mp hx with rfl | hx
  · exact h.1
  · obtain ⟨e, he, hx⟩ := List.mem_flatMap.mp hx
    exact h.2 e (List.mem_reverse.mp he) x hx

/-- The local part of a name is part of what is written. -/
theorem mem_of_splitName {raw : List Char} {name : Option String × String} {c : Char}
    (h : splitName raw = some name) (hc : c ∈ name.2.toList) : c ∈ raw := by
  unfold splitName at h
  simp only at h
  split at h
  · rw [← Option.some.inj h] at hc
    rw [String.toList_ofList] at hc
    exact (List.takeWhile_prefix _).subset hc
  · rename_i colon rest hdrop
    split at h
    · split at h
      · rw [← Option.some.inj h] at hc
        rw [String.toList_ofList] at hc
        have hmem := List.mem_cons_of_mem colon hc
        rw [← hdrop] at hmem
        exact (List.dropWhile_suffix _).subset hmem
      · exact absurd h (by simp)
    · exact absurd h (by simp)

/-- The local part of a name is what stands behind its prefix. -/
theorem localPart_of_elementName {scope : Scope} {name : Option String × String} {n : Name}
    (h : elementName scope name = some n) : n.localPart = name.2 := by
  obtain ⟨p, l⟩ := name
  cases p with
  | none =>
    rw [elementName] at h
    split at h
    · rw [← Option.some.inj h]
    · rw [← Option.some.inj h]
  | some p =>
    rw [elementName] at h
    obtain ⟨uri, -, rfl⟩ := Option.map_eq_some_iff.mp h
    rfl

/-- An element that has just been opened has a name of the characters of its tag. -/
theorem plain_of_openFrame? {outer : Scope} {t : Tag} {f : Frame} (h : openFrame? outer t = some f)
    (ht : '}' ∉ t.raw) : f.Plain := by
  rw [openFrame?] at h
  simp only [Option.bind_eq_bind, Option.pure_def] at h
  split at h
  · exact absurd h (by simp)
  · obtain ⟨attributes, -, h⟩ := Option.bind_eq_some_iff.mp h
    obtain ⟨scope, -, h⟩ := Option.bind_eq_some_iff.mp h
    obtain ⟨written, hwritten, h⟩ := Option.bind_eq_some_iff.mp h
    obtain ⟨name, hname, h⟩ := Option.bind_eq_some_iff.mp h
    obtain ⟨named, -, h⟩ := Option.bind_eq_some_iff.mp h
    split at h
    · exact absurd h (by simp)
    · rw [← Option.some.inj h]
      refine ⟨fun hbrace => ?_, by simp⟩
      rw [localPart_of_elementName hname] at hbrace
      exact ht (mem_of_splitName hwritten hbrace)

/-! ## Building -/

namespace Draft.Plain

variable {d : Draft}

/-- Text brings no names; -/
theorem addText (h : d.Plain) (c : Char) : Kept Draft.Plain (d.addText c) := by
  rw [Draft.addText]
  split
  · exact Kept.of_none _
  · rename_i f outer hframes
    split
    · refine Kept.of_some ⟨fun g hg => ?_, h.root⟩
      rcases List.mem_cons.mp hg with rfl | hg
      · exact h.frames f (by rw [hframes]; exact List.mem_cons_self)
      · exact h.frames g (by rw [hframes]; exact List.mem_cons_of_mem f hg)
    · exact Kept.of_some h

theorem addContent (h : d.Plain) (c : Char) : Kept Draft.Plain (d.addContent c) := by
  rw [Draft.addContent]
  split
  · exact Kept.ite (fun _ => Kept.of_some h) fun _ => Kept.of_none _
  · exact h.addText c

theorem addBrackets (h : d.Plain) (n : Nat) : Kept Draft.Plain (d.addBrackets n) := by
  induction n generalizing d with
  | zero => exact Kept.of_some h
  | succ n ih => exact (h.addText ']').bind fun _ hd => ih hd

/-- a tag that is opened brings the names that stand in it, -/
theorem openTag (h : d.Plain) {t : Tag} (ht : '}' ∉ t.raw) : Kept Draft.Plain (d.openTag t) := by
  rw [openTag_eq]
  intro d' hd'
  obtain ⟨f, hf, rfl⟩ := Option.map_eq_some_iff.mp hd'
  refine ⟨fun g hg => ?_, h.root⟩
  rcases List.mem_cons.mp hg with rfl | hg
  · exact plain_of_openFrame? hf ht
  · exact h.frames g hg

/-- and closing it puts an element with these names into its parent. -/
theorem closeTag (h : d.Plain) : Kept Draft.Plain d.closeTag := by
  rw [Draft.closeTag]
  split
  · exact Kept.of_none _
  · rename_i f hframes
    refine Kept.of_some ⟨by simp, fun e he => ?_⟩
    rw [← Option.some.inj he]
    exact (h.frames f (by rw [hframes]; exact List.mem_cons_self)).close
  · rename_i f g outer hframes
    have hf := h.frames f (by rw [hframes]; exact List.mem_cons_self)
    have hg := h.frames g (by rw [hframes]; exact List.mem_cons_of_mem f List.mem_cons_self)
    refine Kept.of_some ⟨fun x hx => ?_, h.root⟩
    rcases List.mem_cons.mp hx with rfl | hx
    · refine ⟨hg.1, fun e he => ?_⟩
      rcases List.mem_cons.mp he with rfl | he
      · exact hf.close
      · exact hg.2 e he
    · exact h.frames x (by rw [hframes]; exact List.mem_cons_of_mem f (List.mem_cons_of_mem g hx))

end Draft.Plain

/-! ## Steps -/

/-- The name of the tag that is being read has no closing brace. -/
def Mode.Plain : Mode → Prop
  | .startName raw => '}' ∉ raw
  | .tag t _ => '}' ∉ t.raw
  | .attributeName t _ => '}' ∉ t.raw
  | .equals t _ => '}' ∉ t.raw
  | .quote t _ => '}' ∉ t.raw
  | .value t _ _ _ => '}' ∉ t.raw
  | .emptyEnd t => '}' ∉ t.raw
  | .reference (.value t _ _ _) _ => '}' ∉ t.raw
  | _ => True

/-- No name that has been read so far has a closing brace. -/
structure State.Plain (s : State) : Prop where
  mode : s.mode.Plain
  draft : s.draft.Plain

/-- A character of a name that is being read is no brace. -/
theorem notMem_cons_of_isNameMore {c : Char} {raw : List Char} (hc : isNameMore c = true)
    (hraw : '}' ∉ raw) : '}' ∉ c :: raw := by
  intro hmem
  rcases List.mem_cons.mp hmem with hbrace | hmem
  · exact ne_brace_of_isNameMore hc hbrace.symm
  · exact hraw hmem

namespace Draft.Plain

variable {d : Draft} (h : d.Plain)

include h

/-- The meaning of the next character changes and nothing else. -/
theorem turn {m : Mode} (hm : m.Plain) : Kept State.Plain (some ⟨m, d⟩) :=
  Kept.of_some ⟨hm, h⟩

/-- An end tag closes what it names. -/
theorem endElement (name : List Char) : Kept State.Plain (endElement d name) := by
  rw [Xml.endElement]
  split
  · refine Kept.ite (fun _ => ?_) fun _ => Kept.of_none _
    exact h.closeTag.map fun _ hd => ⟨trivial, hd⟩
  · exact Kept.of_none _

theorem contentStep (brackets : Nat) (c : Char) : Kept State.Plain (contentStep d brackets c) := by
  rw [Xml.contentStep]
  refine Kept.ite (fun _ => h.turn trivial) fun _ => ?_
  refine Kept.ite (fun _ => ?_) fun _ => ?_
  · split
    · exact Kept.of_none _
    · exact h.turn trivial
  refine Kept.ite (fun _ => Kept.of_none _) fun _ => ?_
  refine Kept.ite (fun _ => ?_) fun _ => Kept.of_none _
  exact (h.addContent c).map fun _ hd => ⟨trivial, hd⟩

theorem bangStep (seen : List Char) (c : Char) : Kept State.Plain (bangStep d seen c) := by
  rw [Xml.bangStep]
  refine Kept.ite (fun _ => h.turn trivial) fun _ => ?_
  refine Kept.ite (fun _ => ?_) fun _ => ?_
  · split
    · exact Kept.of_none _
    · exact h.turn trivial
  refine Kept.ite (fun _ => ?_) fun _ => ?_
  · refine Kept.ite (fun _ => ?_) fun _ => Kept.of_none _
    exact Kept.of_some ⟨trivial, h.frames, h.root⟩
  exact Kept.ite (fun _ => h.turn trivial) fun _ => Kept.of_none _

theorem afterTarget (first : Bool) (raw : List Char) (c : Char) :
    Kept State.Plain (afterTarget d first raw c) := by
  rw [Xml.afterTarget]
  refine Kept.ite (fun _ => ?_) fun _ => ?_
  · exact Kept.ite (fun _ => h.turn trivial) fun _ => Kept.of_none _
  refine Kept.ite (fun _ => h.turn trivial) fun _ => ?_
  exact Kept.ite (fun _ => h.turn trivial) fun _ => Kept.of_none _

/-- A name starts with a character of a name. -/
theorem lessStep (first : Bool) (c : Char) : Kept State.Plain (lessStep d first c) := by
  rw [Xml.lessStep]
  refine Kept.ite (fun _ => h.turn trivial) fun _ => ?_
  refine Kept.ite (fun _ => h.turn trivial) fun _ => ?_
  refine Kept.ite (fun _ => h.turn trivial) fun _ => ?_
  refine Kept.ite (fun hc => ?_) fun _ => Kept.of_none _
  have hstart := (Bool.and_eq_true_iff.mp hc).1
  exact h.turn (notMem_cons_of_isNameMore (isNameMore_of_isNameStart hstart) List.not_mem_nil)

theorem tagStep {t : Tag} (ht : '}' ∉ t.raw) (gap : Bool) (c : Char) :
    Kept State.Plain (tagStep d t gap c) := by
  rw [Xml.tagStep]
  refine Kept.ite (fun _ => h.turn ht) fun _ => ?_
  refine Kept.ite (fun _ => ?_) fun _ => ?_
  · exact (h.openTag ht).map fun _ hd => ⟨trivial, hd⟩
  refine Kept.ite (fun _ => h.turn ht) fun _ => ?_
  exact Kept.ite (fun _ => h.turn ht) fun _ => Kept.of_none _

/-- A reference brings no names, wherever it stands. -/
theorem endReference {place : Place} {name : List Char} (hplace : Mode.Plain (.reference place name))
    (full : List Char) : Kept State.Plain (endReference d place full) := by
  rw [Xml.endReference]
  cases referenced? full with
  | none => exact Kept.of_none _
  | some c =>
    cases place with
    | content => exact (h.addText c).map fun _ hd => ⟨trivial, hd⟩
    | value t name' quote value => exact h.turn hplace

/-- One character leaves all names without closing braces. -/
theorem step {m : Mode} (hm : m.Plain) (c : Char) : Kept State.Plain (step ⟨m, d⟩ c) := by
  have hnone : Kept State.Plain none := Kept.of_none _
  rw [Xml.step]
  cases m with
  | start => exact Kept.ite (fun _ => h.turn trivial) fun _ => h.contentStep 0 c
  | content brackets => exact h.contentStep brackets c
  | less first => exact h.lessStep first c
  | startName raw =>
    refine Kept.ite (fun hc => h.turn (notMem_cons_of_isNameMore hc hm)) fun _ => ?_
    exact h.tagStep (fun hmem => hm (List.mem_reverse.mp hmem)) false c
  | tag t gap => exact h.tagStep hm gap c
  | attributeName t raw =>
    refine Kept.ite (fun _ => h.turn hm) fun _ => ?_
    refine Kept.ite (fun _ => h.turn hm) fun _ => ?_
    exact Kept.ite (fun _ => h.turn hm) fun _ => hnone
  | equals t name =>
    refine Kept.ite (fun _ => h.turn hm) fun _ => ?_
    exact Kept.ite (fun _ => h.turn hm) fun _ => hnone
  | quote t name =>
    refine Kept.ite (fun _ => h.turn hm) fun _ => ?_
    exact Kept.ite (fun _ => h.turn hm) fun _ => hnone
  | value t name quote value =>
    refine Kept.ite (fun _ => h.turn hm) fun _ => ?_
    refine Kept.ite (fun _ => hnone) fun _ => ?_
    refine Kept.ite (fun _ => h.turn hm) fun _ => ?_
    refine Kept.ite (fun _ => h.turn hm) fun _ => ?_
    exact Kept.ite (fun _ => h.turn hm) fun _ => hnone
  | emptyEnd t =>
    refine Kept.ite (fun _ => ?_) fun _ => hnone
    exact ((h.openTag hm).bind fun _ hd => hd.closeTag).map fun _ hd => ⟨trivial, hd⟩
  | endName raw =>
    refine Kept.ite (fun _ => h.turn trivial) fun _ => ?_
    refine Kept.ite (fun _ => h.endElement _) fun _ => ?_
    exact Kept.ite (fun _ => h.turn trivial) fun _ => hnone
  | endGap name =>
    refine Kept.ite (fun _ => h.turn trivial) fun _ => ?_
    exact Kept.ite (fun _ => h.endElement _) fun _ => hnone
  | bang seen => exact h.bangStep seen c
  | comment dashes =>
    refine Kept.ite (fun _ => Kept.ite (fun _ => h.turn trivial) fun _ => hnone) fun _ => ?_
    refine Kept.ite (fun _ => h.turn trivial) fun _ => ?_
    exact Kept.ite (fun _ => h.turn trivial) fun _ => hnone
  | cdata brackets =>
    refine Kept.ite (fun _ => h.turn trivial) fun _ => ?_
    refine Kept.ite (fun _ => ?_) fun _ => ?_
    · refine Kept.ite (fun _ => ?_) fun _ => h.turn trivial
      exact (h.addText ']').map fun _ hd => ⟨trivial, hd⟩
    · refine Kept.ite (fun _ => ?_) fun _ => hnone
      exact ((h.addBrackets brackets).bind fun _ hd => hd.addText c).map fun _ hd => ⟨trivial, hd⟩
  | target first raw =>
    cases raw with
    | nil => exact Kept.ite (fun _ => h.turn trivial) fun _ => hnone
    | cons x raw => exact Kept.ite (fun _ => h.turn trivial) fun _ => h.afterTarget first _ c
  | instruction mark =>
    refine Kept.ite (fun _ => h.turn trivial) fun _ => ?_
    exact Kept.ite (fun _ => h.turn trivial) fun _ => hnone
  | instructionEnd => exact Kept.ite (fun _ => h.turn trivial) fun _ => hnone
  | declaration mark body =>
    refine Kept.ite (fun _ => Kept.ite (fun _ => h.turn trivial) fun _ => hnone) fun _ => ?_
    exact Kept.ite (fun _ => h.turn trivial) fun _ => hnone
  | doctype quote body =>
    cases quote with
    | some q => exact Kept.ite (fun _ => h.turn trivial) fun _ => hnone
    | none =>
      refine Kept.ite (fun _ => Kept.ite (fun _ => h.turn trivial) fun _ => hnone) fun _ => ?_
      refine Kept.ite (fun _ => h.turn trivial) fun _ => ?_
      exact Kept.ite (fun _ => h.turn trivial) fun _ => hnone
  | reference place name =>
    refine Kept.ite (fun _ => h.endReference hm _) fun _ => ?_
    refine Kept.ite (fun _ => h.turn ?_) fun _ => hnone
    cases place with
    | content => trivial
    | value t name' quote value => exact hm

end Draft.Plain

/-! ## Documents -/

/-- **Whatever is read, the names stay without braces.** -/
theorem State.Plain.run {s : State} (h : s.Plain) (cs : List Char) : Kept State.Plain (run s cs) := by
  induction cs generalizing s with
  | nil => exact Kept.of_some h
  | cons c cs ih =>
    rw [run_cons]
    exact (h.draft.step h.mode c).bind fun _ ht => ih ht

/-- **No element of a document that has been read has a closing brace in the local part of its name.** -/
theorem plain_of_parse? {s : String} {root : Element} (h : parse? s = some root) : root.Plain := by
  unfold parse? parseChars at h
  obtain ⟨t, hrun, hroot⟩ := Option.bind_eq_some_iff.mp h
  have hinitial : State.initial.Plain := ⟨trivial, by simp [State.initial], by simp [State.initial]⟩
  have ht := hinitial.run _ t hrun
  rw [State.document?] at hroot
  split at hroot
  · split at hroot
    · exact ht.draft.root root hroot
    · exact absurd hroot (by simp)
  · exact absurd hroot (by simp)

end Lightpath.Xml
