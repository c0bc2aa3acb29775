import Lightpath.Proofs.Xml.Markup

/-!
# Texts that read as elements

`Reads scope cs es` says that the text `cs`, put anywhere between the parts of an element whose
bindings are `scope`, is read as the elements `es`. The laws below build such texts from the inside
out.
-/

namespace Lightpath.Xml

/-- **Inside an element of a scope a text reads as some elements**: they become its next children,
whatever it has so far, and nothing else changes. -/
def Reads (scope : Scope) (cs : List Char) (es : List Element) : Prop :=
  ∀ (k : Nat) (f : Frame) (outer : List Frame) (root : Option Element) (doctype : Bool),
    f.scope = scope →
    run ⟨.content k, ⟨f :: outer, root, doctype⟩⟩ cs
      = some ⟨.content (if cs = [] then k else 0),
          ⟨{ f with children := es.reverse ++ f.children } :: outer, root, doctype⟩⟩

variable {scope : Scope}

theorem reads_nil (scope : Scope) : Reads scope [] [] :=
  fun _ _ _ _ _ _ => rfl

/-- Texts one behind the other read as the elements of both. -/
theorem reads_append {cs ds : List Char} {es fs : List Element} (h : Reads scope cs es)
    (k : Reads scope ds fs) : Reads scope (cs ++ ds) (es ++ fs) := by
  intro n f outer root doctype hf
  rw [run_append_of_run (h n f outer root doctype hf),
    k _ { f with children := es.reverse ++ f.children } outer root doctype hf]
  have hmode :
      (if ds = [] then if cs = [] then n else 0 else 0) = if cs ++ ds = [] then n else 0 := by
    by_cases hcs : cs = []
    · rw [if_pos hcs, hcs, List.nil_append]
    · rw [if_neg hcs, ite_self, if_neg fun hnil => hcs (List.append_eq_nil_iff.mp hnil).1]
  rw [hmode, List.reverse_append, List.append_assoc]

/-- Texts in a row read as the elements of all. -/
theorem reads_flatMap {α : Type} {l : List α} {text : α → List Char} {elements : α → List Element}
    (h : ∀ a ∈ l, Reads scope (text a) (elements a)) :
    Reads scope (l.flatMap text) (l.flatMap elements) := by
  induction l with
  | nil => exact reads_nil scope
  | cons a l ih =>
    rw [List.flatMap_cons, List.flatMap_cons]
    exact reads_append (h a List.mem_cons_self) (ih fun b hb => h b (List.mem_cons_of_mem a hb))

/-! ## Elements -/

/-- An element as it is written, with attributes behind its name and with something inside. -/
def written (name attributes inner : List Char) : List Char :=
  '<' :: (name ++ (attributes ++ '>' :: (inner ++ '<' :: '/' :: (name ++ ['>']))))

/-- An end tag of its name makes an open element the next child of the element around it. -/
theorem endElement_self (g f : Frame) (outer : List Frame) (root : Option Element)
    (doctype : Bool) :
    endElement ⟨g :: f :: outer, root, doctype⟩ g.raw
      = some ⟨.content 0, ⟨{ f with children := g.close :: f.children } :: outer, root, doctype⟩⟩ :=
  if_pos rfl

/-- What is written is read in three steps: the start tag, what is inside, and the end tag. -/
theorem reads_written {name attributes inner : List Char} {e : Element}
    (hname : isPlainName name = true)
    (h : ∀ (f : Frame) (outer : List Frame) (root : Option Element) (doctype : Bool),
      f.scope = scope →
      ∃ k g, run ⟨.startName name.reverse, ⟨f :: outer, root, doctype⟩⟩ (attributes ++ '>' :: inner)
          = some ⟨.content k, ⟨g :: f :: outer, root, doctype⟩⟩ ∧ g.raw = name ∧ g.close = e) :
    Reads scope (written name attributes inner) [e] := by
  intro n f outer root doctype hf
  obtain ⟨k, g, hrun, hraw, hclose⟩ := h f outer root doctype hf
  have hassoc : written name attributes inner
      = ('<' :: name) ++ ((attributes ++ '>' :: inner) ++ '<' :: '/' :: (name ++ ['>'])) := by
    simp [written]
  rw [hassoc, run_append_of_run (run_startTag hname (by simp)), run_append_of_run hrun,
    run_endTag (isNameMore_of_isPlainName hname), ← hraw, endElement_self, hclose]
  rfl

/-- A start tag without attributes opens its element. -/
theorem run_plainTag {name : List Char} (hname : isPlainName name = true) (f : Frame)
    (outer : List Frame) (root : Option Element) (doctype : Bool) :
    step ⟨.startName name.reverse, ⟨f :: outer, root, doctype⟩⟩ '>'
      = some ⟨.content 0, ⟨.opened name f.scope :: f :: outer, root, doctype⟩⟩ := by
  rw [step_startName (by decide), List.reverse_reverse]
  show (Draft.openTag _ _).map _ = _
  rw [openTag_plain hname]
  rfl

/-- An element with nothing but text reads as one with this text. -/
theorem reads_leaf {name cs : List Char} (hname : isPlainName name = true)
    (hcs : ∀ c ∈ cs, isAllowed c = true) :
    Reads scope (written name [] (cs.flatMap escapeChar))
      [⟨defaultName scope name, [], String.ofList cs, []⟩] := by
  refine reads_written hname fun f outer root doctype hf => ?_
  subst hf
  obtain ⟨k, htext⟩ := @run_escaped 0 (.opened name f.scope) (f :: outer) root doctype rfl cs hcs
  refine ⟨k, { Frame.opened name f.scope with text := cs.reverse ++ [] }, ?_, rfl, ?_⟩
  · rw [List.nil_append, run_cons_of_step (run_plainTag hname f outer root doctype), htext]
    rfl
  · simp [Frame.close, Frame.opened]

/-- An element with nothing but elements reads as one with these children. -/
theorem reads_parent {name inner : List Char} {es : List Element} (hname : isPlainName name = true)
    (h : Reads scope inner es) :
    Reads scope (written name [] inner) [⟨defaultName scope name, [], "", es⟩] := by
  refine reads_written hname fun f outer root doctype hf => ?_
  subst hf
  refine ⟨if inner = [] then 0 else 0,
    { Frame.opened name f.scope with children := es.reverse ++ [] },
    ?_, rfl, ?_⟩
  · rw [List.nil_append, run_cons_of_step (run_plainTag hname f outer root doctype),
      h 0 (.opened name f.scope) (f :: outer) root doctype rfl]
    rfl
  · simp [Frame.close, Frame.opened]

/-! ## Namespaces -/

/-- A text that may be declared as a namespace: every character of it stands for itself in an
attribute, and it is none of the namespaces that the reader keeps for itself. -/
structure Declarable (space : String) : Prop where
  chars : ∀ c ∈ space.toList, isValueChar c = true
  bindable : bindable space = true
  ne_xml : space ≠ xmlSpace
  ne_xmlns : space ≠ xmlnsSpace

theorem declarable_of_letters {space : String} {cs : List Char} (hletters : space.toList = cs)
    (hchars : cs.all (fun c => isValueChar c && c != '}') = true) (hxml : space ≠ xmlSpace)
    (hxmlns : space ≠ xmlnsSpace) : Declarable space := by
  have hboth : ∀ c ∈ cs, isValueChar c = true ∧ c ≠ '}' := by
    simpa using List.all_eq_true.mp hchars
  have hbrace : cs.contains '}' = false := by
    simpa using fun hmem => (hboth _ hmem).2 rfl
  refine ⟨fun c hc => (hboth c (hletters ▸ hc)).1, ?_, hxml, hxmlns⟩
  rw [bindable, hletters, hbrace]
  rfl

/-- An element that declares a default namespace reads as one in it, with what its inside reads as
there. -/
theorem reads_spaced {name inner : List Char} {space : String} {es : List Element}
    (hname : isPlainName name = true) (hspace : Declarable space)
    (h : Reads (("", space) :: scope) inner es) :
    Reads scope (written name (attributeText ['x', 'm', 'l', 'n', 's'] space.toList) inner)
      [⟨defaultName (("", space) :: scope) name, [], "", es⟩] := by
  refine reads_written hname fun f outer root doctype hf => ?_
  subst hf
  have hofList : String.ofList space.toList = space := String.ofList_toList
  have hopen := @openTag_spaced f outer root doctype name space.toList hname
    (by rw [hofList]; exact hspace.bindable) (by rw [hofList]; exact hspace.ne_xml)
    (by rw [hofList]; exact hspace.ne_xmlns)
  rw [hofList] at hopen
  refine ⟨if inner = [] then 0 else 0,
    { Frame.opened name (("", space) :: f.scope) with children := es.reverse ++ [] }, ?_, rfl, ?_⟩
  · have hattribute : run ⟨.startName name.reverse, ⟨f :: outer, root, doctype⟩⟩
        (attributeText ['x', 'm', 'l', 'n', 's'] space.toList)
        = some ⟨.tag ⟨name, [(['x', 'm', 'l', 'n', 's'], space.toList)]⟩ false,
            ⟨f :: outer, root, doctype⟩⟩ := by
      rw [attributeText, run_cons, step_startName (by decide), ← run_cons, List.reverse_reverse,
        ← attributeText, run_attribute (by decide) (List.all_eq_true.mp (by decide)) hspace.chars]
    have hend : step ⟨.tag ⟨name, [(['x', 'm', 'l', 'n', 's'], space.toList)]⟩ false,
        ⟨f :: outer, root, doctype⟩⟩ '>'
        = some ⟨.content 0, ⟨.opened name (("", space) :: f.scope) :: f :: outer, root,
          doctype⟩⟩ := by
      show (Draft.openTag _ _).map _ = _
      rw [hopen]
      rfl
    rw [run_append_of_run hattribute, run_cons_of_step hend,
      h 0 (.opened name (("", space) :: f.scope)) (f :: outer) root doctype rfl]
    rfl
  · simp [Frame.close, Frame.opened]

end Lightpath.Xml
