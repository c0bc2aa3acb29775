import Lightpath.Proofs.Xml.Insertion

/-!
# Documents around a text

An element that is written with any attributes, its name with a prefix or without, is a document with
what its inside reads as. Main statement: `parseChars_written`.
-/

namespace Lightpath.Xml

variable {d : Draft} {raw inner : List Char} {attributes : List (List Char × List Char)} {f : Frame}
  {es items : List Element}

/-! ## Start tags -/

/-- A name as it is written, with a prefix or without. -/
def isWrittenName : List Char → Bool
  | [] => false
  | c :: cs => isNameStart c && cs.all isNameMore

theorem isNameMore_of_isWrittenName (h : isWrittenName raw = true) : ∀ c ∈ raw, isNameMore c = true := by
  cases raw with
  | nil => exact absurd h (by decide)
  | cons c cs =>
    rw [isWrittenName, Bool.and_eq_true, List.all_eq_true] at h
    intro x hx
    rcases List.mem_cons.mp hx with rfl | hx
    · exact isNameMore_of_isNameStart h.1
    · exact h.2 x hx

theorem isWrittenName_of_isPlainName (h : isPlainName raw = true) : isWrittenName raw = true := by
  have hmore := isNameMore_of_isPlainName h
  cases raw with
  | nil => exact absurd h (by decide)
  | cons c cs =>
    rw [isPlainName, Bool.and_eq_true, Bool.and_eq_true] at h
    rw [isWrittenName, h.1.1, Bool.true_and, List.all_eq_true]
    exact fun x hx => hmore x (List.mem_cons_of_mem c hx)

theorem noReturn_of_isWrittenName (h : isWrittenName raw = true) : '\r' ∉ raw := fun hr =>
  absurd (isNameMore_of_isWrittenName h _ hr) (by decide)

/-- The attributes of a tag, one behind the other. -/
def attributesText (attributes : List (List Char × List Char)) : List Char :=
  attributes.flatMap fun a => attributeText a.1 a.2

/-- **A start tag that opens an element as the root**: its attributes can be written, and the
namespaces of all its prefixes are declared. -/
structure Opens (raw : List Char) (attributes : List (List Char × List Char)) (f : Frame) : Prop where
  name : isWrittenName raw = true
  names : ∀ a ∈ attributes, isWrittenName a.1 = true
  values : ∀ a ∈ attributes, ∀ c ∈ a.2, isValueChar c = true
  frame : openFrame? outerScope ⟨raw, attributes.reverse⟩ = some f

/-- Attributes are read one after the other. -/
theorem run_attributesText (hnames : ∀ a ∈ attributes, isWrittenName a.1 = true)
    (hvalues : ∀ a ∈ attributes, ∀ c ∈ a.2, isValueChar c = true) (t : Tag) (gap : Bool) :
    ∃ gap', run ⟨.tag t gap, d⟩ (attributesText attributes)
      = some ⟨.tag { t with attributes := attributes.reverse ++ t.attributes } gap', d⟩ := by
  induction attributes generalizing t gap with
  | nil => exact ⟨gap, rfl⟩
  | cons a attributes ih =>
    obtain ⟨name, value⟩ := a
    have hname := hnames _ List.mem_cons_self
    cases name with
    | nil => exact absurd hname (by simp [isWrittenName])
    | cons c cs =>
      rw [isWrittenName, Bool.and_eq_true, List.all_eq_true] at hname
      have hfirst := @run_attribute d c cs value hname.1 hname.2 (hvalues _ List.mem_cons_self) t gap
      obtain ⟨gap', hrest⟩ := ih (fun b hb => hnames b (List.mem_cons_of_mem _ hb))
        (fun b hb => hvalues b (List.mem_cons_of_mem _ hb))
        { t with attributes := (c :: cs, value) :: t.attributes } false
      refine ⟨gap', ?_⟩
      rw [attributesText, List.flatMap_cons, run_append_of_run hfirst, ← attributesText, hrest,
        List.reverse_cons, List.append_assoc, List.singleton_append]

/-- Behind the name of a tag its attributes are read. -/
theorem run_startName_attributesText (attributes : List (List Char × List Char)) (raw : List Char) :
    run ⟨.startName raw.reverse, d⟩ (attributesText attributes ++ ['>'])
      = run ⟨.tag ⟨raw, []⟩ false, d⟩ (attributesText attributes ++ ['>']) := by
  have hfirst : ∃ c cs, attributesText attributes ++ ['>'] = c :: cs ∧ isNameMore c = false := by
    cases attributes with
    | nil => exact ⟨'>', [], rfl, by decide⟩
    | cons a attributes => exact ⟨' ', _, rfl, by decide⟩
  obtain ⟨c, cs, htext, hc⟩ := hfirst
  rw [htext, run_cons, run_cons, step_startName hc, List.reverse_reverse]

/-- A start tag opens a document. -/
theorem run_rootTag (h : Opens raw attributes f) :
    run State.initial ('<' :: (raw ++ (attributesText attributes ++ ['>'])))
      = some ⟨.content 0, ⟨[f], none, false⟩⟩ := by
  have hmore := isNameMore_of_isWrittenName h.name
  have hname := h.name
  cases raw with
  | nil => exact absurd hname (by decide)
  | cons c cs =>
    rw [isWrittenName, Bool.and_eq_true] at hname
    have hstart := hname.1
    have hless : step State.initial '<' = some ⟨.less true, State.initial.draft⟩ := rfl
    have hfirst : step ⟨.less true, State.initial.draft⟩ c
        = some ⟨.startName [c], State.initial.draft⟩ := by
      show lessStep State.initial.draft true c = _
      rw [lessStep, if_neg (by rintro rfl; exact absurd hstart (by decide)),
        if_neg (by rintro rfl; exact absurd hstart (by decide)),
        if_neg (by rintro rfl; exact absurd hstart (by decide)), if_pos]
      rw [hstart]
      rfl
    obtain ⟨gap, hattributes⟩ := @run_attributesText State.initial.draft attributes h.names h.values
      ⟨c :: cs, []⟩ false
    have hend : step ⟨.tag ⟨c :: cs, attributes.reverse ++ []⟩ gap, State.initial.draft⟩ '>'
        = some ⟨.content 0, ⟨[f], none, false⟩⟩ := by
      show (Draft.openTag _ _).map _ = _
      rw [List.append_nil, openTag_eq]
      show ((openFrame? outerScope _).map _).map _ = _
      rw [h.frame]
      rfl
    rw [run_cons_of_step hless, List.cons_append, run_cons_of_step hfirst, run_append_of_run
      (run_collect .startName (fun x hx _ => if_pos (hmore x (List.mem_cons_of_mem c hx))) [c]),
      ← List.reverse_cons, run_startName_attributesText, run_append_of_run hattributes,
      run_cons_of_step hend, run_nil]

/-! ## Documents -/

/-- A start tag has no carriage returns. -/
theorem Opens.noReturn (h : Opens raw attributes f) :
    '\r' ∉ raw ∧ '\r' ∉ attributesText attributes := by
  refine ⟨noReturn_of_isWrittenName h.name, fun hr => ?_⟩
  obtain ⟨a, ha, hr⟩ := List.mem_flatMap.mp hr
  have hvalue : '\r' ∉ a.2 := fun hr => absurd (h.values a ha _ hr) (by decide)
  exact noReturn_attributeText (noReturn_of_isWrittenName (h.names a ha)) hvalue hr

/-- **Between the tags of an element a text is a document**: the element, with what the text reads as
inside. -/
theorem parseChars_written (h : Opens raw attributes f) (hinner : '\r' ∉ inner)
    (hreads : Reads f.scope inner es) :
    parseChars (written raw (attributesText attributes) inner)
      = some ⟨f.name, f.attributes, "", es⟩ := by
  obtain ⟨hraw, hattributes⟩ := h.noReturn
  obtain ⟨hself, htext, hchildren⟩ := fresh_of_openFrame? h.frame
  have hreturn := noReturn_written hraw hattributes hinner
  have hparts : written raw (attributesText attributes) inner
      = ('<' :: (raw ++ (attributesText attributes ++ ['>'])))
        ++ (inner ++ '<' :: '/' :: (raw ++ ['>'])) := by
    simp [written]
  have hmark : withoutMark (written raw (attributesText attributes) inner)
      = written raw (attributesText attributes) inner :=
    withoutMark_cons (by decide) _
  rw [parseChars_eq, hmark, unifyLineEnds_eq_self hreturn, hparts, run_append_of_run (run_rootTag h),
    run_append_of_run (hreads 0 f [] none false rfl),
    run_endTag (isNameMore_of_isWrittenName h.name)]
  simp [endElement, hself, Draft.closeTag, Frame.close, State.document?, htext, hchildren]

/-- A start tag without a prefix and without attributes opens an element. -/
theorem opens_plain (h : isPlainName raw = true) : Opens raw [] (.opened raw outerScope) where
  name := isWrittenName_of_isPlainName h
  names := by simp
  values := by simp
  frame := by
    simp [openFrame?, splitName_of_isPlainName h, elementName_none, allDistinct, Frame.opened]

/-- A start tag that declares a default namespace opens an element in it. -/
theorem opens_spaced {space : String} (h : isPlainName raw = true) (hspace : Declarable space) :
    Opens raw [(['x', 'm', 'l', 'n', 's'], space.toList)]
      (.opened raw (("", space) :: outerScope)) where
  name := isWrittenName_of_isPlainName h
  names := by
    intro a ha
    rw [List.mem_singleton.mp ha]
    show isWrittenName ['x', 'm', 'l', 'n', 's'] = true
    decide
  values := by
    intro a ha
    rw [List.mem_singleton.mp ha]
    exact hspace.chars
  frame := by
    have hattribute : splitName ['x', 'm', 'l', 'n', 's'] = some (none, "xmlns") := by decide +kernel
    simp [openFrame?, splitName_of_isPlainName h, hattribute, elementName_none, allDistinct, bind,
      isDeclaration, hspace.bindable, hspace.ne_xml, hspace.ne_xmlns, Frame.opened]

/-- A name with a prefix is split at its colon. -/
theorem splitName_prefixed {p n : List Char} (hp : isPlainName p = true) (hn : isPlainName n = true) :
    splitName (p ++ ':' :: n) = some (some (String.ofList p), String.ofList n) := by
  have hbefore : ∀ c ∈ p, decide (c ≠ ':') = true := fun c hc =>
    decide_eq_true (ne_colon_of_isPlainName hp c hc)
  have hbehind : ':' ∉ n := fun hmem => ne_colon_of_isPlainName hn _ hmem rfl
  have hne : p ≠ [] := by
    rintro rfl
    exact absurd hp (by decide)
  rw [splitName, List.takeWhile_append_of_pos hbefore, List.dropWhile_append_of_pos hbefore,
    List.takeWhile_cons_of_neg (by simp), List.dropWhile_cons_of_neg (by simp), List.append_nil]
  cases n with
  | nil => exact absurd hn (by decide)
  | cons c cs =>
    rw [isPlainName, Bool.and_eq_true, Bool.and_eq_true] at hn
    simp [hn.1.1, List.contains_eq_mem, hbehind, hne]

theorem isWrittenName_prefixed {p n : List Char} (hp : isPlainName p = true)
    (hn : isPlainName n = true) : isWrittenName (p ++ ':' :: n) = true := by
  have hmore : ∀ c ∈ p ++ ':' :: n, isNameMore c = true := by
    intro c hc
    rcases List.mem_append.mp hc with hc | hc
    · exact isNameMore_of_isPlainName hp c hc
    · rcases List.mem_cons.mp hc with rfl | hc
      · decide
      · exact isNameMore_of_isPlainName hn c hc
  cases p with
  | nil => exact absurd hp (by decide)
  | cons c cs =>
    rw [isPlainName, Bool.and_eq_true, Bool.and_eq_true] at hp
    rw [List.cons_append, isWrittenName, hp.1.1, Bool.true_and, List.all_eq_true]
    exact fun x hx => hmore x (List.mem_cons_of_mem c hx)

/-- A start tag whose prefix it declares opens an element in the namespace of the prefix. -/
theorem opens_prefixed {p n : List Char} {space : String} (hp : isPlainName p = true)
    (hn : isPlainName n = true) (hxml : String.ofList p ≠ "xml") (hxmlns : String.ofList p ≠ "xmlns")
    (hspace : Declarable space) (hne : space ≠ "") :
    Opens (p ++ ':' :: n) [(['x', 'm', 'l', 'n', 's'] ++ ':' :: p, space.toList)]
      ⟨p ++ ':' :: n, ⟨some space, String.ofList n⟩, [], (String.ofList p, space) :: outerScope, [],
        []⟩ where
  name := isWrittenName_prefixed hp hn
  names := by
    intro a ha
    rw [List.mem_singleton.mp ha]
    exact isWrittenName_prefixed (by decide) hp
  values := by
    intro a ha
    rw [List.mem_singleton.mp ha]
    exact hspace.chars
  frame := by
    have hname := splitName_prefixed hp hn
    have hattribute := splitName_prefixed (p := ['x', 'm', 'l', 'n', 's']) (by decide) hp
    have hxmlnsName : String.ofList ['x', 'm', 'l', 'n', 's'] = "xmlns" := by decide +kernel
    have hbind : bind outerScope (some "xmlns", String.ofList p) space
        = some ((String.ofList p, space) :: outerScope) := by
      simp [bind, hxml, hxmlns, hne, hspace.bindable, hspace.ne_xml, hspace.ne_xmlns]
    rw [hxmlnsName] at hattribute
    generalize ['x', 'm', 'l', 'n', 's'] ++ ':' :: p = declared at hattribute
    simp [openFrame?, hname, hattribute, allDistinct, hbind, isDeclaration, elementName,
      List.lookup_cons_self]

/-- The same for a text that can be put between the parts of any element, in an element without
attributes. -/
theorem Inserts.parseChars_written (h : Inserts inner items) (hname : isPlainName raw = true) :
    parseChars (written raw [] inner) = some ⟨defaultName outerScope raw, [], "", items⟩ :=
  Xml.parseChars_written (opens_plain hname) h.noReturn (h.reads _)

end Lightpath.Xml
