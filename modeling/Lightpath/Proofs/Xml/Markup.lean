import Lightpath.Xml.Reader
import Mathlib.Data.List.TakeWhile

/-!
# Reading markup

What the reader does with a tag as a whole. A start tag opens an element, an end tag of its name
closes it, and escaped text between them is read as the text that was escaped. Main statements:
`run_startTag`, `run_attribute`, `run_endTag` and `run_escaped`.
-/

namespace Lightpath.Xml

variable {d : Draft} {k : Nat}

/-! ## Runs -/

theorem run_nil (s : State) : run s [] = some s := rfl

theorem run_cons (s : State) (c : Char) (cs : List Char) :
    run s (c :: cs) = (step s c).bind (run · cs) := by
  rw [run, List.foldlM_cons]
  rfl

/-- A step is made before the rest is read. -/
theorem run_cons_of_step {s t : State} {c : Char} (h : step s c = some t) (cs : List Char) :
    run s (c :: cs) = run t cs := by
  rw [run_cons, h, Option.bind_some]

/-- One text is read before the next. -/
theorem run_append_of_run {s t : State} {cs : List Char} (h : run s cs = some t) (ds : List Char) :
    run s (cs ++ ds) = run t ds := by
  rw [run_append, h, Option.bind_some]

/-! ## Names -/

/-- A name that has no prefix. -/
def isPlainName : List Char → Bool
  | [] => false
  | c :: cs => isNameStart c && c != ':' && cs.all fun c => isNameMore c && c != ':'

/-- A character that can start a name can stand in it. -/
theorem isNameMore_of_isNameStart {c : Char} (h : isNameStart c = true) : isNameMore c = true := by
  rw [isNameMore, h, Bool.true_or]

/-- The characters of a plain name can stand in a name, -/
theorem isNameMore_of_isPlainName {name : List Char} (h : isPlainName name = true) :
    ∀ c ∈ name, isNameMore c = true := by
  cases name with
  | nil => exact absurd h (by decide)
  | cons c cs =>
    rw [isPlainName, Bool.and_eq_true, Bool.and_eq_true, List.all_eq_true] at h
    intro x hx
    rcases List.mem_cons.mp hx with rfl | hx
    · exact isNameMore_of_isNameStart h.1.1
    · exact (Bool.and_eq_true_iff.mp (h.2 x hx)).1

/-- and none of them is a colon. -/
theorem ne_colon_of_isPlainName {name : List Char} (h : isPlainName name = true) :
    ∀ c ∈ name, c ≠ ':' := by
  cases name with
  | nil => exact absurd h (by decide)
  | cons c cs =>
    rw [isPlainName, Bool.and_eq_true, Bool.and_eq_true, List.all_eq_true] at h
    intro x hx
    rcases List.mem_cons.mp hx with rfl | hx
    · simpa using h.1.2
    · simpa using (Bool.and_eq_true_iff.mp (h.2 x hx)).2

/-- A plain name has no prefix to be split off. -/
theorem splitName_of_isPlainName {name : List Char} (h : isPlainName name = true) :
    splitName name = some (none, String.ofList name) := by
  have hne : ∀ c ∈ name, decide (c ≠ ':') = true := fun c hc =>
    decide_eq_true (ne_colon_of_isPlainName h c hc)
  rw [splitName, List.takeWhile_eq_self_iff.mpr hne, List.dropWhile_eq_nil_iff.mpr hne]

/-- Characters that are collected one by one are collected all together, last one first. -/
theorem run_collect (mode : List Char → Mode) {cs : List Char}
    (h : ∀ c ∈ cs, ∀ read, step ⟨mode read, d⟩ c = some ⟨mode (c :: read), d⟩) (read : List Char) :
    run ⟨mode read, d⟩ cs = some ⟨mode (cs.reverse ++ read), d⟩ := by
  induction cs generalizing read with
  | nil => rfl
  | cons c cs ih =>
    rw [run_cons_of_step (h c List.mem_cons_self read),
      ih fun x hx => h x (List.mem_cons_of_mem c hx), List.reverse_cons, List.append_assoc,
      List.singleton_append]

/-! ## Tags -/

/-- An opening bracket and a name start a tag inside an open element. -/
theorem run_startTag {name : List Char} (h : isPlainName name = true) (hd : d.frames ≠ []) :
    run ⟨.content k, d⟩ ('<' :: name) = some ⟨.startName name.reverse, d⟩ := by
  have hmore := isNameMore_of_isPlainName h
  cases name with
  | nil => exact absurd h (by decide)
  | cons c cs =>
    rw [isPlainName, Bool.and_eq_true, Bool.and_eq_true] at h
    have hstart := h.1.1
    have hless : step ⟨.content k, d⟩ '<' = some ⟨.less false, d⟩ := rfl
    have hname : step ⟨.less false, d⟩ c = some ⟨.startName [c], d⟩ := by
      show lessStep d false c = _
      rw [lessStep, if_neg (by rintro rfl; exact absurd hstart (by decide)),
        if_neg (by rintro rfl; exact absurd hstart (by decide)),
        if_neg (by rintro rfl; exact absurd hstart (by decide)), if_pos]
      rw [hstart, Bool.true_and, Bool.not_eq_true', Bool.and_eq_false_iff]
      exact Or.inl (List.isEmpty_eq_false_iff.mpr hd)
    rw [run_cons_of_step hless, run_cons_of_step hname,
      run_collect .startName fun x hx _ => if_pos (hmore x (List.mem_cons_of_mem c hx)),
      List.reverse_cons]

/-- Behind its name a tag is inside. -/
theorem step_startName {raw : List Char} {c : Char} (h : isNameMore c = false) :
    step ⟨.startName raw, d⟩ c = step ⟨.tag ⟨raw.reverse, []⟩ false, d⟩ c :=
  if_neg (by rw [h]; decide)

/-- An attribute as it is written in a tag. -/
def attributeText (name value : List Char) : List Char :=
  ' ' :: (name ++ '=' :: '"' :: (value ++ ['"']))

/-- A character that stands for itself in the value of an attribute. -/
def isValueChar (c : Char) : Bool :=
  isAllowed c && c != '"' && c != '<' && c != '&' && c != '\t' && c != '\n' && c != '\r'

/-- A character of a value is collected as it is. -/
theorem step_value {c : Char} (h : isValueChar c = true) (t : Tag) (name read : List Char) :
    step ⟨.value t name '"' read, d⟩ c = some ⟨.value t name '"' (c :: read), d⟩ := by
  simp only [isValueChar, Bool.and_eq_true, bne_iff_ne] at h
  obtain ⟨⟨⟨⟨⟨⟨hallowed, hquote⟩, hless⟩, hamp⟩, htab⟩, hline⟩, -⟩ := h
  show (if c = '"' then _ else _) = _
  rw [if_neg hquote, if_neg hless, if_neg hamp]
  by_cases hgap : isGap c = true
  · -- of the white space only the space itself is left
    have hspace : c = ' ' := by
      simp only [isGap, Bool.or_eq_true, beq_iff_eq] at hgap
      rcases hgap with (hgap | hgap) | hgap
      · exact hgap
      · exact absurd hgap htab
      · exact absurd hgap hline
    rw [if_pos hgap, hspace]
  · rw [if_neg hgap, if_pos hallowed]

/-- An attribute is put in front of the attributes that the tag has so far. -/
theorem run_attribute {first : Char} {more value : List Char} (hfirst : isNameStart first = true)
    (hmore : ∀ c ∈ more, isNameMore c = true) (hvalue : ∀ c ∈ value, isValueChar c = true) (t : Tag)
    (gap : Bool) :
    run ⟨.tag t gap, d⟩ (attributeText (first :: more) value)
      = some ⟨.tag { t with attributes := (first :: more, value) :: t.attributes } false, d⟩ := by
  have hgap : step ⟨.tag t gap, d⟩ ' ' = some ⟨.tag t true, d⟩ := rfl
  have hname : step ⟨.tag t true, d⟩ first = some ⟨.attributeName t [first], d⟩ := by
    -- a character that starts a name is no gap and ends no tag
    show tagStep d t true first = _
    rw [tagStep, if_neg, if_neg (by rintro rfl; exact absurd hfirst (by decide)),
      if_neg (by rintro rfl; exact absurd hfirst (by decide)), if_pos]
    · rw [hfirst, Bool.true_and]
    · intro h
      simp only [isGap, Bool.or_eq_true, beq_iff_eq] at h
      rcases h with (rfl | rfl) | rfl
      · exact absurd hfirst (by decide)
      · exact absurd hfirst (by decide)
      · exact absurd hfirst (by decide)
  have hequals : step ⟨.attributeName t (more.reverse ++ [first]), d⟩ '='
      = some ⟨.quote t (first :: more), d⟩ := by
    show some (State.mk (.quote t (more.reverse ++ [first]).reverse) d) = _
    rw [List.reverse_append, List.reverse_reverse, List.reverse_singleton, List.singleton_append]
  have hquote : step ⟨.quote t (first :: more), d⟩ '"'
      = some ⟨.value t (first :: more) '"' [], d⟩ := rfl
  have hend : step ⟨.value t (first :: more) '"' (value.reverse ++ []), d⟩ '"'
      = some ⟨.tag { t with attributes := (first :: more, value) :: t.attributes } false, d⟩ := by
    show some (State.mk (.tag { t with attributes :=
      (first :: more, (value.reverse ++ []).reverse) :: t.attributes } false) d) = _
    rw [List.append_nil, List.reverse_reverse]
  rw [attributeText, run_cons_of_step hgap, List.cons_append, run_cons_of_step hname,
    run_append_of_run
      (run_collect (.attributeName t) (fun c hc _ => if_pos (hmore c hc)) [first]),
    run_cons_of_step hequals,
    run_cons_of_step hquote, run_append_of_run
      (run_collect (.value t (first :: more) '"') (fun c hc => step_value (hvalue c hc) _ _) []),
    run_cons_of_step hend, run_nil]

/-- An end tag closes the innermost element if it has its name, with a prefix or without. -/
theorem run_endTag {name : List Char} (h : ∀ c ∈ name, isNameMore c = true) :
    run ⟨.content k, d⟩ ('<' :: '/' :: (name ++ ['>'])) = endElement d name := by
  have hless : step ⟨.content k, d⟩ '<' = some ⟨.less false, d⟩ := rfl
  have hslash : step ⟨.less false, d⟩ '/' = some ⟨.endName [], d⟩ := rfl
  have hend : step ⟨.endName name.reverse, d⟩ '>' = endElement d name := by
    show endElement d name.reverse.reverse = _
    rw [List.reverse_reverse]
  rw [run_cons_of_step hless, run_cons_of_step hslash,
    run_append_of_run
      (run_collect .endName (fun c hc _ => if_pos (h c hc)) []),
    List.append_nil, run_cons, hend]
  cases endElement d name <;> rfl

/-! ## Text -/

variable {f : Frame} {outer : List Frame} {root : Option Element} {doctype : Bool}

/-- An escaped character is read as the character that was escaped. -/
theorem run_escapeChar (hf : f.children = []) {c : Char} (hc : isAllowed c = true) :
    ∃ k', run ⟨.content k, ⟨f :: outer, root, doctype⟩⟩ (escapeChar c)
      = some ⟨.content k', ⟨{ f with text := c :: f.text } :: outer, root, doctype⟩⟩ := by
  obtain ⟨raw, name, attributes, scope, text, children⟩ := f
  obtain rfl : children = [] := hf
  rw [escapeChar]
  by_cases hamp : c = '&'
  · rw [if_pos hamp, hamp]
    exact ⟨0, rfl⟩
  rw [if_neg hamp]
  by_cases hless : c = '<'
  · rw [if_pos hless, hless]
    exact ⟨0, rfl⟩
  rw [if_neg hless]
  by_cases hgreater : c = '>'
  · rw [if_pos hgreater, hgreater]
    exact ⟨0, rfl⟩
  rw [if_neg hgreater]
  -- closing brackets are counted, since two of them may stand in no text in front of a greater sign
  refine ⟨if c = ']' then min 2 (k + 1) else 0, ?_⟩
  have hstep :
      step ⟨.content k, ⟨⟨raw, name, attributes, scope, text, []⟩ :: outer, root, doctype⟩⟩ c
      = some ⟨.content (if c = ']' then min 2 (k + 1) else 0),
        ⟨⟨raw, name, attributes, scope, c :: text, []⟩ :: outer, root, doctype⟩⟩ := by
    show contentStep _ k c = _
    rw [contentStep, if_neg hless, if_neg hamp, if_neg fun h => hgreater h.1, if_pos hc]
    rfl
  rw [run_cons_of_step hstep, run_nil]

/-- Escaped text is read as the text that was escaped. -/
theorem run_escaped (hf : f.children = []) {cs : List Char} (hcs : ∀ c ∈ cs, isAllowed c = true) :
    ∃ k', run ⟨.content k, ⟨f :: outer, root, doctype⟩⟩ (cs.flatMap escapeChar)
      = some ⟨.content k', ⟨{ f with text := cs.reverse ++ f.text } :: outer, root, doctype⟩⟩ := by
  induction cs generalizing k f with
  | nil => exact ⟨k, rfl⟩
  | cons c cs ih =>
    obtain ⟨k', hc⟩ := @run_escapeChar k f outer root doctype hf c (hcs c List.mem_cons_self)
    obtain ⟨k'', hrest⟩ := @ih k' { f with text := c :: f.text } hf
      fun x hx => hcs x (List.mem_cons_of_mem c hx)
    refine ⟨k'', ?_⟩
    rw [List.flatMap_cons, run_append_of_run hc, hrest, List.reverse_cons, List.append_assoc,
      List.singleton_append]

/-! ## Opening -/

/-- The full name of an element without a prefix. -/
def defaultName (scope : Scope) (name : List Char) : Name :=
  ⟨if scope.lookup "" = some "" then none else scope.lookup "", String.ofList name⟩

/-- A name without a prefix is in the default namespace. -/
theorem elementName_none (scope : Scope) (name : List Char) :
    elementName scope (none, String.ofList name) = some (defaultName scope name) := by
  rw [elementName, defaultName]
  split
  · rename_i hempty
    rw [if_pos hempty]
  · rename_i hother
    rw [if_neg hother]

/-- An element of a scope that has just been opened, without a prefix and without attributes. -/
def Frame.opened (name : List Char) (scope : Scope) : Frame :=
  ⟨name, defaultName scope name, [], scope, [], []⟩

/-- A tag without attributes opens an element in the scope around it. -/
theorem openTag_plain {name : List Char} (h : isPlainName name = true) :
    Draft.openTag ⟨f :: outer, root, doctype⟩ ⟨name, []⟩
      = some ⟨.opened name f.scope :: f :: outer, root, doctype⟩ := by
  simp [Draft.openTag, splitName_of_isPlainName h, elementName_none, allDistinct, Frame.opened]

/-- A tag that declares a default namespace opens an element in this namespace. -/
theorem openTag_spaced {name space : List Char} (h : isPlainName name = true)
    (hspace : bindable (String.ofList space) = true) (hxml : String.ofList space ≠ xmlSpace)
    (hxmlns : String.ofList space ≠ xmlnsSpace) :
    Draft.openTag ⟨f :: outer, root, doctype⟩ ⟨name, [(['x', 'm', 'l', 'n', 's'], space)]⟩
      = some ⟨.opened name (("", String.ofList space) :: f.scope) :: f :: outer, root,
        doctype⟩ := by
  have hattribute : splitName ['x', 'm', 'l', 'n', 's'] = some (none, "xmlns") := by decide +kernel
  simp [Draft.openTag, splitName_of_isPlainName h, hattribute, elementName_none, allDistinct, bind,
    isDeclaration, hspace, hxml, hxmlns, Frame.opened]

end Lightpath.Xml
