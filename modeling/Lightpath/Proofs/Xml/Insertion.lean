import Lightpath.Proofs.Xml.LineEnds
import Lightpath.Proofs.Xml.Simulation
import Lightpath.Proofs.Xml.Tree

/-!
# Putting elements into a document

A text that reads as some elements can be put between the parts of any element of a document. What
comes out is the same tree with these elements in that place; only the running text of the element
itself may differ, since of this text only what stands before the first child is kept. Main
statement: `parseChars_insert`.
-/

namespace Lightpath.Xml

variable {P : Name → Prop} {items : List Element}

/-! ## Trees -/

/-- One element is another with some elements put into it, or into an element inside it. The element
that they are put into and those around it have names with a property. -/
inductive Grows (P : Name → Prop) (items : List Element) : Element → Element → Prop where
  | here {name : Name} {attributes : List (Name × String)} (text text' : String)
      {before after : List Element} (h : P name) :
      Grows P items ⟨name, attributes, text, before ++ after⟩
        ⟨name, attributes, text', before ++ items ++ after⟩
  | inside {name : Name} {attributes : List (Name × String)} {text : String}
      {before after : List Element} {e e' : Element} (h : P name) (he : Grows P items e e') :
      Grows P items ⟨name, attributes, text, before ++ e :: after⟩
        ⟨name, attributes, text, before ++ e' :: after⟩

namespace Grows

/-- Elements of a name that no element around the place has are kept, and those of what is put in
are added. -/
theorem allNamed {e e' : Element} (h : Grows P items e e') {n : String}
    (hn : ∀ name, P name → name.localPart ≠ n) :
    ∃ before after, e.allNamed n = before ++ after ∧
      e'.allNamed n = before ++ items.flatMap (·.allNamed n) ++ after := by
  have hnot {name : Name} (hname : P name) (attributes : List (Name × String)) (text : String)
      (children : List Element) :
      Element.isNamed ⟨name, attributes, text, children⟩ n = false :=
    beq_eq_false_iff_ne.mpr (hn name hname)
  induction h with
  | @here name attributes text text' before after hname =>
    refine ⟨before.flatMap (·.allNamed n), after.flatMap (·.allNamed n), ?_, ?_⟩
    · rw [Element.allNamed_of_not_isNamed (hnot hname _ _ _), List.flatMap_append]
    · rw [Element.allNamed_of_not_isNamed (hnot hname _ _ _), List.flatMap_append,
        List.flatMap_append]
  | @inside name attributes text before after e e' hname he ih =>
    obtain ⟨pre, post, hpre, hpost⟩ := ih
    refine ⟨before.flatMap (·.allNamed n) ++ pre, post ++ after.flatMap (·.allNamed n), ?_, ?_⟩
    · rw [Element.allNamed_of_not_isNamed (hnot hname _ _ _), List.flatMap_append,
        List.flatMap_cons, hpre]
      simp only [List.append_assoc]
    · rw [Element.allNamed_of_not_isNamed (hnot hname _ _ _), List.flatMap_append,
        List.flatMap_cons, hpost]
      simp only [List.append_assoc]

/-- What follows as the last child of both leaves them as they were to each other. -/
theorem snoc {e e' : Element} (h : Grows P items e e') (x : Element) :
    Grows P items { e with children := e.children ++ [x] }
      { e' with children := e'.children ++ [x] } := by
  cases h with
  | @here name attributes text text' before after hname =>
    simp only [List.append_assoc]
    rw [← List.append_assoc before items]
    exact .here _ _ hname
  | inside hname he =>
    simp only [List.append_assoc, List.cons_append]
    exact .inside hname he

/-- Running text can only make a difference in the element that the others are put into. -/
theorem retext {e e' : Element} (h : Grows P items e e') (he : e.children = []) (text : String) :
    Grows P items { e with text := text } e' := by
  cases h with
  | here text text' hname => exact .here _ _ hname
  | inside hname _ => exact absurd he (by simp)

end Grows

/-! ## Open elements -/

/-- The same for an element that is still open. In the second one there is a child already. -/
structure Frame.Grows (P : Name → Prop) (items : List Element) (f f' : Frame) : Prop where
  raw : f'.raw = f.raw
  scope : f'.scope = f.scope
  child : f'.children ≠ []
  close : Xml.Grows P items f.close f'.close

namespace Frame.Grows

variable {f f' : Frame}

/-- Another child is put into both elements. -/
theorem cons (h : Frame.Grows P items f f') (x : Element) :
    Frame.Grows P items { f with children := x :: f.children }
      { f' with children := x :: f'.children } where
  raw := h.raw
  scope := h.scope
  child := List.cons_ne_nil _ _
  close := by
    simp only [Frame.close, List.reverse_cons]
    exact h.close.snoc x

theorem text (h : Frame.Grows P items f f') (hf : f.children = []) (text : List Char) :
    Frame.Grows P items { f with text := text } f' where
  raw := h.raw
  scope := h.scope
  child := h.child
  close := h.close.retext (by rw [Frame.close, hf, List.reverse_nil]) _

/-- An element around two that grow grows. -/
theorem around {g : Frame} (h : Xml.Grows P items f.close f'.close) (hg : P g.name) :
    Frame.Grows P items { g with children := f.close :: g.children }
      { g with children := f'.close :: g.children } where
  raw := rfl
  scope := rfl
  child := List.cons_ne_nil _ _
  close := by
    simp only [Frame.close, List.reverse_cons]
    exact .inside hg h

end Frame.Grows

/-! ## Drafts -/

theorem addText_of_nil {f : Frame} {outer : List Frame} {root : Option Element} {doctype : Bool}
    (hf : f.children = []) (c : Char) :
    Draft.addText ⟨f :: outer, root, doctype⟩ c
      = some ⟨{ f with text := c :: f.text } :: outer, root, doctype⟩ := by
  rw [Draft.addText]
  simp only [hf]

/-- Text behind a child is not kept. -/
theorem addText_of_ne_nil {f : Frame} {outer : List Frame} {root : Option Element} {doctype : Bool}
    (hf : f.children ≠ []) (c : Char) :
    Draft.addText ⟨f :: outer, root, doctype⟩ c = some ⟨f :: outer, root, doctype⟩ := by
  rw [Draft.addText]
  cases hchildren : f.children with
  | nil => exact absurd hchildren hf
  | cons x children => simp only [hchildren]

/-- One draft is another with some elements put into one of its open elements or, once this is
closed, into its root. -/
inductive Draft.Grows (P : Name → Prop) (items : List Element) : Draft → Draft → Prop where
  | opened (above : List Frame) {below : List Frame} {f f' : Frame} {root : Option Element}
    {doctype : Bool}
      (h : f.Grows P items f') (hbelow : ∀ g ∈ below, P g.name) :
      Draft.Grows P items ⟨above ++ f :: below, root, doctype⟩ ⟨above ++ f' :: below, root, doctype⟩
  | closed {root root' : Element} {doctype : Bool} (h : Xml.Grows P items root root') :
      Draft.Grows P items ⟨[], some root, doctype⟩ ⟨[], some root', doctype⟩

namespace Draft.Grows

/-- The same character is added to both texts. -/
theorem addText {d e : Draft} (h : d.Grows P items e) (c : Char) :
    Follows (Draft.Grows P items) (d.addText c) (e.addText c) := by
  cases h with
  | @opened above below f f' root doctype hf hbelow =>
    cases above with
    | nil =>
      rw [List.nil_append, List.nil_append, addText_of_ne_nil hf.child]
      by_cases hchildren : f.children = []
      · rw [addText_of_nil hchildren]
        exact Follows.of_some (.opened [] (hf.text hchildren _) hbelow)
      · rw [addText_of_ne_nil hchildren]
        exact Follows.of_some (.opened [] hf hbelow)
    | cons g above =>
      rw [List.cons_append, List.cons_append]
      by_cases hchildren : g.children = []
      · rw [addText_of_nil hchildren, addText_of_nil hchildren]
        exact Follows.of_some (.opened ({ g with text := c :: g.text } :: above) hf hbelow)
      · rw [addText_of_ne_nil hchildren, addText_of_ne_nil hchildren]
        exact Follows.of_some (.opened (g :: above) hf hbelow)
  | closed hroot => exact Follows.of_none _ _

/-- An element that is closed goes into the parent on both sides. -/
theorem closeTag {d e : Draft} (h : d.Grows P items e) :
    Follows (Draft.Grows P items) d.closeTag e.closeTag := by
  cases h with
  | @opened above below f f' root doctype hf hbelow =>
    match above with
    | [] =>
      cases below with
      | nil => exact Follows.of_some (.closed hf.close)
      | cons g below =>
        have hg : P g.name := hbelow g List.mem_cons_self
        exact Follows.of_some (.opened [] (Frame.Grows.around hf.close hg)
          fun x hx => hbelow x (List.mem_cons_of_mem g hx))
    | [g] => exact Follows.of_some (.opened [] (hf.cons g.close) hbelow)
    | g :: k :: above =>
      exact Follows.of_some
        (.opened ({ k with children := g.close :: k.children } :: above) hf hbelow)
  | closed hroot => exact Follows.of_none _ _

end Draft.Grows

/-- Elements that are put in make no difference to the reader. -/
theorem alike_grows (P : Name → Prop) (items : List Element) : Alike (Draft.Grows P items) where
  isEmpty := by
    rintro d e (@⟨above, below, f, f', root, doctype, hf, hbelow⟩ | _)
    · cases above <;> rfl
    · rfl
  root := by
    rintro d e (_ | _) <;> rfl
  doctype := by
    rintro d e (_ | _) <;> rfl
  raw := by
    rintro d e (@⟨above, below, f, f', root, doctype, hf, hbelow⟩ | _)
    · cases above with
      | nil => simp [hf.raw]
      | cons g above => rfl
    · rfl
  scope := by
    rintro d e (@⟨above, below, f, f', root, doctype, hf, hbelow⟩ | _)
    · cases above with
      | nil => exact hf.scope.symm
      | cons g above => rfl
    · rfl
  declare := by
    rintro d e (@⟨above, below, f, f', root, doctype, hf, hbelow⟩ | @⟨root, root', doctype, h⟩)
    · exact .opened above hf hbelow
    · exact .closed h
  push := by
    rintro d e (@⟨above, below, f, f', root, doctype, hf, hbelow⟩ | _) hopen g - -
    · exact .opened (g :: above) hf hbelow
    · exact absurd (hopen rfl) (by simp)
  addText := fun h c _ => h.addText c
  closeTag := fun h => h.closeTag

/-! ## Documents -/

/-- A text without the byte order mark that may stand in front of it. -/
def withoutMark (cs : List Char) : List Char :=
  match cs with
  | '\uFEFF' :: rest => rest
  | _ => cs

theorem withoutMark_cons {c : Char} (hc : c ≠ '\uFEFF') (cs : List Char) :
    withoutMark (c :: cs) = c :: cs := by
  rw [withoutMark]
  intro rest h
  exact absurd (List.cons.inj h).1 hc

theorem parseChars_eq (cs : List Char) :
    parseChars cs = (run State.initial (unifyLineEnds (withoutMark cs))).bind State.document? := rfl

/-- **There is room for elements behind a text**: it ends between the parts of an open element, and
this element and those around it have names with a property. -/
def Room (P : Name → Prop) (before : List Char) : Prop :=
  ∃ k d, run State.initial (unifyLineEnds (withoutMark before)) = some ⟨.content k, d⟩ ∧
    d.frames ≠ [] ∧ ∀ f ∈ d.frames, P f.name

/-- The same as a test. -/
def hasRoom (p : Name → Bool) (before : List Char) : Bool :=
  match run State.initial (unifyLineEnds (withoutMark before)) with
  | some ⟨.content _, d⟩ => !d.frames.isEmpty && d.frames.all fun f => p f.name
  | _ => false

/-- Where the room is found by running the reader there is room. -/
theorem room_of_hasRoom {p : Name → Bool} {before : List Char} (h : hasRoom p before = true)
    (hp : ∀ name, p name = true → P name) : Room P before := by
  rw [hasRoom] at h
  split at h
  · rename_i k d hrun
    rw [Bool.and_eq_true, Bool.not_eq_true', List.isEmpty_eq_false_iff, List.all_eq_true] at h
    exact ⟨k, d, hrun, h.1, fun f hf => hp f.name (h.2 f hf)⟩
  · exact absurd h (by decide)

/-- A text behind which there is room is not empty, so it alone may start with a mark. -/
theorem Room.withoutMark_append {before : List Char} (h : Room P before) (cs : List Char) :
    withoutMark (before ++ cs) = withoutMark before ++ cs := by
  cases before with
  | nil =>
    obtain ⟨k, d, hrun, -⟩ := h
    have hrun : some State.initial = some ⟨.content k, d⟩ := hrun
    exact absurd (congrArg State.mode (Option.some.inj hrun)) (by simp [State.initial])
  | cons c before =>
    by_cases hc : c = '\uFEFF'
    · subst hc
      rfl
    · rw [List.cons_append, withoutMark_cons hc, withoutMark_cons hc]
      rfl

/-- Only up to its line ends does it matter what elements are put into a document. -/
theorem Room.parseChars_unifyLineEnds {before inserted : List Char} (h : Room P before)
    (hinserted : Bracketed inserted) (after : List Char) :
    parseChars (before ++ inserted ++ after) = parseChars (before ++ unifyLineEnds inserted ++ after) := by
  rw [parseChars_eq, parseChars_eq, List.append_assoc, List.append_assoc, h.withoutMark_append,
    h.withoutMark_append, hinserted.unifyLineEnds, hinserted.unified.unifyLineEnds,
    unifyLineEnds_unifyLineEnds]

/-- A text that can be put between the parts of any element, where it reads as some elements, one at
least. Line ends do not matter to it: it starts with markup and has no carriage returns. -/
structure Inserts (inserted : List Char) (items : List Element) : Prop where
  reads : ∀ scope, Reads scope inserted items
  head : inserted.head? = some '<'
  noReturn : '\r' ∉ inserted
  nonempty : items ≠ []

/-- What is put into a text starts with a bracket, so a line end that goes through the cut stays
behind it. -/
theorem Inserts.unifyLineEnds {inserted : List Char} (h : Inserts inserted items)
    (before after : List Char) :
    Xml.unifyLineEnds (before ++ (inserted ++ after))
      = Xml.unifyLineEnds before ++ (inserted ++ Xml.unifyLineEnds after) := by
  have hcut : before.getLast? = some '\r' → (inserted ++ after).head? ≠ some '\n' := by
    intro _ hhead
    rw [List.head?_append, h.head] at hhead
    exact absurd (Option.some.inj hhead) (by decide)
  rw [unifyLineEnds_append_of_cut hcut, unifyLineEnds_append_of_noReturn h.noReturn]

/-- A state at the end of a document has no open elements. -/
theorem document?_eq_some_iff {s : State} {root : Element} :
    s.document? = some root ↔
      (∃ k, s.mode = .content k) ∧ s.draft.frames = [] ∧ s.draft.root = some root := by
  obtain ⟨mode, frames, found, doctype⟩ := s
  rw [State.document?]
  constructor
  · intro h
    split at h
    · rename_i k hmode
      split at h
      · rename_i hframes
        exact ⟨⟨k, hmode⟩, List.isEmpty_iff.mp hframes, h⟩
      · exact absurd h (by simp)
    · exact absurd h (by simp)
  · rintro ⟨⟨k, hk⟩, hframes, hroot⟩
    obtain rfl : mode = .content k := hk
    obtain rfl : frames = [] := hframes
    exact hroot

/-- Once the root is closed, the elements are somewhere inside it. -/
theorem Draft.Grows.root {d e : Draft} (h : d.Grows P items e) (hframes : d.frames = [])
    {root : Element} (hroot : d.root = some root) :
    e.frames = [] ∧ ∃ root', e.root = some root' ∧ Xml.Grows P items root root' := by
  cases h with
  | opened above hf hbelow => exact absurd hframes (by simp)
  | closed h =>
    obtain rfl := Option.some.inj hroot
    exact ⟨rfl, _, rfl, h⟩

/-- A reading that follows one to the end of a document is at the end too, with a tree that has
grown. -/
theorem document?_follows {s t : State} (h : Related (Draft.Grows P items) s t) :
    Follows (Xml.Grows P items) s.document? t.document? := by
  intro root hroot
  obtain ⟨⟨k, hk⟩, hframes, hfound⟩ := document?_eq_some_iff.mp hroot
  obtain ⟨hframes', root', hfound', hgrows⟩ := h.draft.root hframes hfound
  have hmode : ∃ k', t.mode = .content k' := by
    rcases h.mode with hmode | ⟨j, l, -, hmode, -⟩
    · exact ⟨k, hmode.trans hk⟩
    · exact ⟨j, hmode⟩
  exact ⟨root', document?_eq_some_iff.mpr ⟨hmode, hframes', hfound'⟩, hgrows⟩

/-- **Elements that are put behind a text with room for them** come into the tree, and nothing else
there changes but running text of the element they are put into. -/
theorem parseChars_insert {before inserted after : List Char} {root : Element}
    (hroom : Room P before) (hroot : parseChars (before ++ after) = some root)
    (hinserts : Inserts inserted items) :
    ∃ root', parseChars (before ++ inserted ++ after) = some root' ∧ Grows P items root root' := by
  have hmark := hroom.withoutMark_append
  obtain ⟨k, ⟨frames, found, doctype⟩, hbefore, hopen, hnames⟩ := hroom
  cases frames with
  | nil => exact absurd rfl hopen
  | cons f outer =>
  have hitems := hinserts.nonempty
  have hne : inserted ≠ [] := by
    rintro rfl
    exact absurd hinserts.head (by simp)
  let grown : Draft := ⟨{ f with children := items.reverse ++ f.children } :: outer, found, doctype⟩
  have hinserted : run ⟨.content k, ⟨f :: outer, found, doctype⟩⟩ inserted
      = some ⟨.content 0, grown⟩ := by
    rw [hinserts.reads f.scope k f outer found doctype rfl, if_neg hne]
  have hgrows : Related (Draft.Grows P items) ⟨.content k, ⟨f :: outer, found, doctype⟩⟩
      ⟨.content 0, grown⟩ := by
    refine ⟨?_, Or.inr ⟨0, k, Nat.zero_le k, rfl, rfl⟩, fun htag =>
      absurd htag (by simp [Mode.inTag])⟩
    refine .opened [] ⟨rfl, rfl, by simp [hitems], ?_⟩ fun g hg =>
      hnames g (List.mem_cons_of_mem f hg)
    have hclose := @Grows.here P items f.name f.attributes (String.ofList f.text.reverse)
      (String.ofList f.text.reverse) f.children.reverse [] (hnames f List.mem_cons_self)
    simpa [Frame.close] using hclose
  -- behind the cut both readings go on with the same text
  have hrest : ∃ rest, unifyLineEnds (withoutMark before ++ after)
        = unifyLineEnds (withoutMark before) ++ rest ∧
      run ⟨.content 0, grown⟩ (unifyLineEnds after) = run ⟨.content 0, grown⟩ rest := by
    rcases unifyLineEnds_append (withoutMark before) after with h | ⟨-, rest, hafter, h⟩
    · exact ⟨unifyLineEnds after, h, rfl⟩
    · refine ⟨unifyLineEnds rest, h, ?_⟩
      -- the line feed that lost its carriage return is text behind an element, which is not kept
      have htext : Draft.addText grown '\n' = some grown :=
        addText_of_ne_nil (by simp [hitems]) '\n'
      have hstep : step ⟨.content 0, grown⟩ '\n' = some ⟨.content 0, grown⟩ := by
        show (Draft.addText grown '\n').map _ = _
        rw [htext]
        rfl
      rw [hafter, unifyLineEnds_cons (by decide), run_cons_of_step hstep]
  obtain ⟨rest, hcut, hrest⟩ := hrest
  rw [parseChars_eq, hmark, hcut, run_append_of_run hbefore] at hroot
  rw [parseChars_eq, List.append_assoc, hmark, hinserts.unifyLineEnds,
    run_append_of_run hbefore, run_append_of_run hinserted, hrest]
  exact (run_follows (alike_grows P items) hgrows rest).bind
    (fun s t hst => document?_follows hst) root hroot

end Lightpath.Xml
