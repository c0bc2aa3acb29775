import Lightpath.Proofs.Xml.Markup

/-!
# Readings that follow each other

The reader looks at what it has built in a few places only, and it changes it by a few operations
only. A relation between drafts that these respect is kept by the reader as a whole: a reading that
starts from a related draft goes on wherever the other one does, and the drafts stay related. Main
statement: `run_follows`.
-/

namespace Lightpath.Xml

/-! ## Results that follow -/

/-- Where the first result is there, the second is too, and they are related. -/
def Follows {α β : Type} (R : α → β → Prop) (x : Option α) (y : Option β) : Prop :=
  ∀ a, x = some a → ∃ b, y = some b ∧ R a b

namespace Follows

variable {α β γ δ : Type} {R : α → β → Prop} {S : γ → δ → Prop}

/-- What stops need not be followed; -/
theorem of_none (R : α → β → Prop) (y : Option β) : Follows R none y :=
  fun _ h => absurd h (by simp)

/-- what goes on is followed by what goes on in the same way. -/
theorem of_some {a : α} {b : β} (h : R a b) : Follows R (some a) (some b) := by
  intro a' ha'
  rw [← Option.some.inj ha']
  exact ⟨b, rfl, h⟩

theorem ite {p : Prop} [Decidable p] {x x' : Option α} {y y' : Option β} (h : p → Follows R x y)
    (h' : ¬p → Follows R x' y') : Follows R (if p then x else x') (if p then y else y') := by
  by_cases hp : p
  · rw [if_pos hp, if_pos hp]
    exact h hp
  · rw [if_neg hp, if_neg hp]
    exact h' hp

/-- One step behind another is followed step by step. -/
theorem bind {x : Option α} {y : Option β} {f : α → Option γ} {g : β → Option δ} (h : Follows R x y)
    (hf : ∀ a b, R a b → Follows S (f a) (g b)) : Follows S (x.bind f) (y.bind g) := by
  intro c hc
  obtain ⟨a, ha, hfa⟩ := Option.bind_eq_some_iff.mp hc
  obtain ⟨b, hb, hab⟩ := h a ha
  rw [hb, Option.bind_some]
  exact hf a b hab c hfa

theorem map {x : Option α} {y : Option β} {f : α → γ} {g : β → δ} (h : Follows R x y)
    (hf : ∀ a b, R a b → S (f a) (g b)) : Follows S (x.map f) (y.map g) := by
  intro c hc
  obtain ⟨a, ha, rfl⟩ := Option.map_eq_some_iff.mp hc
  obtain ⟨b, hb, hab⟩ := h a ha
  rw [hb, Option.map_some]
  exact ⟨g b, rfl, hf a b hab⟩

end Follows

/-! ## Opening an element -/

/-- The bindings where the next element is opened. -/
def Draft.scope (d : Draft) : Scope :=
  match d.frames with
  | f :: _ => f.scope
  | [] => outerScope

/-- The element that a tag opens in a scope. -/
def openFrame? (outer : Scope) (t : Tag) : Option Frame := do
  let written := t.attributes.reverse
  if !allDistinct (written.map Prod.fst) then none
  let attributes ← written.mapM fun a => (splitName a.1).map (·, String.ofList a.2)
  let scope ← attributes.foldlM (fun s a => bind s a.1 a.2) outer
  let name ← elementName scope (← splitName t.raw)
  let named ← (attributes.filter fun a => !isDeclaration a.1).mapM fun a =>
    (attributeName scope a.1).map (·, a.2)
  if !allDistinct (named.map Prod.fst) then none
  return ⟨t.raw, name, named, scope, [], []⟩

/-- What a tag opens depends on the bindings alone. -/
theorem openTag_eq (d : Draft) (t : Tag) :
    d.openTag t = (openFrame? d.scope t).map fun f => { d with frames := f :: d.frames } := by
  rw [Draft.openTag, openFrame?]
  simp only [Option.bind_eq_bind, Option.pure_def]
  split
  · rfl
  · rw [Option.map_bind]
    refine Option.bind_congr fun attributes _ => ?_
    rw [Function.comp_apply, Option.map_bind]
    refine Option.bind_congr fun scope _ => ?_
    rw [Function.comp_apply, Option.map_bind]
    refine Option.bind_congr fun local' _ => ?_
    rw [Function.comp_apply, Option.map_bind]
    refine Option.bind_congr fun name _ => ?_
    rw [Function.comp_apply, Option.map_bind]
    refine Option.bind_congr fun named _ => ?_
    rw [Function.comp_apply]
    split <;> rfl

/-- An element that has just been opened has the name of its tag and nothing inside. -/
theorem fresh_of_openFrame? {outer : Scope} {t : Tag} {f : Frame}
    (h : openFrame? outer t = some f) :
    f.raw = t.raw ∧ f.text = [] ∧ f.children = [] := by
  rw [openFrame?] at h
  simp only [Option.bind_eq_bind, Option.pure_def] at h
  split at h
  · exact absurd h (by simp)
  · obtain ⟨attributes, -, h⟩ := Option.bind_eq_some_iff.mp h
    obtain ⟨scope, -, h⟩ := Option.bind_eq_some_iff.mp h
    obtain ⟨name, -, h⟩ := Option.bind_eq_some_iff.mp h
    obtain ⟨full, -, h⟩ := Option.bind_eq_some_iff.mp h
    obtain ⟨named, -, h⟩ := Option.bind_eq_some_iff.mp h
    split at h
    · exact absurd h (by simp)
    · rw [← Option.some.inj h]
      exact ⟨rfl, rfl, rfl⟩

/-! ## Drafts that look alike -/

/-- **A relation between drafts that look alike to the reader and stay related whatever it does with
them.** -/
structure Alike (R : Draft → Draft → Prop) : Prop where
  isEmpty : ∀ {d e}, R d e → d.frames.isEmpty = e.frames.isEmpty
  root : ∀ {d e}, R d e → d.root.isSome = e.root.isSome
  doctype : ∀ {d e}, R d e → d.doctype = e.doctype
  raw : ∀ {d e}, R d e → d.frames.head?.map Frame.raw = e.frames.head?.map Frame.raw
  declare : ∀ {d e}, R d e → R { d with doctype := true } { e with doctype := true }
  addText : ∀ {d e}, R d e → ∀ c, isAllowed c = true → Follows R (d.addText c) (e.addText c)
  scope : ∀ {d e}, R d e → d.scope = e.scope
  push : ∀ {d e}, R d e → (d.frames = [] → d.root = none) → ∀ f : Frame, f.text = [] →
    f.children = [] → R { d with frames := f :: d.frames } { e with frames := f :: e.frames }
  closeTag : ∀ {d e}, R d e → Follows R d.closeTag e.closeTag

/-- One meaning of the next character allows all that another one does. -/
def Mode.LE (m n : Mode) : Prop :=
  m = n ∨ ∃ j k, j ≤ k ∧ m = .content j ∧ n = .content k

/-- Whether the next character stands inside a start tag. -/
def Mode.inTag : Mode → Bool
  | .startName _ => true
  | .tag _ _ => true
  | .attributeName _ _ => true
  | .equals _ _ => true
  | .quote _ _ => true
  | .value _ _ _ _ => true
  | .emptyEnd _ => true
  | .reference (.value _ _ _ _) _ => true
  | _ => false

/-- A start tag is only read where an element may be opened: there is no second root. -/
def State.Sound (s : State) : Prop :=
  s.mode.inTag = true → s.draft.frames = [] → s.draft.root = none

/-- States with related drafts; the second one may be behind fewer closing brackets. -/
structure Related (R : Draft → Draft → Prop) (s t : State) : Prop where
  draft : R s.draft t.draft
  mode : t.mode.LE s.mode
  sound : s.Sound

theorem related_mk {R : Draft → Draft → Prop} {d e : Draft} (h : R d e) {m : Mode}
    (hm : State.Sound ⟨m, d⟩) : Related R ⟨m, d⟩ ⟨m, e⟩ :=
  ⟨h, Or.inl rfl, hm⟩

/-- Outside a start tag there is nothing to say about the draft. -/
theorem related_outside {R : Draft → Draft → Prop} {d e : Draft} (h : R d e) {m : Mode}
    (hm : m.inTag = false) : Related R ⟨m, d⟩ ⟨m, e⟩ :=
  related_mk h fun htag => absurd (hm.symm.trans htag) (by decide)

/-! ## Characters of references -/

/-- A character that a reference stands for is one that may stand in a document. -/
theorem isAllowed_of_allowedChar? {n : Nat} {c : Char} (h : allowedChar? n = some c) :
    isAllowed c = true := by
  rw [allowedChar?] at h
  by_cases hvalid : n.isValidChar
  · rw [dif_pos hvalid] at h
    have h : (if isAllowed (Char.ofNatAux n hvalid) then some (Char.ofNatAux n hvalid) else none)
        = some c := h
    by_cases hallowed : isAllowed (Char.ofNatAux n hvalid) = true
    · rw [if_pos hallowed] at h
      rw [← Option.some.inj h]
      exact hallowed
    · rw [if_neg hallowed] at h
      exact absurd h (by simp)
  · rw [dif_neg hvalid] at h
    exact absurd h (by simp)

/-- A reference stands for a character that a document may hold. -/
theorem isAllowed_of_referenced? {name : List Char} {c : Char} (h : referenced? name = some c) :
    isAllowed c = true := by
  unfold referenced? at h
  split at h
  · rw [← Option.some.inj h]
    decide
  · rw [← Option.some.inj h]
    decide
  · rw [← Option.some.inj h]
    decide
  · rw [← Option.some.inj h]
    decide
  · rw [← Option.some.inj h]
    decide
  · obtain ⟨n, -, hn⟩ := Option.bind_eq_some_iff.mp h
    exact isAllowed_of_allowedChar? hn
  · obtain ⟨n, -, hn⟩ := Option.bind_eq_some_iff.mp h
    exact isAllowed_of_allowedChar? hn
  · exact absurd h (by simp)

/-! ## Steps -/

namespace Alike

variable {R : Draft → Draft → Prop} (hR : Alike R) {d e : Draft} (h : R d e)

include hR h

/-- The same tag is opened in both. -/
theorem openTag (hopen : d.frames = [] → d.root = none) (t : Tag) :
    Follows R (d.openTag t) (e.openTag t) := by
  rw [openTag_eq, openTag_eq, hR.scope h]
  intro d' hd'
  obtain ⟨f, hf, rfl⟩ := Option.map_eq_some_iff.mp hd'
  obtain ⟨-, htext, hchildren⟩ := fresh_of_openFrame? hf
  rw [hf]
  exact ⟨_, rfl, hR.push h hopen f htext hchildren⟩

/-- The same character is added to both. -/
theorem addContent {c : Char} (hc : isAllowed c = true) :
    Follows R (d.addContent c) (e.addContent c) := by
  have hempty := hR.isEmpty h
  have htext := hR.addText h c hc
  rw [Draft.addContent, Draft.addContent]
  cases hd : d.frames with
  | nil =>
    rw [hd, List.isEmpty_nil] at hempty
    rw [List.isEmpty_iff.mp hempty.symm]
    exact Follows.ite (fun _ => Follows.of_some h) fun _ => Follows.of_none R _
  | cons f outer =>
    rw [hd, List.isEmpty_cons] at hempty
    cases he : e.frames with
    | nil =>
      rw [he] at hempty
      exact absurd hempty (by simp)
    | cons g outer' => exact htext

theorem addBrackets (n : Nat) : Follows R (d.addBrackets n) (e.addBrackets n) := by
  induction n generalizing d e with
  | zero => exact Follows.of_some h
  | succ n ih =>
    rw [Draft.addBrackets, Draft.addBrackets]
    exact (hR.addText h ']' (by decide)).bind fun a b hab => ih hab

/-- The same end tag closes both. -/
theorem endElement (name : List Char) :
    Follows (Related R) (endElement d name) (endElement e name) := by
  have hraw := hR.raw h
  have hclose := (hR.closeTag h).map (S := Related R) (f := fun d => ⟨.content 0, d⟩)
    (g := fun d => ⟨.content 0, d⟩) fun a b hab => related_outside hab rfl
  rw [Xml.endElement, Xml.endElement]
  cases hd : d.frames with
  | nil => exact Follows.of_none _ _
  | cons f outer =>
    cases he : e.frames with
    | nil =>
      rw [hd, he] at hraw
      exact absurd hraw (by simp)
    | cons g outer' =>
      rw [hd, he] at hraw
      have hfg : f.raw = g.raw := by simpa using hraw
      simp only [hfg]
      exact Follows.ite (fun _ => hclose) fun _ => Follows.of_none _ _

/-- A reference and a section of characters stand inside an element on both sides or on neither. -/
theorem insideElement {m : Mode} (hm : m.inTag = false) :
    Follows (Related R)
      (match d.frames with
        | [] => none
        | _ => some ⟨m, d⟩)
      (match e.frames with
        | [] => none
        | _ => some ⟨m, e⟩) := by
  have hempty := hR.isEmpty h
  cases hd : d.frames with
  | nil => exact Follows.of_none _ _
  | cons f outer =>
    cases he : e.frames with
    | nil =>
      rw [hd, he] at hempty
      exact absurd hempty (by simp)
    | cons g outer' => exact Follows.of_some (related_outside h hm)

/-- Of the brackets in front of a character the one run may have seen fewer than the other. -/
theorem contentStep {j k : Nat} (hjk : j ≤ k) (c : Char) :
    Follows (Related R) (contentStep d k c) (contentStep e j c) := by
  rw [Xml.contentStep, Xml.contentStep]
  refine Follows.ite (fun _ => Follows.of_some (related_outside h rfl)) fun _ => ?_
  refine Follows.ite (fun _ => hR.insideElement h rfl) fun _ => ?_
  by_cases hend : c = '>' ∧ 2 ≤ k
  · rw [if_pos hend]
    exact Follows.of_none _ _
  · have hend' : ¬(c = '>' ∧ 2 ≤ j) := fun hgreater =>
      hend ⟨hgreater.1, Nat.le_trans hgreater.2 hjk⟩
    rw [if_neg hend, if_neg hend']
    refine Follows.ite (fun hc => ?_) fun _ => Follows.of_none _ _
    refine (hR.addContent h hc).map fun a b hab => ⟨hab, Or.inr ⟨_, _, ?_, rfl, rfl⟩, ?_⟩
    · split
      · omega
      · omega
    · exact fun htag => absurd htag (by simp [Mode.inTag])

theorem bangStep (seen : List Char) (c : Char) :
    Follows (Related R) (bangStep d seen c) (bangStep e seen c) := by
  rw [Xml.bangStep, Xml.bangStep]
  refine Follows.ite (fun _ => Follows.of_some (related_outside h rfl)) fun _ => ?_
  refine Follows.ite (fun _ => hR.insideElement h rfl) fun _ => ?_
  refine Follows.ite (fun _ => ?_) fun _ => ?_
  · rw [hR.isEmpty h, hR.doctype h, ← Option.not_isSome, ← Option.not_isSome, hR.root h]
    refine Follows.ite (fun _ => ?_) fun _ => Follows.of_none _ _
    exact Follows.of_some (related_outside (hR.declare h) rfl)
  exact Follows.ite (fun _ => Follows.of_some (related_outside h rfl)) fun _ => Follows.of_none _ _

omit hR in
theorem afterTarget (first : Bool) (raw : List Char) (c : Char) :
    Follows (Related R) (afterTarget d first raw c) (afterTarget e first raw c) := by
  rw [Xml.afterTarget, Xml.afterTarget]
  refine Follows.ite (fun _ => ?_) fun _ => ?_
  · exact Follows.ite (fun _ => Follows.of_some (related_outside h rfl)) fun _ =>
      Follows.of_none _ _
  refine Follows.ite (fun _ => Follows.of_some (related_outside h rfl)) fun _ => ?_
  exact Follows.ite (fun _ => Follows.of_some (related_outside h rfl)) fun _ => Follows.of_none _ _

theorem lessStep (first : Bool) (c : Char) :
    Follows (Related R) (lessStep d first c) (lessStep e first c) := by
  rw [Xml.lessStep, Xml.lessStep, ← hR.isEmpty h, ← hR.root h]
  refine Follows.ite (fun _ => Follows.of_some (related_outside h rfl)) fun _ => ?_
  refine Follows.ite (fun _ => Follows.of_some (related_outside h rfl)) fun _ => ?_
  refine Follows.ite (fun _ => Follows.of_some (related_outside h rfl)) fun _ => ?_
  refine Follows.ite (fun hname => ?_) fun _ => Follows.of_none _ _
  -- this is where a second root is refused
  refine Follows.of_some (related_mk h fun _ hframes => ?_)
  have hframes : d.frames = [] := hframes
  rw [hframes] at hname
  simpa using (Bool.and_eq_true_iff.mp hname).2

section InTag

variable (hopen : d.frames = [] → d.root = none)

include hopen

omit hR in
theorem inTag (m : Mode) : Follows (Related R) (some ⟨m, d⟩) (some ⟨m, e⟩) :=
  Follows.of_some (related_mk h fun _ => hopen)

theorem tagStep (t : Tag) (gap : Bool) (c : Char) :
    Follows (Related R) (tagStep d t gap c) (tagStep e t gap c) := by
  rw [Xml.tagStep, Xml.tagStep]
  refine Follows.ite (fun _ => inTag h hopen _) fun _ => ?_
  refine Follows.ite (fun _ => ?_) fun _ => ?_
  · exact (hR.openTag h hopen t).map fun a b hab => related_outside hab rfl
  refine Follows.ite (fun _ => inTag h hopen _) fun _ => ?_
  exact Follows.ite (fun _ => inTag h hopen _) fun _ => Follows.of_none _ _

end InTag

/-- The same reference ends in both. -/
theorem endReference {place : Place} {name : List Char}
    (hs : State.Sound ⟨.reference place name, d⟩) (full : List Char) :
    Follows (Related R) (endReference d place full) (endReference e place full) := by
  rw [Xml.endReference, Xml.endReference]
  cases hname : referenced? full with
  | none => exact Follows.of_none _ _
  | some c =>
    cases place with
    | content =>
      exact (hR.addText h c (isAllowed_of_referenced? hname)).map fun a b hab =>
        related_outside hab rfl
    | value t name quote value => exact inTag h (hs rfl) _

/-- A character leads from one meaning to the same next one on both sides. -/
theorem step {m : Mode} (hs : State.Sound ⟨m, d⟩) (c : Char) :
    Follows (Related R) (step ⟨m, d⟩ c) (step ⟨m, e⟩ c) := by
  -- most characters change the meaning only; those of text and tags change the drafts alike
  have hnone : Follows (Related R) none none := Follows.of_none _ _
  have hout {n : Mode} (hn : n.inTag = false) : Follows (Related R) (some ⟨n, d⟩) (some ⟨n, e⟩) :=
    Follows.of_some (related_outside h hn)
  rw [Xml.step, Xml.step]
  cases m with
  | start => exact Follows.ite (fun _ => hout rfl) fun _ => hR.contentStep h (Nat.le_refl 0) c
  | content brackets => exact hR.contentStep h (Nat.le_refl brackets) c
  | less first => exact hR.lessStep h first c
  | startName raw =>
    exact Follows.ite (fun _ => inTag h (hs rfl) _) fun _ => hR.tagStep h (hs rfl) _ _ c
  | tag t gap => exact hR.tagStep h (hs rfl) t gap c
  | attributeName t raw =>
    refine Follows.ite (fun _ => inTag h (hs rfl) _) fun _ => ?_
    refine Follows.ite (fun _ => inTag h (hs rfl) _) fun _ => ?_
    exact Follows.ite (fun _ => inTag h (hs rfl) _) fun _ => hnone
  | equals t name =>
    refine Follows.ite (fun _ => inTag h (hs rfl) _) fun _ => ?_
    exact Follows.ite (fun _ => inTag h (hs rfl) _) fun _ => hnone
  | quote t name =>
    refine Follows.ite (fun _ => inTag h (hs rfl) _) fun _ => ?_
    exact Follows.ite (fun _ => inTag h (hs rfl) _) fun _ => hnone
  | value t name quote value =>
    refine Follows.ite (fun _ => inTag h (hs rfl) _) fun _ => ?_
    refine Follows.ite (fun _ => hnone) fun _ => ?_
    refine Follows.ite (fun _ => inTag h (hs rfl) _) fun _ => ?_
    refine Follows.ite (fun _ => inTag h (hs rfl) _) fun _ => ?_
    exact Follows.ite (fun _ => inTag h (hs rfl) _) fun _ => hnone
  | emptyEnd t =>
    refine Follows.ite (fun _ => ?_) fun _ => hnone
    refine ((hR.openTag h (hs rfl) t).bind (S := R) fun a b hab => hR.closeTag hab).map
      fun a b hab => ?_
    exact related_outside hab rfl
  | endName raw =>
    refine Follows.ite (fun _ => hout rfl) fun _ => ?_
    refine Follows.ite (fun _ => hR.endElement h _) fun _ => ?_
    exact Follows.ite (fun _ => hout rfl) fun _ => hnone
  | endGap name =>
    refine Follows.ite (fun _ => hout rfl) fun _ => ?_
    exact Follows.ite (fun _ => hR.endElement h _) fun _ => hnone
  | bang seen => exact hR.bangStep h seen c
  | comment dashes =>
    refine Follows.ite (fun _ => Follows.ite (fun _ => hout rfl) fun _ => hnone) fun _ => ?_
    refine Follows.ite (fun _ => hout rfl) fun _ => ?_
    exact Follows.ite (fun _ => hout rfl) fun _ => hnone
  | cdata brackets =>
    refine Follows.ite (fun _ => hout rfl) fun _ => ?_
    refine Follows.ite (fun _ => ?_) fun _ => ?_
    · refine Follows.ite (fun _ => ?_) fun _ => hout rfl
      exact (hR.addText h ']' (by decide)).map fun a b hab => related_outside hab rfl
    · refine Follows.ite (fun hc => ?_) fun _ => hnone
      refine ((hR.addBrackets h brackets).bind (S := R) fun a b hab => ?_).map fun a b hab => ?_
      · exact hR.addText hab c hc
      · exact related_outside hab rfl
  | target first raw =>
    cases raw with
    | nil => exact Follows.ite (fun _ => hout rfl) fun _ => hnone
    | cons x raw => exact Follows.ite (fun _ => hout rfl) fun _ => afterTarget h first _ c
  | instruction mark =>
    refine Follows.ite (fun _ => hout rfl) fun _ => ?_
    exact Follows.ite (fun _ => hout rfl) fun _ => hnone
  | instructionEnd => exact Follows.ite (fun _ => hout rfl) fun _ => hnone
  | declaration mark body =>
    refine Follows.ite (fun _ => Follows.ite (fun _ => hout rfl) fun _ => hnone) fun _ => ?_
    exact Follows.ite (fun _ => hout rfl) fun _ => hnone
  | doctype quote body =>
    cases quote with
    | some q => exact Follows.ite (fun _ => hout rfl) fun _ => hnone
    | none =>
      refine Follows.ite (fun _ => Follows.ite (fun _ => hout rfl) fun _ => hnone) fun _ => ?_
      refine Follows.ite (fun _ => hout rfl) fun _ => ?_
      exact Follows.ite (fun _ => hout rfl) fun _ => hnone
  | reference place name =>
    refine Follows.ite (fun _ => hR.endReference h hs _) fun _ => ?_
    refine Follows.ite (fun _ => ?_) fun _ => hnone
    cases place with
    | content => exact hout rfl
    | value t name' quote value => exact inTag h (hs rfl) _

end Alike

/-! ## Runs -/

variable {R : Draft → Draft → Prop}

/-- One character keeps the states related. -/
theorem step_follows (hR : Alike R) {s t : State} (h : Related R s t) (c : Char) :
    Follows (Related R) (step s c) (step t c) := by
  obtain ⟨m, d⟩ := s
  obtain ⟨n, e⟩ := t
  obtain ⟨hde, hmode, hs⟩ := h
  rcases hmode with hmode | ⟨j, k, hjk, hn, hm⟩
  · obtain rfl : n = m := hmode
    exact hR.step hde hs c
  · obtain rfl : n = .content j := hn
    obtain rfl : m = .content k := hm
    exact hR.contentStep hde hjk c

/-- **A text that is read from a state is read from a related one too, and the states stay
related.** -/
theorem run_follows (hR : Alike R) {s t : State} (h : Related R s t) (cs : List Char) :
    Follows (Related R) (run s cs) (run t cs) := by
  induction cs generalizing s t with
  | nil => exact Follows.of_some h
  | cons c cs ih =>
    rw [run_cons, run_cons]
    exact (step_follows hR h c).bind fun a b hab => ih hab

end Lightpath.Xml
