import Lightpath.CrossConnect.Reconciler
import Lightpath.Proofs.CrossConnect.EditMarkup
import Lightpath.Proofs.Numeral.WholeText
import Lightpath.Proofs.Text.Trim

/-!
# Branches that are read back

What is written for a rule into the item of its channel is read back as a branch with the leaf port
of the rule and the power that was asked for. Main statement: `onSide_items`.
-/

namespace Lightpath.CrossConnect

open Lightpath.Xml

/-! ## Tokens -/

/-- A character that is neither markup nor white space. -/
def isTokenChar (c : Char) : Bool :=
  isAllowed c && !Text.isBlank c && c != '&' && c != '<' && c != '>'

/-- A text of such characters, one at least. -/
structure Token (s : String) : Prop where
  nonempty : s ≠ ""
  chars : ∀ c ∈ s.toList, isTokenChar c = true

/-- A token is written without escapes. -/
theorem Token.verbatim {s : String} (h : Token s) : Verbatim s := by
  intro c hc
  have hchar := h.chars c hc
  simp only [isTokenChar, Bool.and_eq_true, bne_iff_ne, Bool.not_eq_true'] at hchar
  obtain ⟨⟨⟨⟨hallowed, hblank⟩, hamp⟩, hless⟩, hgreater⟩ := hchar
  refine ⟨hallowed, ?_, ?_⟩
  · rw [escapeChar, if_neg hamp, if_neg hless, if_neg hgreater]
  · rintro rfl
    exact absurd hblank (by decide)

/-- There is no white space around a token. -/
theorem Token.trimmed {s : String} (h : Token s) : Text.trimmed s = s := by
  refine Text.trimmed_of_forall fun c hc => ?_
  have hchar := h.chars c hc
  simp only [isTokenChar, Bool.and_eq_true, Bool.not_eq_true'] at hchar
  exact hchar.1.1.1.2

/-- Letters, digits and what stands next to them are neither markup nor white space. -/
theorem isTokenChar_of_toNat {c : Char}
    (h : 45 ≤ c.toNat ∧ c.toNat ≤ 57 ∨ 65 ≤ c.toNat ∧ c.toNat ≤ 122) : isTokenChar c = true := by
  have hmarkup : c ≠ '&' ∧ c ≠ '<' ∧ c ≠ '>' := by
    refine ⟨?_, ?_, ?_⟩
    · rintro rfl
      exact absurd h (by decide)
    · rintro rfl
      exact absurd h (by decide)
    · rintro rfl
      exact absurd h (by decide)
  have hallowed : isAllowed c = true := by
    simp only [isAllowed, Bool.or_eq_true, Bool.and_eq_true, beq_iff_eq, decide_eq_true_eq]
    omega
  have hblank : Text.isBlank c = false := by
    simp only [Text.isBlank, Text.isSpace, Bool.or_eq_false_iff, Bool.and_eq_false_iff,
      decide_eq_false_iff_not, beq_eq_false_iff_ne]
    omega
  simp [isTokenChar, hallowed, hblank, hmarkup]

/-! ## Leaf ports -/

/-- A character that may stand in the text in front of leaf ports, such as a letter: it does not
look like the start of a number. -/
def isFrontChar (c : Char) : Bool :=
  isTokenChar c && c != '-' && !c.isDigit

/-- Letters may stand in front of leaf ports. -/
theorem isFrontChar_of_isAlpha {c : Char} (h : c.isAlpha = true) : isFrontChar c = true := by
  have hrange : 65 ≤ c.toNat ∧ c.toNat ≤ 90 ∨ 97 ≤ c.toNat ∧ c.toNat ≤ 122 := by
    have h : (c.isUpper || c.isLower) = true := h
    rcases Bool.or_eq_true_iff.mp h with hupper | hlower
    · have hrange : 'A'.val ≤ c.val ∧ c.val ≤ 'Z'.val := of_decide_eq_true hupper
      have hlow := UInt32.le_iff_toNat_le.mp hrange.1
      have hhigh := UInt32.le_iff_toNat_le.mp hrange.2
      exact Or.inl ⟨hlow, hhigh⟩
    · have hrange : (decide ('a'.val ≤ c.val) && decide (c.val ≤ 'z'.val)) = true := hlower
      rw [Bool.and_eq_true, decide_eq_true_iff, decide_eq_true_iff] at hrange
      have hlow := UInt32.le_iff_toNat_le.mp hrange.1
      have hhigh := UInt32.le_iff_toNat_le.mp hrange.2
      exact Or.inr ⟨hlow, hhigh⟩
  have hminus : c ≠ '-' := by
    rintro rfl
    exact absurd hrange (by decide)
  have hdigit : c.isDigit = false := by
    rw [Bool.eq_false_iff, Ne, Char.isDigit_iff_toNat]
    show ¬(48 ≤ c.toNat ∧ c.toNat ≤ 57)
    omega
  simp [isFrontChar, isTokenChar_of_toNat (c := c) (by omega), hminus, hdigit]

/-- A number is written with characters of tokens. -/
theorem token_toString (n : Int) : Token (toString n) where
  nonempty := fun h => Numeral.toString_ne_nil n (by rw [h]; rfl)
  chars := by
    intro c hc
    refine isTokenChar_of_toNat (Or.inl ?_)
    rcases Numeral.mem_toString hc with rfl | hdigit
    · decide
    · have hrange : 48 ≤ c.toNat ∧ c.toNat ≤ 57 := Char.isDigit_iff_toNat.mp hdigit
      omega

/-- A token stays one with characters of tokens in front of it. -/
theorem Token.append {s t : String} (ht : Token t) (hs : ∀ c ∈ s.toList, isTokenChar c = true) :
    Token (s ++ t) where
  nonempty := fun h => ht.nonempty (String.append_eq_empty_iff.mp h).2
  chars := by
    intro c hc
    rw [String.toList_append, List.mem_append] at hc
    rcases hc with hc | hc
    · exact hs c hc
    · exact ht.chars c hc

variable {r : Reconciler} {type : DeviceType}

/-- The text of a leaf port is a token. -/
theorem token_portText (hfront : ∀ c ∈ r.portFront.toList, isFrontChar c = true) (port : Int) :
    Token (r.portText type port) := by
  rw [Reconciler.portText]
  split
  · refine (token_toString port).append fun c hc => ?_
    have hchar := hfront c hc
    simp only [isFrontChar, Bool.and_eq_true] at hchar
    exact hchar.1.1
  · exact token_toString port

/-- The text in front of leaf ports cannot be taken off a number. -/
theorem withoutFront_number {front : List Char} (hfront : ∀ c ∈ front, isFrontChar c = true)
    (port : Int) :
    withoutFront front (toString port).toList = (toString port).toList := by
  cases front with
  | nil => rfl
  | cons c front =>
    rw [withoutFront]
    split
    · rename_i hprefix
      obtain ⟨rest, hrest⟩ := List.isPrefixOf_iff_prefix.mp hprefix
      have hc : c ∈ (toString port).toList := by
        rw [← hrest]
        exact List.mem_cons_self
      have hchar := hfront c List.mem_cons_self
      simp only [isFrontChar, Bool.and_eq_true, bne_iff_ne, Bool.not_eq_true'] at hchar
      rcases Numeral.mem_toString hc with hminus | hdigit
      · exact absurd hminus hchar.1.2
      · rw [hdigit] at hchar
        exact absurd hchar.2 (by decide)
    · rfl

theorem withoutFront_append (front cs : List Char) : withoutFront front (front ++ cs) = cs := by
  rw [withoutFront, if_pos (List.isPrefixOf_iff_prefix.mpr (List.prefix_append front cs)),
    List.drop_left]

/-- **A leaf port is read back as it was written**, on line degrees and elsewhere. -/
theorem leafPortOf_portText (hfront : ∀ c ∈ r.portFront.toList, isFrontChar c = true) {port : Int}
    (hport : Numeral.Writable port) :
    leafPortOf r.portFront (r.portText type port) = .ok port := by
  have hread : withoutFront r.portFront.toList (r.portText type port).toList
      = (toString port).toList := by
    rw [Reconciler.portText]
    split
    · rw [String.toList_append, withoutFront_append]
    · exact withoutFront_number hfront port
  rw [leafPortOf, hread, Numeral.readWhole_toString port hport]

/-! ## Powers -/

/-- The target powers are two numbers. -/
theorem targetPower_eq :
    ∀ (type : DeviceType) (toCommon : Bool),
      type.targetPower toCommon = -5.0 ∨ type.targetPower toCommon = -12.0
  | .lineDegree, true => Or.inl rfl
  | .lineDegree, false => Or.inr rfl
  | .addDropFlex, true | .inlineAmp, true | .coherentAddDrop, true => Or.inr rfl
  | .addDropFlex, false | .inlineAmp, false | .coherentAddDrop, false => Or.inl rfl

/-- Each target power is written as a token. -/
theorem token_floatText_targetPower (type : DeviceType) (toCommon : Bool) :
    Token (Numeral.floatText (type.targetPower toCommon)) := by
  have hhigh : Numeral.floatText (-5.0) = "-5.0" := by decide +kernel
  have hlow : Numeral.floatText (-12.0) = "-12.0" := by decide +kernel
  rcases targetPower_eq type toCommon with h | h
  · rw [h, hhigh]
    exact ⟨by decide, List.all_eq_true.mp (by decide +kernel)⟩
  · rw [h, hlow]
    exact ⟨by decide, List.all_eq_true.mp (by decide +kernel)⟩

/-- **A target power is read back as it was written.** -/
theorem powerOf_targetPower (type : DeviceType) (toCommon : Bool) :
    Branch.powerOf (some (Numeral.floatText (type.targetPower toCommon)))
      = .ok (some (type.targetPower toCommon)) := by
  have hhigh : Numeral.floatOf (Numeral.floatText (-5.0)) = some (-5.0) := by decide +kernel
  have hlow : Numeral.floatOf (Numeral.floatText (-12.0)) = some (-12.0) := by decide +kernel
  rw [Branch.powerOf]
  rcases targetPower_eq type toCommon with h | h
  · rw [h, hhigh]
  · rw [h, hlow]

/-! ## Items -/

namespace Reconciler

/-- The branch that a rule on a channel is read back as. -/
def branchFor (r : Reconciler) (type : DeviceType) (rule : Rule) (channel : String) : Branch :=
  ⟨channel, rule.side r.commonPort, rule.leafPort r.commonPort,
    some (type.targetPower (rule.output = r.commonPort))⟩

end Reconciler

/-- The two sides have different names. -/
theorem side_name_injective {a b : Side} (h : a.name = b.name) : a = b := by
  cases a <;> cases b
  · rfl
  · exact absurd h (by decide)
  · exact absurd h (by decide)
  · rfl

theorem isNamed_element (space : String) (c : Change) (side : Side) :
    (c.element space).isNamed side.name = decide (c.side = side) := by
  have hname : (c.element space).name.localPart = c.side.name := by
    cases c <;> rfl
  rw [Element.isNamed, hname, Bool.eq_iff_iff, beq_iff_eq, decide_eq_true_iff]
  exact ⟨side_name_injective, congrArg Side.name⟩

/-- The child of an item that names its channel. -/
def channelChild (space channel : String) : Element :=
  ⟨dataName space "channel", [], channel, []⟩

/-- The children of an item are its name and its changes. -/
theorem childrenNamed_item (space channel : String) (changes : List Change) (n : String) :
    (Edit.item space channel changes).childrenNamed n
      = (if (channelChild space channel).isNamed n then [channelChild space channel] else [])
        ++ (changes.map (Change.element space)).filter (·.isNamed n) := by
  show (channelChild space channel :: changes.map (Change.element space)).filter (·.isNamed n) = _
  rw [List.filter_cons]
  split <;> rfl

/-- The channel of an item is read back. -/
theorem childText?_item {channel : String} (hne : channel ≠ "")
    (htrimmed : Text.trimmed channel = channel) (space : String) (changes : List Change) :
    (Edit.item space channel changes).childText? "channel" = some channel := by
  have hnamed : (channelChild space channel).isNamed "channel" = true := beq_self_eq_true _
  rw [Element.childText?, childrenNamed_item, if_pos hnamed, List.singleton_append, List.head?_cons,
    Option.bind_some, Element.content?, channelChild, if_neg hne, htrimmed]

/-- The first change to a side is what is read of it. -/
theorem head?_childrenNamed_item (space channel : String) (changes : List Change) (side : Side) :
    ((Edit.item space channel changes).childrenNamed side.name).head?
      = (changes.find? fun c => c.side = side).map (Change.element space) := by
  have hnamed : (channelChild space channel).isNamed side.name = false := by
    cases side <;> rfl
  rw [childrenNamed_item, if_neg (by rw [hnamed]; decide), List.nil_append, List.head?_filter,
    List.find?_map]
  congr 2
  funext c
  exact isNamed_element space c side

/-- A token is the content of an element that has nothing else inside. -/
theorem Token.content? {s : String} (h : Token s) (name : Name) :
    Element.content? ⟨name, [], s, []⟩ = some s := by
  rw [Element.content?, if_neg h.nonempty, h.trimmed]

/-- The port and the power of a creation are read back. -/
theorem childText?_creation {space port : String} {side : Side} {power : Float} (hport : Token port)
    (hpower : Token (Numeral.floatText power)) :
    ((Change.create side port power).element space).childText? "port" = some port ∧
      ((Change.create side port power).element space).childText? "power"
        = some (Numeral.floatText power) :=
  ⟨hport.content? _, hpower.content? _⟩

/-- **A creation is read back as the branch of its rule.** -/
theorem ofElement_item_of_find? (hfront : ∀ c ∈ r.portFront.toList, isFrontChar c = true)
    {rule : Rule} (hport : Numeral.Writable (rule.leafPort r.commonPort)) {channel : String}
    (hne : channel ≠ "") (htrimmed : Text.trimmed channel = channel) (space : String)
    {changes : List Change} {side : Side}
    (hfound : changes.find? (fun c => c.side = side) = some (r.creation type rule)) :
    Branch.ofElement r.portFront side (Edit.item space channel changes)
      = .ok (some (r.branchFor type rule channel)) := by
  have hside : (r.creation type rule).side = side := by simpa using List.find?_some hfound
  have hside : rule.side r.commonPort = side := hside
  obtain ⟨hportText, hpowerText⟩ := @childText?_creation space _ (rule.side r.commonPort) _
    (@token_portText r type hfront (rule.leafPort r.commonPort))
    (token_floatText_targetPower type (rule.output = r.commonPort))
  rw [Branch.ofElement, childText?_item hne htrimmed, head?_childrenNamed_item, hfound,
    Option.map_some, Reconciler.creation]
  simp only
  rw [hportText, hpowerText]
  simp only
  rw [leafPortOf_portText hfront hport, powerOf_targetPower, Reconciler.branchFor, ← hside]
  rfl

/-- Nothing is read of a side that is not changed. -/
theorem ofElement_item_of_find?_none (front space channel : String) {changes : List Change}
    {side : Side} (hnone : changes.find? (fun c => c.side = side) = none) :
    Branch.ofElement front side (Edit.item space channel changes) = .ok none := by
  rw [Branch.ofElement, head?_childrenNamed_item, hnone]
  cases (Edit.item space channel changes).childText? "channel" <;> rfl

/-- **Of the items of some channels one branch is read for each channel on which a rule is
created.** -/
theorem onSide_items (hfront : ∀ c ∈ r.portFront.toList, isFrontChar c = true) (space : String)
    (side : Side)
    {channels : List String} {changes : String → List Change} {created : String → Option Rule}
    (hchannels : ∀ k ∈ channels, k ≠ "" ∧ Text.trimmed k = k)
    (hfound : ∀ k ∈ channels,
      (changes k).find? (fun c => c.side = side) = (created k).map (r.creation type))
    (hports : ∀ k ∈ channels, ∀ rule, created k = some rule →
      Numeral.Writable (rule.leafPort r.commonPort)) :
    Branch.onSide r.portFront side (channels.map fun k => Edit.item space k (changes k))
      = .ok (channels.filterMap fun k => (created k).map (r.branchFor type · k)) := by
  induction channels with
  | nil => rfl
  | cons k channels ih =>
    have hrest := ih (fun x hx => hchannels x (List.mem_cons_of_mem k hx))
      (fun x hx => hfound x (List.mem_cons_of_mem k hx))
      (fun x hx => hports x (List.mem_cons_of_mem k hx))
    obtain ⟨hne, htrimmed⟩ := hchannels k List.mem_cons_self
    have hk := hfound k List.mem_cons_self
    rw [List.map_cons, Branch.onSide, hrest]
    -- an item without a change on this side gives no branch
    cases hcreated : created k with
    | none =>
      rw [hcreated] at hk
      rw [ofElement_item_of_find?_none _ space k hk,
        List.filterMap_cons_none (by rw [hcreated]; rfl)]
      rfl
    | some rule =>
      rw [hcreated] at hk
      have hport := hports k List.mem_cons_self rule hcreated
      rw [ofElement_item_of_find? hfront hport hne htrimmed space hk,
        List.filterMap_cons_some (by rw [hcreated]; rfl)]
      rfl

end Lightpath.CrossConnect
