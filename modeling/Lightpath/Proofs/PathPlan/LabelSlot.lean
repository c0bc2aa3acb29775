import Lightpath.Proofs.Numeral.DecimalText
import Lightpath.Proofs.PathPlan.Malformed
import Lightpath.Proofs.PathPlan.RouteObjects

/-!
# The slot that a label tells

The first label along the forward route of a reply tells its slot: a label of `n` stands for the
frequency of `n` small steps from the anchor, and the slot counts the same steps. In between the
frequency is a decimal number of 28 digits, and a text. Nothing is lost on the way as long as the
label is not above `10 ^ 27` in size. Main statement: `slotOf_eq_iff`.
-/

namespace Lightpath.PathPlan

open Lightpath.Numeral Lightpath.Numeral.Decimal Lightpath.Spectrum

/-! ## The frequency of a label -/

/-- The largest size of a label that the digits of a frequency leave room for. -/
def largestLabel : Nat := 10 ^ 27

/-- The frequency that a label stands for, in GHz. -/
def frequencyOf (n : Int) : Except DecimalFault Decimal := do
  (anchorGHz .dwdm).add (← (Decimal.ofInt n).mul labelStep)

/-- The distance of a frequency from the anchor. -/
def distanceOf (central : Decimal) : Except DecimalFault Decimal := do
  (← central.sub (anchorGHz .dwdm)).abs

theorem slotOfLabel_eq (n : Int) : slotOfLabel n = (do
    let central ← decimalOutcome (frequencyOf n)
    let multiplier ← decimalOutcome (multiplierOf central .dwdm .ghz50)
    return ⟨.dwdm, .ghz50, multiplier, 4⟩) := rfl

theorem multiplierOf_eq (central : Decimal) : multiplierOf central .dwdm .ghz50 = (do
    (← (← distanceOf central).div (Spacing.thz .ghz50)).toInt) := by
  rw [multiplierOf, distanceOf]
  cases central.sub (anchorGHz .dwdm) <;> rfl

/-- **The computation with a label is exact**: the frequency is `193100 + n * 0.05` GHz, its text
reads back as it, its distance from the anchor is `|n| * 0.05` GHz, and that is `|n|` steps. -/
structure Computed (n : Int) (central distance : Decimal) : Prop where
  frequencyOf_eq : frequencyOf n = .ok central
  exactly_central : Exactly 2 (19310000 + n * 5) central
  read_eq : Decimal.read central.plainText.toList = .ok central
  distanceOf_eq : distanceOf central = .ok distance
  exactly_distance : Exactly 2 (|n| * 5) distance
  multiplierOf_eq : multiplierOf central .dwdm .ghz50 = .ok |n|

/-- The text of the frequency has the same multiplier as the frequency. -/
theorem Computed.multiplierOfGiven_eq {n : Int} {central distance : Decimal}
    (h : Computed n central distance) :
    multiplierOfGiven (.str central.plainText) .dwdm .ghz50 = .ok |n| := by
  rw [multiplierOfGiven, Json.display, h.read_eq]
  show decimalOutcome (multiplierOf central .dwdm .ghz50) = _
  rw [h.multiplierOf_eq]
  rfl

variable {n : Int}

theorem exactly_anchor : Exactly 2 19310000 (anchorGHz .dwdm) :=
  ⟨by decide, le_refl 0, by decide⟩

theorem exactly_labelStep : Exactly 2 5 labelStep :=
  ⟨by decide, by decide, by decide⟩

/-- A frequency of so many steps has so many steps. -/
theorem exists_computed (h : n.natAbs ≤ largestLabel) :
    ∃ central distance, Computed n central distance := by
  have hprecision : precision = 28 := rfl
  have hlargest : largestLabel * 10 = 10 ^ precision := rfl
  have hsmall : 20000000 < largestLabel := by decide
  obtain ⟨offset, hmul, hoffset⟩ := (exactly_ofInt n).mul exactly_labelStep (by omega)
  obtain ⟨central, hadd, hcentral⟩ := exactly_anchor.add hoffset (by omega) (by omega) (by omega)
  obtain ⟨away, hsub, haway⟩ := hcentral.sub exactly_anchor (by omega) (by omega) (by omega)
  obtain ⟨distance, habs, hdistance⟩ := haway.abs (by omega)
  have hsteps : |19310000 + n * 5 - 19310000| = |n| * 5 := by
    rw [Int.abs_eq_natAbs, Int.abs_eq_natAbs]
    omega
  rw [hsteps] at hdistance
  have hsize : (|n|).natAbs = n.natAbs := Int.natAbs_abs n
  have hunits : Exactly 2 (|n| * (5 : Nat)) distance := hdistance
  obtain ⟨steps, hdiv, hint⟩ := hunits.div (by decide) (by decide) (by omega) (by omega) (by decide)
  have hmeasured : distanceOf central = .ok distance := by
    rw [distanceOf, hsub]
    exact habs
  refine ⟨central, distance, ?_, hcentral, hcentral.read_plainText (by omega) (by decide),
    hmeasured, hdistance, ?_⟩
  · rw [frequencyOf, hmul]
    exact hadd
  · rw [multiplierOf_eq, hmeasured, thz_ghz50]
    show (do (← distance.div (.finite false 5 (-2))).toInt) = _
    rw [show (-2 : Int) = -((2 : Nat) : Int) from rfl, hdiv]
    exact hint

/-- The slot of a label counts its steps. -/
theorem slotOfLabel_eq_ok (h : n.natAbs ≤ largestLabel) :
    slotOfLabel n = .ok ⟨.dwdm, .ghz50, |n|, 4⟩ := by
  obtain ⟨central, distance, hcomputed⟩ := exists_computed h
  rw [slotOfLabel_eq, hcomputed.frequencyOf_eq]
  show (do
    let multiplier ← decimalOutcome (multiplierOf central .dwdm .ghz50)
    return (⟨.dwdm, .ghz50, multiplier, 4⟩ : Slot)) = _
  rw [hcomputed.multiplierOf_eq]
  rfl

/-! ## The first label of a route -/

/-- A route object is a record without a label. -/
def Unlabelled (object : Json) : Prop :=
  IsRecord object ∧ part? object "label-hop" = none

/-- A route object has a label that stands for a whole number. -/
def Labelled (object : Json) (n : Int) : Prop :=
  ∃ label value, part? object "label-hop" = some label ∧ label.field? "N" = some value ∧
    value.toWhole = .ok n

/-- **The first label of a route**, none if no object has one. -/
def FirstLabel (objects : List Json) : Option Int → Prop
  | none => ∀ object ∈ objects, Unlabelled object
  | some n => ∃ before object after, objects = before ++ object :: after ∧
      (∀ object ∈ before, Unlabelled object) ∧ Labelled object n

variable {reply reply' object : Json} {before objects objects' : List Json}
  {label label' : Option Int}

/-- Objects without a label are passed over. -/
theorem labelOf_append (h : ∀ object ∈ before, Unlabelled object) (after : List Json) :
    labelOf (before ++ after) = labelOf after := by
  induction before with
  | nil => rfl
  | cons object before ih =>
    obtain ⟨hrecord, hpart⟩ := h object List.mem_cons_self
    have hlooked := partOf_of_isRecord hrecord "label-hop"
    rw [hpart, Option.getD_none] at hlooked
    rw [List.cons_append, labelOf, hlooked]
    exact ih fun other hother => h other (List.mem_cons_of_mem object hother)

/-- A route object with a part is a record. -/
theorem isRecord_of_part? {name : String} {part : Json} (h : part? object name = some part) :
    IsRecord object := by
  rw [part?] at h
  cases hrecord : object.field? "path-route-object" with
  | none =>
    rw [hrecord] at h
    exact absurd h (by simp)
  | some record =>
    cases record with
    | obj fields => exact ⟨fields, hrecord⟩
    | _ =>
      rw [hrecord] at h
      exact absurd h (by simp [Json.field?])

/-- A label that is found ends the search. -/
theorem labelOf_cons_of_labelled (h : Labelled object n) (after : List Json) :
    labelOf (object :: after) = .ok n := by
  obtain ⟨label, value, hpart, hvalue, hn⟩ := h
  have hlooked := partOf_of_isRecord (isRecord_of_part? hpart) "label-hop"
  rw [hpart, Option.getD_some] at hlooked
  rw [labelOf, hlooked]
  cases label with
  | obj fields =>
    show (do (← (Json.obj fields).item "N").toWhole) = _
    rw [Json.item_of_field? hvalue]
    exact hn
  | _ => exact absurd hvalue (by simp [Json.field?])

/-- Without a label a route has label zero. -/
theorem labelOf_of_firstLabel (h : FirstLabel objects label) :
    labelOf objects = .ok (label.getD 0) := by
  cases label with
  | none =>
    have happend := labelOf_append h []
    rwa [List.append_nil] at happend
  | some n =>
    obtain ⟨before, object, after, rfl, hbefore, hlabelled⟩ := h
    rw [labelOf_append hbefore, labelOf_cons_of_labelled hlabelled, Option.getD_some]

/-! ## The slot of a reply -/

/-- The slot of a reply is that of the first label of its route. -/
theorem slotOf_of_firstLabel (h : HasForward reply objects) (hlabel : FirstLabel objects label) :
    slotOf reply = (some <$> slotOfLabel (label.getD 0)) := by
  obtain ⟨properties, hpath, hobjects⟩ := h
  have hproperties := pathProperties_of_pathIn? hpath
  have hforward : forwardObjects properties = .ok (.arr objects) := Json.item_of_field? hobjects
  rw [slotOf, hasResponse_of_pathProperties hproperties, hproperties]
  show (do
    let objects ← forwardObjects properties
    return some (← slotOfLabel (← labelOf (← objects.elements)))) = _
  rw [hforward]
  show (do return some (← slotOfLabel (← labelOf objects))) = _
  rw [labelOf_of_firstLabel hlabel]
  rfl

/-- **What a label decodes to**: the slot of as many steps of 50 GHz, four units wide. -/
structure Decodes (reply : Json) (n : Int) : Prop where
  slot : slotOf reply = .ok (some ⟨.dwdm, .ghz50, |n|, 4⟩)
  /-- The frequency in between is exact, and its text tells the same steps. -/
  computed : ∃ central distance, Computed n central distance ∧
    multiplierOfGiven (.str central.plainText) .dwdm .ghz50 = .ok |n|

/-- A reply is decoded to the slot of its first label. -/
theorem decodes_of_firstLabel (h : HasForward reply objects) (hlabel : FirstLabel objects label)
    (hsize : (label.getD 0).natAbs ≤ largestLabel) : Decodes reply (label.getD 0) := by
  obtain ⟨central, distance, hcomputed⟩ := exists_computed hsize
  refine ⟨?_, central, distance, hcomputed, hcomputed.multiplierOfGiven_eq⟩
  rw [slotOf_of_firstLabel h hlabel, slotOfLabel_eq_ok hsize]
  rfl

/-- **Labels are decoded exactly.** A reply whose route has a first label of no more than `10 ^ 27`
in size has the slot of just as many steps, and one without a label that of none. So the slots of
two replies are equal just if their labels are, but for the sign. -/
theorem slotOf_eq_iff (h : HasForward reply objects) (h' : HasForward reply' objects')
    (hlabel : FirstLabel objects label) (hlabel' : FirstLabel objects' label')
    (hsize : (label.getD 0).natAbs ≤ largestLabel)
    (hsize' : (label'.getD 0).natAbs ≤ largestLabel) :
    Decodes reply (label.getD 0) ∧
      (slotOf reply = slotOf reply' ↔
        label.getD 0 = label'.getD 0 ∨ label.getD 0 = -label'.getD 0) := by
  have hdecodes := decodes_of_firstLabel h hlabel hsize
  have hdecodes' := decodes_of_firstLabel h' hlabel' hsize'
  refine ⟨hdecodes, ?_⟩
  rw [hdecodes.slot, hdecodes'.slot, ← abs_eq_abs]
  constructor
  · intro hslots
    exact congrArg Slot.multiplier (Option.some.inj (Except.ok.inj hslots))
  · intro hsame
    rw [hsame]

/-- The farthest labels on both sides of the anchor have one slot. -/
theorem slotOf_eq_largest :
    Decodes (Planner.labelled (.int (-largestLabel))) (-largestLabel) ∧
      slotOf (Planner.labelled (.int (-largestLabel)))
        = slotOf (Planner.labelled (.int largestLabel)) := by
  have hforward (label : Json) : HasForward (Planner.labelled label)
      [.obj [("path-route-object", .obj [("label-hop", .obj [("N", label)])])]] :=
    ⟨_, rfl, rfl⟩
  have hlabel (n : Int) : FirstLabel
      [.obj [("path-route-object", .obj [("label-hop", .obj [("N", .int n)])])]] (some n) :=
    ⟨[], _, [], rfl, by simp, _, _, rfl, rfl, rfl⟩
  obtain ⟨hdecodes, hslots⟩ := slotOf_eq_iff (hforward _) (hforward _) (hlabel (-largestLabel))
    (hlabel largestLabel) (by simp) (by simp)
  exact ⟨hdecodes, hslots.mpr (Or.inr rfl)⟩

end Lightpath.PathPlan
