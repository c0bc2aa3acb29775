import Lightpath.Proofs.Spectrum.Encoding
import Mathlib

/-!
# What encoding cuts off

How far a slot is from the central frequency and the width that it was made of. Both cuts go toward
their own zero, so what is lost depends on the side of the anchor on which a frequency lies. Main
statement: `quantised_fromCentralAndWidth`.
-/

namespace Lightpath.Spectrum.Slot

variable {p : Spacing} {central width : Int}

/-! ## Order -/

theorem monotone_mhzOfHz : Monotone mhzOfHz :=
  fun _ _ h => Int.tdiv_le_tdiv (by decide) h

theorem monotone_stepsTo (p : Spacing) : Monotone (stepsTo p) := by
  intro central other h
  have hmhz : mhzOfHz central ≤ mhzOfHz other := monotone_mhzOfHz h
  exact Int.tdiv_le_tdiv p.mhz_pos (Int.sub_le_sub_right hmhz anchorMHz)

theorem monotone_unitsOf : Monotone unitsOf := by
  intro width other h
  have hmhz : mhzOfHz width ≤ mhzOfHz other := monotone_mhzOfHz h
  exact Int.tdiv_le_tdiv (by decide) hmhz

/-! ## Distances -/

/-- A width has fewer units than none when it is a whole unit below zero. -/
theorem unitsOf_neg_iff (width : Int) : unitsOf width < 0 ↔ width ≤ -widthUnitHz := by
  calc unitsOf width < 0 ↔ unitsOf width ≤ -1 := Int.lt_iff_add_one_le.trans (by omega)
    _ ↔ mhzOfHz width ≤ widthUnitMHz * -1 := tdiv_le_iff_of_neg (by decide) (by decide)
    _ ↔ width ≤ 1000000 * (widthUnitMHz * -1) := tdiv_le_iff_of_neg (by decide) (by decide)

/-- A width that is not below zero loses less than a unit. -/
theorem unitsOf_bounds (h : 0 ≤ width) :
    unitsOf width * widthUnitHz ≤ width ∧ width < unitsOf width * widthUnitHz + widthUnitHz := by
  have hmhz := tdiv_le h 1000000
  have hmhz' := tdiv_near width (k := 1000000) (by decide)
  have hunits := tdiv_le (Int.tdiv_nonneg h (by decide : (0 : Int) ≤ 1000000)) 12500
  have hunits' := tdiv_near (width.tdiv 1000000) (k := 12500) (by decide)
  rw [unitsOf, mhzOfHz, widthUnitHz, widthUnitMHz]
  constructor
  · omega
  · omega

/-- At and above the anchor a central frequency is cut down to whole steps. -/
theorem stepsTo_bounds_above (p : Spacing) (h : anchorHz ≤ central) :
    anchorHz + stepsTo p central * p.hz ≤ central ∧
      central < anchorHz + stepsTo p central * p.hz + p.hz := by
  have hanchor : anchorMHz ≤ mhzOfHz central := monotone_mhzOfHz h
  have hmhz := tdiv_le (n := central) (h.trans' (by decide)) 1000000
  have hmhz' := tdiv_near central (k := 1000000) (by decide)
  have hsteps := tdiv_le (Int.sub_nonneg_of_le hanchor) p.mhz
  have hsteps' := tdiv_near (mhzOfHz central - anchorMHz) p.mhz_pos
  rw [← stepsTo, mul_comm] at hsteps hsteps'
  rw [anchorHz_eq, Spacing.hz, ← mul_assoc]
  rw [mhzOfHz] at hsteps hsteps'
  constructor
  · omega
  · omega

/-- Below the anchor a central frequency is raised to whole steps, after it may have lost less than a
MHz. -/
theorem stepsTo_bounds_below (p : Spacing) (h : central < anchorHz) :
    anchorHz + stepsTo p central * p.hz ≤ anchorHz ∧
      anchorHz + stepsTo p central * p.hz - p.hz < central ∧
      central < anchorHz + stepsTo p central * p.hz + 1000000 := by
  have hanchor : mhzOfHz central ≤ anchorMHz := monotone_mhzOfHz h.le
  have hmhz := tdiv_near central (k := 1000000) (by decide)
  have hsteps := le_tdiv (Int.sub_nonpos_of_le hanchor) p.mhz
  have hsteps' := tdiv_near (mhzOfHz central - anchorMHz) p.mhz_pos
  have hzero : stepsTo p central ≤ 0 := by
    have hmono := monotone_stepsTo p h.le
    have hat : stepsTo p anchorHz = 0 := Int.zero_tdiv p.mhz
    rwa [hat] at hmono
  have hnonpos : stepsTo p central * p.mhz ≤ 0 :=
    Int.mul_nonpos_of_nonpos_of_nonneg hzero p.mhz_pos.le
  rw [← stepsTo, mul_comm] at hsteps hsteps'
  rw [anchorHz_eq, Spacing.hz, ← mul_assoc]
  rw [mhzOfHz] at hsteps hsteps'
  refine ⟨?_, ?_, ?_⟩
  · omega
  · omega
  · omega

/-- **What a slot keeps of the central frequency and the width in Hz that it was made of.** Above
the anchor both cuts go down; below it the second one goes up, so that a frequency can lie above its
slot by what the first one takes off. -/
structure Quantised (p : Spacing) (central width : Int) (s : Slot) : Prop where
  spacing : s.spacing = p
  multiplier : s.multiplier = stepsTo p central
  granularity : (s.granularity : Int) = unitsOf width
  onGrid : p.hz ∣ s.centralHz - anchorHz
  width : 0 ≤ width → s.widthHz ≤ width ∧ width < s.widthHz + widthUnitHz
  above : anchorHz ≤ central → s.centralHz ≤ central ∧ central < s.centralHz + p.hz
  below : central < anchorHz → s.centralHz ≤ anchorHz ∧ s.centralHz - p.hz < central ∧
    central < s.centralHz + 1000000

/-- A slot of so many steps and so many units is what is left of a frequency and a width. -/
theorem quantised_mk (grid : GridType) (p : Spacing) (central : Int) (h : 0 ≤ unitsOf width) :
    Quantised p central width ⟨grid, p, stepsTo p central, (unitsOf width).toNat⟩ := by
  have hwidth : widthHz ⟨grid, p, stepsTo p central, (unitsOf width).toNat⟩
      = unitsOf width * widthUnitHz := by
    rw [widthHz, Int.toNat_of_nonneg h]
  exact
    { spacing := rfl
      multiplier := rfl
      granularity := Int.toNat_of_nonneg h
      onGrid := ⟨stepsTo p central, by rw [centralHz, centralIn, add_sub_cancel_left, mul_comm]⟩
      width := by rw [hwidth]; exact unitsOf_bounds
      above := stepsTo_bounds_above p
      below := stepsTo_bounds_below p }

/-- **How a frequency and a width are cut.** Multiplier and granularity never go down when frequency
and width go up. Only a width of a whole unit below zero has no slot, because its granularity would
be below zero; every other one has a slot that is quantised. -/
theorem quantised_fromCentralAndWidth (grid : GridType) (p : Spacing) :
    Monotone (stepsTo p) ∧ Monotone unitsOf ∧ ∀ central width : Int,
      fromCentralAndWidth central width grid p = build grid p (stepsTo p central) (unitsOf width) ∧
      ((width ≤ -widthUnitHz ∧ unitsOf width < 0 ∧ fromCentralAndWidth central width grid p
          = .error (.invalid [⟨[.field "slot_granularity"], .greaterThanEqual⟩])) ∨
        (-widthUnitHz < width ∧ ∃ s, fromCentralAndWidth central width grid p = .ok s ∧
          Quantised p central width s)) := by
  refine ⟨monotone_stepsTo p, monotone_unitsOf, fun central width => ⟨rfl, ?_⟩⟩
  rw [fromCentralAndWidth_eq, build]
  by_cases h : unitsOf width < 0
  · refine Or.inl ⟨(unitsOf_neg_iff width).mp h, h, ?_⟩
    rw [if_neg (Int.not_le.mpr h)]
  · refine Or.inr ⟨Int.not_le.mp fun hwidth => h ((unitsOf_neg_iff width).mpr hwidth), _,
      if_pos (Int.not_lt.mp h), ?_⟩
    exact quantised_mk grid p central (Int.not_lt.mp h)

/-- One Hz below the anchor there is still the slot at the anchor: what the first cut takes off is
less than a step. -/
example : fromCentralAndWidth (anchorHz - 1) widthUnitHz .flex .ghz6p25
    = .ok ⟨.flex, .ghz6p25, 0, 1⟩ := rfl

end Lightpath.Spectrum.Slot
