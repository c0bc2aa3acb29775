import Lightpath.Spectrum.Slot
import Mathlib.Algebra.Order.Group.Int

/-!
# Encoding and decoding of slots

Encoding cuts twice: Hz to whole MHz toward zero, and then the distance from the anchor to whole
steps toward the anchor. A decoded slot consists of whole MHz and of whole steps, so nothing is cut
off it. Main statement: a decoded slot is encoded to itself (`encoded_of_decoded`).
-/

namespace Lightpath.Spectrum

/-! ## Cutting -/

/-- What is cut off is less than a step. -/
theorem tdiv_near (n : Int) {k : Int} (hk : 0 < k) :
    n - k < k * n.tdiv k ∧ k * n.tdiv k < n + k := by
  have hsum := Int.mul_tdiv_add_tmod n k
  have hbelow := Int.lt_tmod_of_pos n hk
  have habove := Int.tmod_lt_of_pos n hk
  constructor
  · omega
  · omega

/-- Nothing is added to a number that is not below zero. -/
theorem tdiv_le {n : Int} (hn : 0 ≤ n) (k : Int) : k * n.tdiv k ≤ n := by
  have hsum := Int.mul_tdiv_add_tmod n k
  have hrest := Int.tmod_nonneg k hn
  omega

/-- Nothing is taken off a number that is not above zero. -/
theorem le_tdiv {n : Int} (hn : n ≤ 0) (k : Int) : n ≤ k * n.tdiv k := by
  have hopposite := tdiv_le (Int.neg_nonneg_of_nonpos hn) k
  rw [Int.neg_tdiv, Int.mul_neg] at hopposite
  omega

/-- Below zero a quotient is at most `j` when what is divided is. -/
theorem tdiv_le_iff_of_neg {n k j : Int} (hk : 0 < k) (hj : j < 0) : n.tdiv k ≤ j ↔ n ≤ k * j := by
  constructor
  · intro h
    have hn : n ≤ 0 := by
      by_contra hn
      exact absurd (Int.tdiv_nonneg (by omega : 0 ≤ n) hk.le) (by omega)
    calc n ≤ k * n.tdiv k := le_tdiv hn k
      _ ≤ k * j := Int.mul_le_mul_of_nonneg_left h hk.le
  · intro h
    calc n.tdiv k ≤ (k * j).tdiv k := Int.tdiv_le_tdiv hk h
      _ = j := Int.mul_tdiv_cancel_left j hk.ne'

namespace Slot

/-! ## Multiplier and granularity -/

/-- The whole steps from the anchor to a central frequency in Hz. -/
def stepsTo (p : Spacing) (central : Int) : Int :=
  (mhzOfHz central - anchorMHz).tdiv p.mhz

/-- The whole units of a width in Hz. -/
def unitsOf (width : Int) : Int :=
  (mhzOfHz width).tdiv widthUnitMHz

theorem fromCentralAndWidth_eq (central width : Int) (grid : GridType) (p : Spacing) :
    fromCentralAndWidth central width grid p = build grid p (stepsTo p central) (unitsOf width) :=
  rfl

/-! ## Decoded slots -/

/-- Whole MHz lose nothing. -/
theorem mhzOfHz_mul (mhz : Int) : mhzOfHz (mhz * 1000000) = mhz :=
  Int.mul_tdiv_cancel mhz (by decide)

/-- The steps to the central frequency of a slot are its multiplier, -/
theorem stepsTo_centralIn (s : Slot) (p : Spacing) : stepsTo p (s.centralIn p) = s.multiplier := by
  have hmhz : s.centralIn p = (anchorMHz + s.multiplier * p.mhz) * 1000000 := by
    rw [centralIn, anchorHz_eq, Spacing.hz, Int.add_mul, Int.mul_assoc]
  rw [stepsTo, hmhz, mhzOfHz_mul, add_sub_cancel_left, Int.mul_tdiv_cancel _ p.mhz_pos.ne']

/-- and the units of its width are its granularity. -/
theorem unitsOf_widthHz (s : Slot) : unitsOf s.widthHz = s.granularity := by
  have hmhz : s.widthHz = s.granularity * widthUnitMHz * 1000000 := by
    rw [widthHz, widthUnitHz_eq, Int.mul_assoc]
  rw [unitsOf, hmhz, mhzOfHz_mul, Int.mul_tdiv_cancel _ (by decide)]

theorem build_granularity (grid : GridType) (p : Spacing) (multiplier : Int) (granularity : Nat) :
    build grid p multiplier granularity = .ok ⟨grid, p, multiplier, granularity⟩ := by
  rw [build, if_pos (Int.natCast_nonneg granularity), Int.toNat_natCast]

/-- Whatever spacing a slot is decoded with, it is encoded with. -/
theorem fromCentralAndWidth_centralIn (s : Slot) (p : Spacing) :
    fromCentralAndWidth (s.centralIn p) s.widthHz s.grid p = .ok { s with spacing := p } := by
  rw [fromCentralAndWidth_eq, stepsTo_centralIn, unitsOf_widthHz, build_granularity]

/-- The edges of a slot lie at the same distance from its centre, and this far apart is its width. -/
theorem fromBounds_toBounds (s : Slot) :
    fromBounds s.toBounds.1 s.toBounds.2 s.grid s.spacing = .ok s := by
  -- half of a width is a whole number of Hz
  have hhalf : Int.fdiv s.widthHz 2 = s.granularity * 6250000000 := by
    rw [Int.fdiv_eq_ediv_of_nonneg _ (by decide), widthHz, widthUnitHz]
    omega
  have hwidth : s.toBounds.2 - s.toBounds.1 = s.widthHz := by
    simp only [toBounds, toBoundsIn, hhalf]
    rw [widthHz, widthUnitHz]
    omega
  have hcentral : s.toBounds.1 + Int.fdiv s.widthHz 2 = s.centralHz := by
    simp only [toBounds, toBoundsIn, centralHz]
    omega
  rw [fromBounds, hwidth, hcentral]
  exact fromCentralAndWidth_centralIn s s.spacing

/-- **A slot is encoded from what it is decoded to.** -/
theorem fromCentralAndWidth_toCentralAndWidth (s : Slot) :
    fromCentralAndWidth s.toCentralAndWidth.1 s.toCentralAndWidth.2 s.grid s.spacing = .ok s :=
  fromCentralAndWidth_centralIn s s.spacing

/-- Slots of one grid and one spacing differ in frequency or width. -/
theorem eq_of_toCentralAndWidth_eq {s t : Slot} (hgrid : s.grid = t.grid)
    (hspacing : s.spacing = t.spacing) (h : s.toCentralAndWidth = t.toCentralAndWidth) : s = t := by
  have hs := fromCentralAndWidth_toCentralAndWidth s
  rw [h, hgrid, hspacing, fromCentralAndWidth_toCentralAndWidth t] at hs
  exact (Except.ok.inj hs).symm

/-- **A decoded slot is encoded to itself**, by its centre and width as well as by its edges. Another
spacing with which it is decoded and encoded takes the place of its own. -/
theorem encoded_of_decoded (s : Slot) (p : Spacing) :
    fromCentralAndWidth s.toCentralAndWidth.1 s.toCentralAndWidth.2 s.grid s.spacing = .ok s ∧
      fromBounds s.toBounds.1 s.toBounds.2 s.grid s.spacing = .ok s ∧
      fromCentralAndWidth (s.toCentralAndWidthIn p).1 (s.toCentralAndWidthIn p).2 s.grid p
        = .ok { s with spacing := p } :=
  ⟨fromCentralAndWidth_toCentralAndWidth s, fromBounds_toBounds s,
    fromCentralAndWidth_centralIn s p⟩

end Slot

end Lightpath.Spectrum
