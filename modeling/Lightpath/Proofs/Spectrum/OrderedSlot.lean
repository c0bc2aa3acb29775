import Lightpath.Proofs.Numeral.Product
import Lightpath.Proofs.Outcome
import Lightpath.Proofs.Spectrum.Rounding
import Lightpath.Spectrum.Quantity

/-!
# Slots of ordered widths

A width that is ordered in GHz is multiplied as a floating-point number, and the product is cut to whole Hz.
Main statement: a width that is not at or below zero has a slot when the product is finite
(`exists_ofOrder_iff`), and up to `2 ^ 992` GHz it is (`isFinite_of_le_roomyGHz`).
-/

namespace Lightpath

open Lightpath.Numeral

/-! ## Whole parts -/

namespace Json

variable {x : Float} {n : Int}

theorem toWhole_float_eq_ok_iff : (Json.float x).toWhole = .ok n ↔ truncated? x = some n := by
  rw [toWhole, truncated?]
  cases parts x with
  | notANumber => simp [Parts.whole?]
  | infinite negative => simp [Parts.whole?]
  | finite negative m e => simp [Parts.whole?]

theorem exists_truncated?_iff : (∃ n, truncated? x = some n) ↔ (parts x).isFinite = true := by
  rw [truncated?]
  cases parts x with
  | notANumber => simp [Parts.whole?, Parts.isFinite]
  | infinite negative => simp [Parts.whole?, Parts.isFinite]
  | finite negative m e => simp [Parts.whole?, Parts.isFinite]

end Json

namespace Spectrum

/-! ## Products -/

/-- A GHz in Hz, as the number that a width is multiplied with. -/
def hzPerGHz : Float := nearestWhole 1000000000

theorem unsigned_hzPerGHz : Unsigned hzPerGHz := rfl

/-- The width of `2 ^ 992` GHz, which is more than `10 ^ 298`. -/
def roomyGHz : Float := Float.ofBits 0x7DF0000000000000

/-- No width up to this one is too large. -/
theorem isFinite_of_le_roomyGHz {x : Float} (hx : ¬ x ≤ 0) (h : x ≤ roomyGHz) :
    (parts (x * hzPerGHz)).isFinite = true := by
  have hroomy : roomyGHz.toModel.unpack = .finite .positive (2 ^ 52) 940 (by decide) := rfl
  have hunit : hzPerGHz.toModel.unpack = .finite .positive 8388608000000000 (-23) (by decide) := rfl
  obtain ⟨m, e, hm, hfinite, he⟩ := exists_finite_of_le hroomy hx h
  exact isFinite_mul_of_exponents hfinite hunit (by omega)

/-! ## Slots -/

/-- A width that is not below zero has a slot. -/
theorem exists_fromCentralAndWidth {width : Int} (h : 0 ≤ width) (central : Int) (grid : GridType)
    (p : Spacing) : ∃ slot, Slot.fromCentralAndWidth central width grid p = .ok slot := by
  have hunits : 0 ≤ Slot.unitsOf width := Slot.monotone_unitsOf h
  rw [Slot.fromCentralAndWidth_eq, Slot.build, if_pos hunits]
  exact ⟨_, rfl⟩

/-- A width in GHz is multiplied, and its fraction is cut off. -/
theorem ofOrder_float (mhz : Int) (x : Float) :
    Slot.ofOrder (.int mhz) (.float x) = (Json.float (x * hzPerGHz)).toWhole >>= fun width =>
      Slot.fromCentralAndWidth (mhz * 1000000) width .flex .ghz6p25 := by
  have hunit : Json.floatOfInt 1000000000 = .ok hzPerGHz := by
    rw [Json.floatOfInt, if_pos (by decide +kernel), hzPerGHz]
  have hproduct : (Quantity.real x).mul (.whole 1000000000) = .ok (.real (x * hzPerGHz)) := by
    rw [Quantity.mul, Quantity.combine, Quantity.toFloat, Quantity.toFloat, hunit]
    · rfl
    · exact fun _ _ h => nomatch h
  show ((Quantity.real x).mul (.whole 1000000000) >>= Quantity.toWhole) >>= _ = _
  rw [hproduct]
  rfl

/-- **A width that is not at or below zero has a slot when it is a finite number of Hz.** -/
theorem exists_ofOrder_iff (mhz : Int) {x : Float} (hx : ¬ x ≤ 0) :
    (∃ slot, Slot.ofOrder (.int mhz) (.float x) = .ok slot) ↔ (parts (x * hzPerGHz)).isFinite = true := by
  rw [ofOrder_float, ← Json.exists_truncated?_iff]
  constructor
  · rintro ⟨slot, h⟩
    obtain ⟨width, hwidth, -⟩ := Outcome.bind_eq_ok_iff.mp h
    exact ⟨width, Json.toWhole_float_eq_ok_iff.mp hwidth⟩
  · rintro ⟨width, hwidth⟩
    have hnonneg : 0 ≤ width := whole?_mul_nonneg (unsigned_of_not_le_zero hx) unsigned_hzPerGHz hwidth
    obtain ⟨slot, hslot⟩ := exists_fromCentralAndWidth hnonneg (mhz * 1000000) .flex .ghz6p25
    exact ⟨slot, Outcome.bind_eq_ok_iff.mpr ⟨width, Json.toWhole_float_eq_ok_iff.mpr hwidth, hslot⟩⟩

end Spectrum

end Lightpath
