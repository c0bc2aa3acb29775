import Lightpath.PathPlan.Reply
import Lightpath.Proofs.Numeral.DecimalBounds

/-!
# Slots of labels

A label of a route is a whole number, given as a number or as a text. Whatever whole number of no
more digits than are read it is, it has a slot: the decimal arithmetic with it stays in range. Main
statement: `exists_slotOfLabel`.
-/

namespace Lightpath.PathPlan

open Lightpath.Numeral Lightpath.Numeral.Decimal Lightpath.Spectrum

/-! ## The size of a label -/

/-- The bits of a label: no place of a decimal number has more than four. -/
def labelBits : Nat := 4 * maxDigits

theorem lt_two_pow_labelBits {n : Nat} (h : n < 10 ^ maxDigits) : n < 2 ^ labelBits := by
  have hplaces (k : Nat) : 10 ^ k ≤ (2 ^ 4) ^ k := Nat.pow_le_pow_left (by decide) k
  have hbits : 10 ^ maxDigits ≤ 2 ^ labelBits := by
    rw [labelBits, pow_mul]
    exact hplaces maxDigits
  exact Nat.lt_of_lt_of_le h hbits

/-- The parts of a finite floating-point number. -/
theorem bounds_of_parts {x : Float} {negative : Bool} {m : Nat} {e : Int}
    (h : parts x = .finite negative m e) : m < 2 ^ 53 ∧ e ≤ 971 := by
  rw [parts, Parts.ofWord] at h
  have hfield : x.toBits.toNat / power 2 52 % power 2 11 < 2048 := Nat.mod_lt _ (by decide)
  have hfraction : x.toBits.toNat % power 2 52 < 2 ^ 52 := Nat.mod_lt _ (by decide)
  have hpower : power 2 52 = 2 ^ 52 := rfl
  split at h
  case isTrue =>
    split at h
    · exact absurd h (by simp)
    · exact absurd h (by simp)
  case isFalse hlast =>
    split at h
    · obtain ⟨-, rfl, rfl⟩ := Parts.finite.inj h
      omega
    · obtain ⟨-, rfl, rfl⟩ := Parts.finite.inj h
      omega

/-- The whole part of a finite number has no more bits than its mantissa and its exponent. -/
theorem natAbs_whole?_lt {m b c : Nat} {e : Int} (negative : Bool) (hm : m < 2 ^ b) (hbc : b ≤ c)
    (he : b + e ≤ c) : ((Parts.finite negative m e).whole?.getD 0).natAbs < 2 ^ c := by
  have hwhole : ((Parts.finite negative m e).whole?.getD 0).natAbs
      = if 0 ≤ e then m * 2 ^ e.toNat else m / 2 ^ (-e).toNat :=
    natAbs_signed negative _
  obtain ⟨k, rfl⟩ := Nat.exists_eq_add_of_le hbc
  rw [hwhole, pow_add]
  split
  · have hpow : 2 ^ e.toNat ≤ 2 ^ k := Nat.pow_le_pow_right (by decide) (by omega)
    exact Nat.mul_lt_mul_of_lt_of_le hm hpow (Nat.two_pow_pos k)
  · have hquotient : m / 2 ^ (-e).toNat ≤ m := Nat.div_le_self _ _
    exact Nat.lt_of_lt_of_le (Nat.lt_of_le_of_lt hquotient hm)
      (Nat.le_mul_of_pos_right _ (Nat.two_pow_pos k))

/-! ## The slot of a label -/

theorem thz_ghz50 : Spacing.thz .ghz50 = .finite false 5 (-2) := by decide +kernel

theorem within_anchor {low b : Nat} (hb : 1300 ≤ b) : Within low b (anchorGHz .dwdm) := by
  refine ⟨by omega, ?_⟩
  obtain ⟨k, hk⟩ : ∃ k, ((0 : Int) + 300).toNat = k := ⟨_, rfl⟩
  have hanchor : 193100 * 1 * 10 ^ k < 2 ^ (18 + 4 + 4 * k) :=
    mul_digit_mul_pow_lt (by decide) (by decide) k
  rw [units, hk]
  rw [Nat.mul_one] at hanchor
  exact Nat.lt_of_lt_of_le hanchor (Nat.pow_le_pow_right (by decide) (by omega))

/-- The multiplier of a frequency in range is there. -/
theorem exists_multiplierOf {low b : Nat} {d : Decimal} (h : Within low b d) (hlow : low ≤ 180)
    (hb : 1300 ≤ b) (hroom : b ≤ 900000) : ∃ n, multiplierOf d .dwdm .ghz50 = .ok n := by
  obtain ⟨away, hsub, hwithin⟩ := h.sub (within_anchor hb) (by omega) (by omega)
  obtain ⟨distance, habs, hwithin⟩ := hwithin.abs (by omega) (by omega)
  obtain ⟨steps, hdiv, hwithin⟩ := hwithin.div_hundredths (by decide : 5 ≠ 0) (by decide) (by omega)
    (by omega)
  obtain ⟨n, hint⟩ := exists_toInt hwithin
  refine ⟨n, ?_⟩
  rw [multiplierOf, hsub, thz_ghz50]
  show (do
    let distance ← away.abs
    (← distance.div (.finite false 5 (-2))).toInt) = .ok n
  rw [habs]
  show (do (← distance.div (.finite false 5 (-2))).toInt) = .ok n
  rw [hdiv]
  exact hint

/-- **Every label of no more digits than are read has a slot.** -/
theorem exists_slotOfLabel {n : Int} (h : n.natAbs < 2 ^ labelBits) :
    ∃ slot, slotOfLabel n = .ok slot := by
  have hbits : labelBits = 17200 := by decide
  obtain ⟨offset, hmul, hoffset⟩ := exists_ofInt_mul_hundredths h (by decide : 5 < 10)
    (by omega : labelBits + 1196 < 1000000)
  obtain ⟨central, hadd, hcentral⟩ := (within_anchor (by omega)).add hoffset (by omega) (by omega)
  obtain ⟨multiplier, hmultiplier⟩ := exists_multiplierOf hcentral (by omega) (by omega) (by omega)
  refine ⟨⟨.dwdm, .ghz50, multiplier, 4⟩, ?_⟩
  rw [slotOfLabel, labelStep, hmul]
  show (do
    let central ← decimalOutcome ((anchorGHz .dwdm).add offset)
    let multiplier ← decimalOutcome (multiplierOf central .dwdm .ghz50)
    return (⟨.dwdm, .ghz50, multiplier, 4⟩ : Slot)) = _
  rw [hadd]
  show (do
    let multiplier ← decimalOutcome (multiplierOf central .dwdm .ghz50)
    return (⟨.dwdm, .ghz50, multiplier, 4⟩ : Slot)) = _
  rw [hmultiplier]
  rfl

end Lightpath.PathPlan
