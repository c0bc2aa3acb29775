import Lightpath.Numeral.Binary64
import Mathlib

/-!
# Products of floating-point numbers

The sign of a product is told by the signs of its factors, whatever rounding does to the rest of it, and its
exponent is hardly greater than theirs together. Main statements: a product of numbers without a sign has no
whole part below zero (`whole?_mul_nonneg`), and a product of numbers whose exponents leave room for it is
finite (`isFinite_mul_of_exponents`).
-/

namespace Lightpath.Numeral

open Float.Model Float.Model.UnpackedFloat

/-! ## Signs -/

/-- The sign of an unpacked number. There is one not-a-number, and its word has a positive sign. -/
def signOf : UnpackedFloat → Sign
  | .infinity s => s
  | .notANumber => .positive
  | .zero s => s
  | .finite s .. => s

/-- The sign of a number is the first bit of its word. -/
theorem unpackSign_pack (spec : Format) (u : UnpackedFloat) :
    unpackSign (u.pack spec) = (signOf u).toBitVec := by
  cases u with
  | infinity s => exact unpackSign_packComponents s _ _
  | notANumber => exact unpackSign_packComponents Sign.positive _ _
  | zero s => exact unpackSign_packComponents s _ _
  | finite s m e hm =>
    -- a number that is too large, a normal one and a subnormal one
    rw [UnpackedFloat.pack]
    split
    · exact unpackSign_packComponents s _ _
    · split
      · exact unpackSign_packComponents s _ _
      · exact unpackSign_packComponents s _ _

/-- Rounding keeps the sign, also when nothing but a zero is left. -/
theorem signOf_roundWithAccuracy (spec : Format) (s : Sign) (m : Nat) (e : Int) (a : Accuracy) :
    signOf (roundWithAccuracy spec s m e a) = s := by
  rw [roundWithAccuracy]
  simp only
  split
  · rfl
  · rfl

/-- A product has the product of the signs, unless it is the product of an infinity and a zero. -/
theorem signOf_mul (spec : Format) (u v : UnpackedFloat) :
    u.mul spec v = .notANumber ∨ signOf (u.mul spec v) = signOf u * signOf v := by
  cases u with
  | notANumber => exact Or.inl rfl
  | infinity s =>
    cases v with
    | notANumber => exact Or.inl rfl
    | infinity t => exact Or.inr rfl
    | zero t => exact Or.inl rfl
    | finite t n f hn => exact Or.inr rfl
  | zero s =>
    cases v with
    | notANumber => exact Or.inl rfl
    | infinity t => exact Or.inl rfl
    | zero t => exact Or.inr rfl
    | finite t n f hn => exact Or.inr rfl
  | finite s m e hm =>
    cases v with
    | notANumber => exact Or.inl rfl
    | infinity t => exact Or.inr rfl
    | zero t => exact Or.inr rfl
    | finite t n f hn => exact Or.inr (signOf_roundWithAccuracy spec _ _ _ _)

/-! ## Numbers without a sign -/

/-- A number has no sign: it is not below zero, and no negative zero. The one not-a-number has none either. -/
def Unsigned (x : Float) : Prop :=
  signOf x.toModel.unpack = .positive

/-- Numbers are compared as they are unpacked. -/
theorem le_iff {x y : Float} : x ≤ y ↔ x.toModel.unpack.le y.toModel.unpack = true :=
  decide_eq_true_iff

theorem le_zero_iff {x : Float} : x ≤ 0 ↔ x.toModel.unpack.le (.zero .positive) = true :=
  le_iff

/-- What is not at or below zero is above it, or it is not a number. -/
theorem unsigned_of_not_le_zero {x : Float} (h : ¬ x ≤ 0) : Unsigned x := by
  rw [le_zero_iff] at h
  rw [Unsigned]
  cases hx : x.toModel.unpack with
  | notANumber => rfl
  | zero s =>
    rw [hx] at h
    exact absurd rfl h
  | infinity s =>
    rw [hx] at h
    cases s with
    | positive => rfl
    | negative => exact absurd rfl h
  | finite s m e hm =>
    rw [hx] at h
    cases s with
    | positive => rfl
    | negative => exact absurd rfl h

/-- The word of a product of numbers without a sign has no sign bit. -/
theorem unpackSign_mul {x y : Float} (hx : Unsigned x) (hy : Unsigned y) :
    @unpackSign Format.binary64 (x * y).toBits.toBitVec = 0#1 := by
  show unpackSign (UnpackedFloat.pack Format.binary64
    (x.toModel.unpack.mul Format.binary64 y.toModel.unpack)) = 0#1
  rw [unpackSign_pack]
  rcases signOf_mul Format.binary64 x.toModel.unpack y.toModel.unpack with h | h
  · rw [h]
    rfl
  · rw [h, hx, hy]
    rfl

theorem nonneg_whole? {m : Nat} {e n : Int} (h : (Parts.finite false m e).whole? = some n) : 0 ≤ n := by
  rw [← Option.some.inj h]
  exact Int.natCast_nonneg _

/-- A word without a sign bit has no whole part below zero. -/
theorem whole?_parts_nonneg {x : Float}
    (hx : @unpackSign Format.binary64 x.toBits.toBitVec = 0#1) {n : Int}
    (h : truncated? x = some n) : 0 ≤ n := by
  have hbit : x.toBits.toNat / power 2 63 % 2 = 0 := by
    have hsign := congrArg BitVec.toNat hx
    rw [unpackSign_def, BitVec.extractLsb'_toNat, Nat.shiftRight_eq_div_pow] at hsign
    exact hsign
  rw [truncated?, parts, Parts.ofWord, hbit] at h
  simp only [Nat.zero_ne_one, decide_false] at h
  split at h
  · split at h
    · exact absurd h (by simp [Parts.whole?])
    · exact absurd h (by simp [Parts.whole?])
  · split at h
    · exact nonneg_whole? h
    · exact nonneg_whole? h

/-- **A product of numbers without a sign has no whole part below zero.** -/
theorem whole?_mul_nonneg {x y : Float} (hx : Unsigned x) (hy : Unsigned y) {n : Int}
    (h : truncated? (x * y) = some n) : 0 ≤ n :=
  whole?_parts_nonneg (unpackSign_mul hx hy) h

/-! ## Exponents -/

/-- A number is finite, and a word has room for its exponent. -/
def Fits : UnpackedFloat → Prop
  | .infinity _ => False
  | .notANumber => False
  | .zero _ => True
  | .finite _ _ e _ => e ≤ 971

/-- The exponent of a word tells whether its number is finite. -/
theorem isFinite_parts_iff (x : Float) :
    (parts x).isFinite = true ↔ @unpackExponent Format.binary64 x.toBits.toBitVec ≠ -1#_ := by
  have hfield : x.toBits.toNat / power 2 52 % power 2 11
      = (@unpackExponent Format.binary64 x.toBits.toBitVec).toNat := by
    rw [unpackExponent_def, BitVec.extractLsb'_toNat, Nat.shiftRight_eq_div_pow]
    rfl
  have hlast : (-1#11 : BitVec 11).toNat = 2047 := rfl
  rw [parts, Parts.ofWord, hfield, ne_eq, ← BitVec.toNat_inj, hlast]
  simp only
  split
  · split <;> simp [Parts.isFinite, *]
  · split <;> simp [Parts.isFinite, *]

theorem unpackExponent_pack_iff (u : UnpackedFloat) :
    unpackExponent (u.pack Format.binary64) ≠ -1#_ ↔ Fits u := by
  cases u with
  | infinity s => simp [UnpackedFloat.pack, packedInfinity, Fits]
  | notANumber => simp [UnpackedFloat.pack, packedNaN, Fits]
  | zero s => simp [UnpackedFloat.pack, packedZero, Fits]
  | finite s m e hm =>
    have hbias : (e + Format.binary64.exponentBias + Format.binary64.mantissaBitsWithoutImplicit).toNat
        = (e + 1075).toNat := by
      rw [add_assoc]
      rfl
    rw [UnpackedFloat.pack, Fits]
    simp only [hbias]
    split
    case isTrue hlarge =>
      simp only [packedInfinity, unpackExponent_packComponents]
      refine iff_of_false (not_not_intro rfl) ?_
      omega
    case isFalse hsmall =>
      refine iff_of_true ?_ (by omega)
      split
      · rw [unpackExponent_packComponents, ne_eq, ← BitVec.toNat_inj, BitVec.toNat_ofNat]
        have hlast : (-1#11 : BitVec 11).toNat = 2047 := rfl
        rw [hlast]
        omega
      · rw [unpackExponent_packComponents]
        decide

/-- Shifting a mantissa to the right halves it so many times. -/
theorem mantissa_shiftRight (em : ExtendedMantissa) (n : Nat) :
    (em >>> n).mantissa = em.mantissa / 2 ^ n := by
  show (n.repeat ExtendedMantissa.shiftRightOne em).mantissa = _
  induction n with
  | zero => simp [Nat.repeat]
  | succ n ih =>
    rw [Nat.repeat, ExtendedMantissa.shiftRightOne, ih, Nat.div_div_eq_div_mul, pow_succ]

/-- Rounding adds one at most. -/
theorem roundedMantissa_le (em : ExtendedMantissa) : em.roundedMantissa ≤ em.mantissa + 1 := by
  rw [ExtendedMantissa.roundedMantissa]
  cases em.accuracy with
  | exact => exact Nat.le_succ _
  | inexact o =>
    cases o with
    | lt => exact Nat.le_succ _
    | eq =>
      rw [Accuracy.roundToNearestEven]
      omega
    | gt => exact le_refl _

/-- Shifting leaves 53 digits at most, and the exponent goes up by those that are shifted out. -/
theorem shiftToTargetExponent_bounds {m b : Nat} (hm : m < 2 ^ b) (hb : 53 ≤ b) (e : Int)
    (a : Accuracy) :
    (shiftToTargetExponent Format.binary64 m e a).1.mantissa < 2 ^ 53 ∧
      (shiftToTargetExponent Format.binary64 m e a).2 ≤ max (e + b - 53) (-1074) := by
  have htarget : Format.binary64.targetExponent (totalExponent m e)
      = max (m.log2 + 1 + e - 53) (-1074) := rfl
  have hmantissa : (ExtendedMantissa.ofMantissaAndAccuracy m a).mantissa = m := by
    cases a with
    | exact => rfl
    | inexact o => cases o <;> rfl
  have hlog : m.log2 < b := by
    by_cases hzero : m = 0
    · rw [hzero, Nat.log2_zero]
      omega
    · exact (Nat.log2_lt hzero).mpr hm
  rw [shiftToTargetExponent, htarget]
  simp only [shiftToExponent, mantissa_shiftRight, hmantissa]
  generalize hshift : (max ((m.log2 : Int) + 1 + e - 53) (-1074) - e).toNat = shift
  constructor
  · have hdigits : m < 2 ^ 53 * 2 ^ shift := by
      rw [← pow_add]
      exact Nat.lt_of_lt_of_le Nat.lt_log2_self (Nat.pow_le_pow_right (by decide) (by omega))
    exact Nat.div_lt_of_lt_mul (by rwa [Nat.mul_comm])
  · omega

/-- Rounding a number of so many digits leaves room for the exponent unless it is this large. -/
theorem fits_roundWithAccuracy {m b : Nat} (hm : m < 2 ^ b) (hb : 53 ≤ b) {e : Int} (he : e + b ≤ 1023)
    (s : Sign) (a : Accuracy) : Fits (roundWithAccuracy Format.binary64 s m e a) := by
  obtain ⟨hdigits, hexponent⟩ := shiftToTargetExponent_bounds hm hb e a
  rw [roundWithAccuracy]
  generalize shiftToTargetExponent Format.binary64 m e a = first at hdigits hexponent
  obtain ⟨em, e₁⟩ := first
  simp only at hdigits hexponent ⊢
  -- rounding up may make a digit more, which is shifted out once more
  have hrounded : em.roundedMantissa < 2 ^ 54 := by
    have hle := roundedMantissa_le em
    omega
  have hlast := (shiftToTargetExponent_bounds hrounded (by decide) e₁ .exact).2
  split
  · trivial
  · rw [Fits]
    omega

/-! ## Finite products -/

theorem isFinite_mul_iff (x y : Float) :
    (parts (x * y)).isFinite = true ↔ Fits (x.toModel.unpack.mul Format.binary64 y.toModel.unpack) :=
  (isFinite_parts_iff (x * y)).trans (unpackExponent_pack_iff _)

/-- A word that has the last exponent is of no finite number. -/
theorem unpack_of_unpackExponent {spec : Format} {w : BitVec spec.numBits}
    (h : unpackExponent w = -1#_) :
    UnpackedFloat.unpack spec w = .notANumber ∨ ∃ s, UnpackedFloat.unpack spec w = .infinity s := by
  rw [UnpackedFloat.unpack, if_pos h]
  split
  · exact Or.inr ⟨_, rfl⟩
  · exact Or.inl rfl

/-- A product with a factor that is not finite is not finite. -/
theorem isFinite_mul_of_not_isFinite {x : Float} (hx : (parts x).isFinite = false) (y : Float) :
    (parts (x * y)).isFinite = false := by
  rw [← Bool.not_eq_true] at hx ⊢
  rw [isFinite_parts_iff, not_not] at hx
  rw [isFinite_mul_iff]
  have hunpack : x.toModel.unpack = .notANumber ∨ ∃ s, x.toModel.unpack = .infinity s :=
    unpack_of_unpackExponent hx
  rcases hunpack with h | ⟨s, h⟩
  · rw [h]
    exact id
  · rw [h]
    cases y.toModel.unpack <;> exact id

/-- The mantissa of a word has 53 digits at most. -/
theorem mantissa_unpack_lt {w : BitVec Format.binary64.numBits} {s : Sign} {m : Nat} {e : Int}
    {hm : 0 < m} (h : UnpackedFloat.unpack Format.binary64 w = .finite s m e hm) : m < 2 ^ 53 := by
  rw [UnpackedFloat.unpack] at h
  simp only at h
  split at h
  · split at h
    · exact absurd h (by simp)
    · exact absurd h (by simp)
  · split at h
    · split at h
      · exact absurd h (by simp)
      · obtain ⟨-, rfl, -⟩ := UnpackedFloat.finite.inj h
        exact (BitVec.isLt _).trans (by decide)
    · obtain ⟨-, rfl, -⟩ := UnpackedFloat.finite.inj h
      exact BitVec.isLt _

/-- A number above zero that is not above a finite one is finite, and it has no greater exponent. -/
theorem exists_finite_of_le {x c : Float} {n : Nat} {f : Int} {hn : 0 < n}
    (hc : c.toModel.unpack = .finite .positive n f hn) (hpos : ¬ x ≤ 0) (h : x ≤ c) :
    ∃ m e hm, x.toModel.unpack = .finite .positive m e hm ∧ e ≤ f := by
  rw [le_iff, hc] at h
  have hunsigned := unsigned_of_not_le_zero hpos
  rw [Unsigned] at hunsigned
  cases hx : x.toModel.unpack with
  | notANumber =>
    rw [hx] at h
    exact absurd h Bool.false_ne_true
  | zero s =>
    rw [le_zero_iff, hx] at hpos
    exact absurd rfl hpos
  | infinity s =>
    rw [hx] at h hunsigned
    obtain rfl : s = .positive := hunsigned
    exact absurd h Bool.false_ne_true
  | finite s m e hm =>
    rw [hx] at h hunsigned
    obtain rfl : s = .positive := hunsigned
    refine ⟨m, e, hm, rfl, ?_⟩
    have horder : ((compare e f).then (compare m n)).isLE = true := h
    by_contra hlt
    rw [compare_gt_iff_gt.mpr (Int.not_le.mp hlt)] at horder
    exact absurd horder Bool.false_ne_true

/-- **A product of numbers whose exponents leave room for it is finite.** -/
theorem isFinite_mul_of_exponents {x y : Float} {m n : Nat} {e f : Int} {hm : 0 < m} {hn : 0 < n}
    {s t : Sign} (hx : x.toModel.unpack = .finite s m e hm)
    (hy : y.toModel.unpack = .finite t n f hn) (h : e + f ≤ 917) : (parts (x * y)).isFinite = true := by
  have hdigits : m * n < 2 ^ 106 := calc
    m * n < 2 ^ 53 * 2 ^ 53 := Nat.mul_lt_mul'' (mantissa_unpack_lt hx) (mantissa_unpack_lt hy)
    _ = 2 ^ 106 := by decide
  rw [isFinite_mul_iff, hx, hy]
  exact fits_roundWithAccuracy hdigits (by decide) (by omega) _ _

end Lightpath.Numeral
