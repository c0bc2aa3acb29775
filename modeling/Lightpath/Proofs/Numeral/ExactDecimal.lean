import Mathlib.Algebra.Order.Group.Unbundled.Int
import Lightpath.Proofs.Numeral.DecimalBounds

/-!
# Decimal arithmetic that loses nothing

A number of `10 ^ -places` units that has no more digits than the precision is computed with
exactly: a sum, a difference, a product and a distance from zero are rounded to themselves. A
quotient that is a whole number comes out with zeros behind the point, which are cut off.
-/

namespace Lightpath.Numeral

namespace Decimal

/-! ## Counting digits -/

/-- What the bits of a number say about its digits, for the numbers that arise here. -/
theorem pow_guess_le_two_pow : ∀ b < 200,
    10 ^ (b * 30103 / 100000 - 1) ≤ 2 ^ b ∧ 2 ^ (b + 1) ≤ 10 ^ (b * 30103 / 100000 + 2) := by
  decide +kernel

/-- The count of digits tells between which powers of ten a number lies. -/
theorem digitCount_bounds {n : Nat} (hn : n ≠ 0) (h : n < 2 ^ 200) :
    10 ^ (digitCount n - 1) ≤ n ∧ n < 10 ^ digitCount n := by
  obtain ⟨hlow, hhigh⟩ := pow_guess_le_two_pow n.log2 ((Nat.log2_lt hn).mpr h)
  have hself : 2 ^ n.log2 ≤ n := Nat.log2_self_le hn
  have hlt : n < 2 ^ (n.log2 + 1) := Nat.lt_log2_self
  generalize hguess : n.log2 * 30103 / 100000 = guess at hlow hhigh
  have hcount : digitCount n = if n < 10 ^ guess then guess
      else if n < 10 ^ (guess + 1) then guess + 1 else guess + 2 := by
    rw [digitCount, if_neg hn, hguess]
    rfl
  -- the guess is the count, or one or two below it
  by_cases hat : n < 10 ^ guess
  · rw [hcount, if_pos hat]
    exact ⟨hlow.trans hself, hat⟩
  · rw [if_neg hat] at hcount
    by_cases hnext : n < 10 ^ (guess + 1)
    · rw [hcount, if_pos hnext]
      exact ⟨Nat.le_of_not_lt hat, hnext⟩
    · rw [hcount, if_neg hnext]
      exact ⟨Nat.le_of_not_lt hnext, Nat.lt_of_lt_of_le hlt hhigh⟩

/-- A number has more digits than a power of ten has zeros just if it is at least that power. -/
theorem lt_digitCount_iff {n k : Nat} (h : n < 2 ^ 200) : k < digitCount n ↔ 10 ^ k ≤ n := by
  by_cases hn : n = 0
  · have hpos : 0 < 10 ^ k := Nat.pow_pos (by decide)
    rw [hn, digitCount, if_pos rfl]
    omega
  · obtain ⟨hlow, hhigh⟩ := digitCount_bounds hn h
    constructor
    · intro hk
      exact (Nat.pow_le_pow_right (by decide) (by omega)).trans hlow
    · intro hle
      exact (Nat.pow_lt_pow_iff_right (by decide)).mp (Nat.lt_of_le_of_lt hle hhigh)

/-- A number below a power of ten has no more digits than this power has zeros. -/
theorem digitCount_le_of_lt {n k : Nat} (hk : k ≤ 60) (h : n < 10 ^ k) : digitCount n ≤ k := by
  have hpow : 10 ^ k ≤ 10 ^ 60 := Nat.pow_le_pow_right (by decide) hk
  have hsmall : n < 2 ^ 200 := by omega
  exact Nat.le_of_not_lt fun hlt => absurd ((lt_digitCount_iff hsmall).mp hlt) (by omega)

/-- Zeros at the end of a number count as digits of it. -/
theorem digitCount_add_le {c k m : Nat} (hm : m ≤ 60) (hc : c ≠ 0) (h : c * 10 ^ k < 10 ^ m) :
    digitCount c + k ≤ m := by
  have hpow : 10 ^ m ≤ 10 ^ 60 := Nat.pow_le_pow_right (by decide) hm
  have hself : c ≤ c * 10 ^ k := Nat.le_mul_of_pos_right c (Nat.pow_pos (by decide))
  have hfirst := (digitCount_bounds hc (by omega)).1
  have hlast : 10 ^ (digitCount c - 1 + k) < 10 ^ m := by
    rw [pow_add]
    exact Nat.lt_of_le_of_lt (Nat.mul_le_mul_right _ hfirst) h
  have hlt := (Nat.pow_lt_pow_iff_right (by decide)).mp hlast
  omega

theorem digitCount_pos {c : Nat} (hc : c ≠ 0) (h : c < 10 ^ precision) : 0 < digitCount c := by
  refine (lt_digitCount_iff (h.trans (by decide))).mpr ?_
  rw [pow_zero]
  omega

/-! ## Rounding -/

/-- A division that leaves nothing over is not rounded. -/
theorem nearestQuotient_mul {den : Nat} (q : Nat) (hden : 0 < den) :
    nearestQuotient (q * den) den = q := by
  rw [nearestQuotient, Nat.mul_div_cancel q hden, Nat.mul_mod_left]
  exact if_pos hden

/-- Nothing that is small is too large. -/
theorem finish_of_digitCount_le {k : Nat} {e : Int} (negative : Bool) (hk : digitCount k ≤ 60)
    (he : e ≤ 60) : rounded.finish negative k e = .ok (.finite negative k e) := by
  rw [rounded.finish, maxExponent, if_neg]
  omega

/-- **A number of no more digits than the precision is rounded to itself.** -/
theorem rounded_one {c : Nat} {e : Int} (negative : Bool) (hc : c < 10 ^ precision) (he : e ≤ 60) :
    rounded negative c 1 e = .ok (.finite negative c e) := by
  have hdigits : digitCount c ≤ precision := digitCount_le_of_lt (by decide) hc
  rw [rounded]
  by_cases hzero : c = 0
  · rw [if_pos hzero, hzero]
  · rw [if_neg hzero]
    simp only [Nat.div_one]
    rw [if_pos ⟨trivial, hdigits⟩]
    exact finish_of_digitCount_le negative (hdigits.trans (by decide)) he

theorem mul_pow_lt_pow {q : Nat} (hq : q < 10 ^ precision) (zeros : Nat) :
    q * 10 ^ zeros < 10 ^ (precision + zeros) := by
  rw [pow_add]
  exact Nat.mul_lt_mul_of_pos_right hq (Nat.pow_pos (by decide))

/-- Zeros behind the point are cut off. -/
theorem toInt_zeros {q zeros : Nat} (negative : Bool) (hq : q ≠ 0)
    (hsmall : q * 10 ^ zeros < 2 ^ 200) :
    (finite negative (q * 10 ^ zeros) (-(zeros : Int))).toInt = .ok (signed negative q) := by
  have hpos : 0 < 10 ^ zeros := Nat.pow_pos (by decide)
  rw [toInt]
  by_cases hzeros : zeros = 0
  · rw [hzeros, if_pos (by simp)]
    simp
  · have hle : 10 ^ zeros ≤ q * 10 ^ zeros :=
      Nat.le_mul_of_pos_left _ (Nat.pos_of_ne_zero hq)
    have hdigits : zeros < digitCount (q * 10 ^ zeros) := (lt_digitCount_iff hsmall).mpr hle
    rw [if_neg (by omega), if_neg (by omega), neg_neg, Int.toNat_natCast, power_eq_pow,
      Nat.mul_div_cancel q hpos]

/-- Division leaves nothing over when only zeros are rounded away. -/
theorem nearestQuotient_zeros {den places zeros : Nat} (q : Nat) (hden : den ≠ 0) :
    nearestQuotient (q * den * 10 ^ (places + zeros)) (den * 10 ^ places) = q * 10 ^ zeros := by
  have hpos : 0 < den * 10 ^ places :=
    Nat.mul_pos (Nat.pos_of_ne_zero hden) (Nat.pow_pos (by decide))
  have hproduct : q * den * 10 ^ (places + zeros) = q * 10 ^ zeros * (den * 10 ^ places) := by
    rw [pow_add]
    ring
  rw [hproduct, nearestQuotient_mul _ hpos]

/-- The places that a division has to spare are zeros behind the quotient, as many as the precision
leaves of them. -/
theorem exists_zeros {num den extra spare q : Nat} (hden : den ≠ 0) (hq : q < 10 ^ precision)
    (hspare : spare ≤ 30) (hscaled : num * 10 ^ extra = q * den * 10 ^ spare) :
    ∃ surplus zeros, digitCount (num * 10 ^ extra / den) - precision = surplus ∧
      spare = surplus + zeros ∧
      nearestQuotient (num * 10 ^ extra) (den * 10 ^ surplus) = q * 10 ^ zeros := by
  have hprecision : precision = 28 := rfl
  have hquotient : num * 10 ^ extra / den = q * 10 ^ spare := by
    rw [hscaled, Nat.mul_right_comm, Nat.mul_div_cancel _ (Nat.pos_of_ne_zero hden)]
  have hcount : digitCount (num * 10 ^ extra / den) ≤ precision + spare := by
    rw [hquotient]
    exact digitCount_le_of_lt (by omega) (mul_pow_lt_pow hq spare)
  obtain ⟨zeros, hzeros⟩ := Nat.exists_eq_add_of_le
    (by omega : digitCount (num * 10 ^ extra / den) - precision ≤ spare)
  refine ⟨_, zeros, rfl, hzeros, ?_⟩
  generalize digitCount (num * 10 ^ extra / den) - precision = surplus at hzeros ⊢
  rw [hscaled, hzeros, nearestQuotient_zeros q hden]

/-- **A quotient that is a whole number is exact**, but for zeros behind the point. -/
theorem exists_rounded_toInt {num den places q : Nat} (negative : Bool) (hden : den ≠ 0)
    (hten : den < 10) (hnum : num < 10 ^ precision) (hq : q < 10 ^ precision)
    (hexact : num * 10 ^ places = q * den) (hplaces : places ≤ 60) :
    ∃ d, rounded negative num den places = .ok d ∧ d.toInt = .ok (signed negative q) := by
  have hprecision : precision = 28 := rfl
  by_cases hzero : num = 0
  · have hq0 : q = 0 := by
      rw [hzero, Nat.zero_mul] at hexact
      exact (Nat.mul_eq_zero.mp hexact.symm).resolve_right hden
    refine ⟨.finite negative 0 places, by rw [rounded, if_pos hzero], ?_⟩
    rw [toInt, if_pos (by omega), hq0, Nat.zero_mul]
  have hdigits : digitCount num ≤ precision := digitCount_le_of_lt (by decide) hnum
  have hwhole : digitCount (num / den) ≤ precision :=
    digitCount_le_of_lt (by decide) (Nat.lt_of_le_of_lt (Nat.div_le_self num den) hnum)
  rw [rounded, if_neg hzero]
  simp only [power_eq_pow]
  rw [if_neg (Nat.not_lt.mpr hwhole), if_neg (Nat.not_lt.mpr hwhole),
    digitCount_eq_one_of_lt_ten hden hten, Int.toNat_zero, pow_zero, Nat.mul_one, Nat.zero_add]
  split
  case isTrue hone =>
    -- nothing is divided
    refine ⟨_, finish_of_digitCount_le negative (by omega) (by omega), ?_⟩
    rw [toInt, if_pos (by omega), Int.toNat_natCast, power_eq_pow, hexact, hone.1, Nat.mul_one]
  case isFalse =>
    have hq0 : q ≠ 0 := by
      rintro rfl
      rw [Nat.zero_mul] at hexact
      exact hzero ((Nat.mul_eq_zero.mp hexact).resolve_right (Nat.pow_pos (by decide)).ne')
    have hpositive := digitCount_pos hzero hnum
    -- the quotient has all its places among the extra ones
    have hproduct : num * 10 ^ places < 10 ^ (precision + 1) := by
      rw [hexact, pow_succ]
      exact Nat.mul_lt_mul_of_lt_of_le hq (by omega) (by decide)
    have hshort := digitCount_add_le (by omega) hzero hproduct
    obtain ⟨spare, hspare⟩ := Nat.exists_eq_add_of_le
      (by omega : places ≤ precision + 1 - digitCount num + 1)
    have hscaled : num * 10 ^ (places + spare) = q * den * 10 ^ spare := by
      rw [pow_add, ← Nat.mul_assoc, hexact]
    obtain ⟨surplus, zeros, hsurplus, hzeros, hquotient⟩ :=
      exists_zeros hden hq (by omega) hscaled
    have hexponent : (places : Int) - (places + spare : Nat) + 0 + surplus = -(zeros : Int) := by
      omega
    have hlarge := mul_pow_lt_pow hq zeros
    have hcount := digitCount_le_of_lt (by omega) hlarge
    have hbits : 10 ^ (precision + zeros) ≤ 10 ^ 58 := Nat.pow_le_pow_right (by decide) (by omega)
    rw [hspare, hsurplus, hquotient, hexponent]
    exact ⟨_, finish_of_digitCount_le negative (by omega) (by omega),
      toInt_zeros negative hq0 (by omega)⟩

/-! ## Numbers of units -/

/-- **A decimal number is exactly so many units** of `10 ^ -places`. It is written with no more
places than that, and without an exponent. -/
def Exactly (places : Nat) (z : Int) : Decimal → Prop
  | .finite n c e => -(places : Int) ≤ e ∧ e ≤ 0 ∧ signed n (c * 10 ^ (e + places).toNat) = z
  | _ => False

variable {places : Nat} {z w : Int} {a b d : Decimal}

/-- The sign of a product is positive where the signs are the same. -/
theorem signed_mul (n₁ n₂ : Bool) (c₁ c₂ : Nat) :
    signed (n₁ != n₂) (c₁ * c₂) = signed n₁ c₁ * signed n₂ c₂ := by
  cases n₁ <;> cases n₂ <;> simp [signed]

theorem signed_mul_nat (n : Bool) (c k : Nat) : signed n (c * k) = signed n c * k := by
  cases n <;> simp [signed]

theorem signed_not (n : Bool) (c : Nat) : signed (!n) c = -signed n c := by
  cases n <;> simp [signed]

/-- The sign of a sum and its distance from zero are the sum. -/
theorem signed_sumOn (n₁ n₂ : Bool) (c₁ c₂ : Nat) :
    signed (sumOn n₁ c₁ n₂ c₂).1 (sumOn n₁ c₁ n₂ c₂).2 = signed n₁ c₁ + signed n₂ c₂ := by
  rw [sumOn]
  exact signed_natAbs _

/-- A whole number is exactly itself, without places. -/
theorem exactly_ofInt (n : Int) : Exactly 0 n (ofInt n) := by
  refine ⟨by simp, le_refl 0, ?_⟩
  rw [Nat.cast_zero, add_zero, Int.toNat_zero, pow_zero, Nat.mul_one]
  exact signed_natAbs n

variable {n : Bool} {c : Nat} {e : Int}

/-- The coefficient, with the zeros that its exponent stands for, is the size of the number. -/
theorem Exactly.mul_pow_eq (h : Exactly places z (.finite n c e)) :
    c * 10 ^ (e + places).toNat = z.natAbs := by
  rw [← h.2.2, natAbs_signed]

/-- The coefficient has no more digits than the number. -/
theorem Exactly.coefficient_lt (h : Exactly places z (.finite n c e))
    (hz : z.natAbs < 10 ^ precision) : c < 10 ^ precision := by
  rw [← h.mul_pow_eq] at hz
  exact Nat.lt_of_le_of_lt (Nat.le_mul_of_pos_right c (Nat.pow_pos (by decide))) hz

/-- A number of few units is rounded to itself. -/
theorem Exactly.rounded (h : Exactly places z (.finite n c e)) (hz : z.natAbs < 10 ^ precision) :
    rounded n c 1 e = .ok (.finite n c e) := by
  have hexponent := h.2.1
  exact rounded_one n (h.coefficient_lt hz) (by omega)

/-- Nothing is dropped of a number of units beside another one. -/
theorem Exactly.clamp_eq {n' : Bool} {c' : Nat} {e' : Int} (h : Exactly places z (.finite n c e))
    (h' : Exactly places w (.finite n' c' e')) (hz : z.natAbs < 10 ^ precision)
    (hw : w.natAbs < 10 ^ precision) (hc : c ≠ 0) (hc' : c' ≠ 0) :
    clamp (c, e) (c', e') = (c', e') := by
  have hdigits : digitCount c + (e + places).toNat ≤ precision :=
    digitCount_add_le (by decide) hc (by rw [h.mul_pow_eq]; exact hz)
  have hpositive := digitCount_pos hc' (h'.coefficient_lt hw)
  have hlow := h.1
  have hlow' := h'.1
  have hprecision : precision = 28 := rfl
  rw [clamp]
  simp only
  rw [if_neg]
  omega

/-- The negation is exact, -/
theorem Exactly.neg (h : Exactly places z d) : Exactly places (-z) d.neg := by
  cases d with
  | finite n c e => exact ⟨h.1, h.2.1, by rw [signed_not, h.2.2]⟩
  | infinite n => exact absurd h id
  | notANumber s => exact absurd h id

/-- **A product is exact** if it has no more digits than the precision. -/
theorem Exactly.mul {places' : Nat} (ha : Exactly places z a) (hb : Exactly places' w b)
    (hzw : (z * w).natAbs < 10 ^ precision) :
    ∃ d, a.mul b = .ok d ∧ Exactly (places + places') (z * w) d := by
  match a, b with
  | .finite n₁ c₁ e₁, .finite n₂ c₂ e₂ =>
    have hexponent : (e₁ + e₂ + (places + places' : Nat)).toNat
        = (e₁ + places).toNat + (e₂ + places').toNat := by
      have h₁ := ha.1
      have h₂ := hb.1
      omega
    have hproduct : Exactly (places + places') (z * w)
        (.finite (n₁ != n₂) (c₁ * c₂) (e₁ + e₂)) := by
      have h₁ := ha.1
      have h₂ := hb.1
      have h₁' := ha.2.1
      have h₂' := hb.2.1
      refine ⟨by omega, by omega, ?_⟩
      rw [hexponent, pow_add, Nat.mul_mul_mul_comm, signed_mul, ha.2.2, hb.2.2]
    exact ⟨_, hproduct.rounded hzw, hproduct⟩
  | .infinite n, _ => exact absurd ha id
  | .notANumber s, _ => exact absurd ha id
  | .finite _ _ _, .infinite n => exact absurd hb id
  | .finite _ _ _, .notANumber s => exact absurd hb id

/-- On a smaller exponent a number is as many units. -/
theorem Exactly.mul_pow_min (h : Exactly places z (.finite n c e)) {e' : Int} (hle : e' ≤ e)
    (hlow : -(places : Int) ≤ e') :
    signed n (c * 10 ^ (e - e').toNat) * (10 ^ (e' + places).toNat : Nat) = z := by
  have hexponent : (e + places).toNat = (e - e').toNat + (e' + places).toNat := by omega
  rw [← signed_mul_nat, Nat.mul_assoc, ← pow_add, ← hexponent]
  exact h.2.2

/-- The sum of two numbers of units on their smaller exponent. -/
theorem Exactly.sumOn {n' : Bool} {c' : Nat} {e' : Int} (h : Exactly places z (.finite n c e))
    (h' : Exactly places w (.finite n' c' e')) :
    Exactly places (z + w) (.finite
      (sumOn n (c * 10 ^ (e - min e e').toNat) n' (c' * 10 ^ (e' - min e e').toNat)).1
      (sumOn n (c * 10 ^ (e - min e e').toNat) n' (c' * 10 ^ (e' - min e e').toNat)).2
      (min e e')) := by
  have hlow : -(places : Int) ≤ min e e' := le_min h.1 h'.1
  refine ⟨hlow, (min_le_left e e').trans h.2.1, ?_⟩
  rw [signed_mul_nat, signed_sumOn, add_mul, h.mul_pow_min (min_le_left e e') hlow,
    h'.mul_pow_min (min_le_right e e') hlow]

/-- **A sum is exact** if neither the operands nor it have more digits than the precision. -/
theorem Exactly.add (ha : Exactly places z a) (hb : Exactly places w b)
    (hz : z.natAbs < 10 ^ precision) (hw : w.natAbs < 10 ^ precision)
    (hzw : (z + w).natAbs < 10 ^ precision) :
    ∃ d, a.add b = .ok d ∧ Exactly places (z + w) d := by
  match a, b with
  | .finite n₁ c₁ e₁, .finite n₂ c₂ e₂ =>
    have hzero {n : Bool} {e : Int} {z : Int} (h : Exactly places z (.finite n 0 e)) : z = 0 := by
      have := h.mul_pow_eq
      omega
    rw [Decimal.add]
    by_cases hc₁ : c₁ = 0
    · subst hc₁
      rw [if_pos rfl, hzero ha, zero_add]
      by_cases hc₂ : c₂ = 0
      · subst hc₂
        rw [if_pos rfl, hzero hb]
        refine ⟨_, rfl, le_min ha.1 hb.1, (min_le_left e₁ e₂).trans ha.2.1, ?_⟩
        rw [Nat.zero_mul]
        cases n₁ && n₂ <;> rfl
      · rw [if_neg hc₂]
        exact ⟨_, hb.rounded hw, hb⟩
    · rw [if_neg hc₁]
      by_cases hc₂ : c₂ = 0
      · subst hc₂
        rw [if_pos rfl, hzero hb, add_zero]
        exact ⟨_, ha.rounded hz, ha⟩
      · have hpair : (if e₁ < e₂ then (clamp (c₂, e₂) (c₁, e₁), (c₂, e₂))
            else ((c₁, e₁), clamp (c₁, e₁) (c₂, e₂))) = ((c₁, e₁), (c₂, e₂)) := by
          rw [ha.clamp_eq hb hz hw hc₁ hc₂, hb.clamp_eq ha hw hz hc₂ hc₁, ite_self]
        rw [if_neg hc₂, addFinite, hpair]
        exact ⟨_, (ha.sumOn hb).rounded hzw, ha.sumOn hb⟩
  | .infinite n, _ => exact absurd ha id
  | .notANumber s, _ => exact absurd ha id
  | .finite _ _ _, .infinite n => exact absurd hb id
  | .finite _ _ _, .notANumber s => exact absurd hb id

/-- and so is a difference of few enough digits. -/
theorem Exactly.sub (ha : Exactly places z a) (hb : Exactly places w b)
    (hz : z.natAbs < 10 ^ precision) (hw : w.natAbs < 10 ^ precision)
    (hzw : (z - w).natAbs < 10 ^ precision) :
    ∃ d, a.sub b = .ok d ∧ Exactly places (z - w) d :=
  ha.add hb.neg hz (by rwa [Int.natAbs_neg]) hzw

/-- **A distance from zero is exact** if the number has no more digits than the precision. -/
theorem Exactly.abs (ha : Exactly places z a) (hz : z.natAbs < 10 ^ precision) :
    ∃ d, a.abs = .ok d ∧ Exactly places |z| d := by
  cases a with
  | finite n c e =>
    have hdistance : Exactly places |z| (.finite false c e) := by
      refine ⟨ha.1, ha.2.1, ?_⟩
      rw [ha.mul_pow_eq, Int.abs_eq_natAbs]
      rfl
    exact ⟨_, hdistance.rounded (by rwa [Int.natAbs_abs]), hdistance⟩
  | infinite n => exact absurd ha id
  | notANumber s => exact absurd ha id

/-- **The whole part of an exact quotient.** A number of units divided by a digit of them. -/
theorem Exactly.div {digit : Nat} {q : Int} (ha : Exactly places (q * digit) a) (hdigit : digit ≠ 0)
    (hten : digit < 10) (hq : q.natAbs < 10 ^ precision)
    (hproduct : (q * digit).natAbs < 10 ^ precision) (hplaces : places ≤ 60) :
    ∃ d, a.div (.finite false digit (-(places : Int))) = .ok d ∧ d.toInt = .ok q := by
  cases a with
  | finite n c e =>
    have hlow := ha.1
    have hexact : c * 10 ^ (e + places).toNat = q.natAbs * digit := by
      rw [ha.mul_pow_eq, Int.natAbs_mul, Int.natAbs_natCast]
    have hhigh := ha.2.1
    obtain ⟨d, hd, hint⟩ := exists_rounded_toInt n hdigit hten (ha.coefficient_lt hproduct) hq
      hexact (by omega)
    have hexponent : ((e + places).toNat : Int) = e - -(places : Int) := by omega
    have hsign : signed n q.natAbs = q := by
      have hvalue := ha.2.2
      rw [hexact, signed_mul_nat] at hvalue
      exact Int.eq_of_mul_eq_mul_right (Int.natCast_ne_zero.mpr hdigit) hvalue
    refine ⟨d, ?_, by rw [hint, hsign]⟩
    rw [Decimal.div, if_neg hdigit, ← hexponent, Bool.bne_false]
    exact hd
  | infinite n => exact absurd ha id
  | notANumber s => exact absurd ha id

end Decimal

end Lightpath.Numeral
