import Mathlib.Tactic.Ring
import Lightpath.Numeral.Decimal
import Lightpath.Proofs.Numeral.WholeText

/-!
# Decimal arithmetic that stays in range

Rounding at most doubles a number and moves its exponent down by few places. So a computation of a
few steps on numbers of some thousand digits never comes near the largest exponent, and it has a
result. Numbers are measured in units of `10 ^ -300`, which all exponents here are multiples of.
-/

namespace Lightpath.Numeral

theorem power_eq_pow (base exponent : Nat) : power base exponent = base ^ exponent := rfl

namespace Decimal

/-! ## Digits -/

/-- A number of so many bits has at most a third as many digits, and two. -/
theorem digitCount_le {n b : Nat} (h : n < 2 ^ b) : digitCount n ≤ b / 3 + 2 := by
  unfold digitCount
  by_cases hn : n = 0
  · simp [hn]
  · have hlog : n.log2 < b := (Nat.log2_lt hn).mpr h
    have hguess : n.log2 * 30103 / 100000 ≤ b / 3 := by omega
    rw [if_neg hn]
    simp only
    split
    · omega
    · split
      · omega
      · omega

theorem digitCount_eq_one_of_lt_ten {n : Nat} (hn : n ≠ 0) (h : n < 10) : digitCount n = 1 := by
  have hall : ∀ m < 10, m ≠ 0 → digitCount m = 1 := by decide +kernel
  exact hall n h hn

/-- The nearest whole number is at most twice the quotient. -/
theorem nearestQuotient_mul_le (num den : Nat) : nearestQuotient num den * den ≤ 2 * num := by
  have hdiv : num / den * den + num % den = num := Nat.div_add_mod' num den
  unfold nearestQuotient
  simp only
  split
  · omega
  · split
    · rw [Nat.add_mul]
      omega
    · split
      · omega
      · rw [Nat.add_mul]
        omega

/-! ## Numbers in range -/

/-- A coefficient with an exponent, in units of `10 ^ -300`. -/
def units (c : Nat) (e : Int) : Nat :=
  c * 10 ^ (e + 300).toNat

/-- A coefficient and an exponent in range: the exponent is not below `-low`, and the number has at
most so many bits in units of `10 ^ -300`. -/
def Fits (low bits : Nat) (x : Nat × Int) : Prop :=
  -(low : Int) ≤ x.2 ∧ units x.1 x.2 < 2 ^ bits

/-- **A finite number in range.** -/
def Within (low bits : Nat) : Decimal → Prop
  | .finite _ c e => Fits low bits (c, e)
  | _ => False

/-- What fits into narrow bounds fits into wider ones. -/
theorem Fits.mono {low low' bits bits' : Nat} {x : Nat × Int} (h : Fits low bits x)
    (hlow : low ≤ low') (hbits : bits ≤ bits') : Fits low' bits' x := by
  have hpow : 2 ^ bits ≤ 2 ^ bits' := Nat.pow_le_pow_right (by decide) hbits
  have hexponent := h.1
  exact ⟨by omega, Nat.lt_of_lt_of_le h.2 hpow⟩

theorem Within.mono {low low' bits bits' : Nat} {d : Decimal} (h : Within low bits d)
    (hlow : low ≤ low') (hbits : bits ≤ bits') : Within low' bits' d := by
  cases d with
  | finite n c e => exact Fits.mono h hlow hbits
  | infinite n => exact h
  | notANumber s => exact h

/-- A number other than zero in range has few digits and a small exponent. -/
theorem exponent_lt_of_units_lt {c b : Nat} {e : Int} (hc : c ≠ 0) (h : units c e < 2 ^ b) :
    3 * (e + 300).toNat < b := by
  have hone : 1 * 10 ^ (e + 300).toNat ≤ units c e :=
    Nat.mul_le_mul_right _ (Nat.one_le_iff_ne_zero.mpr hc)
  have height : (2 ^ 3) ^ (e + 300).toNat ≤ 10 ^ (e + 300).toNat :=
    Nat.pow_le_pow_left (by decide) _
  rw [← Nat.pow_mul] at height
  refine (Nat.pow_lt_pow_iff_right (by decide : 1 < 2)).mp ?_
  omega

theorem coefficient_le_units (c : Nat) (e : Int) : c ≤ units c e :=
  Nat.le_mul_of_pos_right c (Nat.pow_pos (by decide))

/-- What is in range is not too large. -/
theorem finish_of_units_lt {b k : Nat} {e : Int} (negative : Bool) (h : units k e < 2 ^ b)
    (hb : b ≤ 1000000) : rounded.finish negative k e = .ok (.finite negative k e) := by
  rw [rounded.finish, if_neg]
  rintro ⟨hk, hlarge⟩
  have hexponent := exponent_lt_of_units_lt hk h
  have hdigits := digitCount_le (Nat.lt_of_le_of_lt (coefficient_le_units k e) h)
  rw [maxExponent] at hlarge
  omega

/-- The nearest quotient at another scale is at most twice the number. -/
theorem units_nearestQuotient_le {extra : Nat} {e : Int} (num den places : Nat)
    (hroom : (extra : Int) ≤ e + 300) :
    units (nearestQuotient (num * 10 ^ extra) (den * 10 ^ places)) (e - extra + places) * den
      ≤ 2 * units num e := by
  have hquotient := nearestQuotient_mul_le (num * 10 ^ extra) (den * 10 ^ places)
  have hleft : (e - extra + places + 300).toNat = places + (e + 300 - extra).toNat := by omega
  have hright : (e + 300).toNat = extra + (e + 300 - extra).toNat := by omega
  generalize nearestQuotient (num * 10 ^ extra) (den * 10 ^ places) = k at hquotient ⊢
  rw [units, units, hleft, hright]
  generalize (e + 300 - extra).toNat = rest
  calc k * 10 ^ (places + rest) * den
      = k * (den * 10 ^ places) * 10 ^ rest := by rw [Nat.pow_add]; ring
    _ ≤ 2 * (num * 10 ^ extra) * 10 ^ rest := Nat.mul_le_mul_right _ hquotient
    _ = 2 * (num * 10 ^ (extra + rest)) := by rw [Nat.pow_add]; ring

/-- **Rounding keeps a quotient in range.** -/
theorem exists_rounded {low b den : Nat} {e : Int} (negative : Bool) (num : Nat) (hden : den ≠ 0)
    (hten : den < 10) (hlow : -(low : Int) ≤ e) (hroom : low + 30 ≤ 300)
    (h : units num e < 2 ^ b * den) (hb : b < 1000000) :
    ∃ d, rounded negative num den e = .ok d ∧ Within (low + 30) (b + 1) d := by
  by_cases hnum : num = 0
  · refine ⟨.finite negative 0 e, by rw [rounded, if_pos hnum], by omega, ?_⟩
    rw [units, Nat.zero_mul]
    exact Nat.two_pow_pos _
  have hone : digitCount den = 1 := digitCount_eq_one_of_lt_ten hden hten
  have hdouble : 2 ^ (b + 1) = 2 ^ b * 2 := pow_succ 2 b
  rw [rounded, if_neg hnum]
  simp only [power_eq_pow]
  split
  case isTrue hexact =>
    -- nothing is rounded
    rw [hexact.1, Nat.mul_one] at h
    have hfits : Fits low b (num, e) := ⟨hlow, h⟩
    exact ⟨_, finish_of_units_lt negative h (by omega), hfits.mono (by omega) (by omega)⟩
  case isFalse =>
    generalize hwhole : digitCount (num / den) = whole
    generalize hshift : (if precision < whole then (whole : Int) - precision else 0) = shift
    generalize hextra : (if precision < whole then 0
      else precision + digitCount den - digitCount num + 1) = extra
    generalize digitCount (num * 10 ^ extra / (den * 10 ^ shift.toNat)) - precision = surplus
    have hshift0 : 0 ≤ shift := by
      rw [← hshift]
      split <;> omega
    have hextra30 : extra ≤ 30 := by
      rw [← hextra, hone, precision]
      split <;> omega
    have hplaces : e - extra + shift + surplus = e - extra + (shift.toNat + surplus : Nat) := by
      omega
    have hle := units_nearestQuotient_le num den (shift.toNat + surplus)
      (by omega : (extra : Int) ≤ e + 300)
    rw [hplaces]
    have hlt : units (nearestQuotient (num * 10 ^ extra) (den * 10 ^ (shift.toNat + surplus)))
        (e - extra + (shift.toNat + surplus : Nat)) < 2 ^ (b + 1) := by
      refine Nat.lt_of_mul_lt_mul_right (a := den) ?_
      rw [hdouble, Nat.mul_right_comm]
      omega
    exact ⟨_, finish_of_units_lt negative hlt (by omega), by omega, hlt⟩

/-! ## Operations -/

/-- The whole part of a finite number is always there. -/
theorem exists_toInt {low b : Nat} {d : Decimal} (h : Within low b d) :
    ∃ n, d.toInt = .ok n := by
  cases d with
  | finite n c e =>
    rw [toInt]
    split
    · exact ⟨_, rfl⟩
    · split
      · exact ⟨_, rfl⟩
      · exact ⟨_, rfl⟩
  | infinite n => exact absurd h id
  | notANumber s => exact absurd h id

/-- A negation has the size of the number. -/
theorem Within.neg {low b : Nat} {d : Decimal} (h : Within low b d) : Within low b d.neg := by
  cases d with
  | finite n c e => exact h
  | infinite n => exact absurd h id
  | notANumber s => exact absurd h id

/-- The distance from zero stays in range. -/
theorem Within.abs {low b : Nat} {d : Decimal} (h : Within low b d) (hroom : low + 30 ≤ 300)
    (hb : b < 1000000) : ∃ d', d.abs = .ok d' ∧ Within (low + 30) (b + 1) d' := by
  cases d with
  | finite n c e =>
    exact exists_rounded false c one_ne_zero (by decide) h.1 hroom (by rw [Nat.mul_one]; exact h.2)
      hb
  | infinite n => exact absurd h id
  | notANumber s => exact absurd h id

/-- What stands in for a small number is at most as large as the other one. -/
theorem fits_clamp {low b : Nat} {large small : Nat × Int} (hzero : large.1 ≠ 0)
    (hlarge : Fits low b large) (hsmall : Fits low b small) :
    Fits (low + 30) b (clamp large small) := by
  have hlow := hlarge.1
  rw [clamp]
  generalize hfloor : large.2 + min (-1) ((digitCount large.1 : Int) - precision - 2) = floor
  rw [precision] at hfloor
  by_cases hlost : (digitCount small.1 : Int) + small.2 - 1 < floor
  · rw [if_pos hlost]
    have hexponent : (floor + 300).toNat ≤ (large.2 + 300).toNat := by omega
    have hle : units 1 floor ≤ units large.1 large.2 :=
      Nat.mul_le_mul (Nat.one_le_iff_ne_zero.mpr hzero) (Nat.pow_le_pow_right (by decide) hexponent)
    exact ⟨by simp only; omega, Nat.lt_of_le_of_lt hle hlarge.2⟩
  · rw [if_neg hlost]
    exact hsmall.mono (by omega) (Nat.le_refl b)

/-- A smaller exponent takes a larger coefficient. -/
theorem units_shift (c : Nat) {e e' : Int} (hle : e' ≤ e) (hlow : -300 ≤ e') :
    units (c * 10 ^ (e - e').toNat) e' = units c e := by
  have hexponent : (e + 300).toNat = (e - e').toNat + (e' + 300).toNat := by omega
  rw [units, units, hexponent, Nat.pow_add, Nat.mul_assoc]

/-- The sum of two numbers in range has one more bit. -/
theorem fits_sumOn {low b : Nat} {y₁ y₂ : Nat × Int} (n₁ n₂ : Bool) (h₁ : Fits low b y₁)
    (h₂ : Fits low b y₂) (hroom : low ≤ 300) :
    Fits low (b + 1)
      ((sumOn n₁ (y₁.1 * 10 ^ (y₁.2 - min y₁.2 y₂.2).toNat) n₂
        (y₂.1 * 10 ^ (y₂.2 - min y₁.2 y₂.2).toNat)).2, min y₁.2 y₂.2) := by
  have hlow₁ := h₁.1
  have hlow₂ := h₂.1
  have hunits₁ := h₁.2
  have hunits₂ := h₂.2
  have hdouble : 2 ^ (b + 1) = 2 ^ b * 2 := pow_succ 2 b
  refine ⟨by simp only; omega, ?_⟩
  rw [← units_shift y₁.1 (min_le_left y₁.2 y₂.2) (by omega)] at hunits₁
  rw [← units_shift y₂.1 (min_le_right y₁.2 y₂.2) (by omega)] at hunits₂
  generalize y₁.1 * 10 ^ (y₁.2 - min y₁.2 y₂.2).toNat = c₁ at hunits₁ ⊢
  generalize y₂.1 * 10 ^ (y₂.2 - min y₁.2 y₂.2).toNat = c₂ at hunits₂ ⊢
  generalize min y₁.2 y₂.2 = e at hunits₁ hunits₂ ⊢
  have hsum : (sumOn n₁ c₁ n₂ c₂).2 ≤ c₁ + c₂ := by
    have htriangle := Int.natAbs_add_le (signed n₁ c₁) (signed n₂ c₂)
    rwa [natAbs_signed, natAbs_signed] at htriangle
  have hle : units (sumOn n₁ c₁ n₂ c₂).2 e ≤ units c₁ e + units c₂ e := by
    rw [units, units, units, ← Nat.add_mul]
    exact Nat.mul_le_mul_right _ hsum
  simp only
  omega

/-- The sum of two numbers in range, neither of them zero, is in range. -/
theorem exists_addFinite {low b : Nat} {x₁ x₂ : Nat × Int} (n₁ n₂ : Bool) (hzero₁ : x₁.1 ≠ 0)
    (hzero₂ : x₂.1 ≠ 0) (h₁ : Fits low b x₁) (h₂ : Fits low b x₂) (hroom : low + 60 ≤ 300)
    (hb : b + 1 < 1000000) :
    ∃ d, addFinite n₁ x₁ n₂ x₂ = .ok d ∧ Within (low + 60) (b + 2) d := by
  have hpair : ∃ y₁ y₂, (if x₁.2 < x₂.2 then (clamp x₂ x₁, x₂) else (x₁, clamp x₁ x₂)) = (y₁, y₂) ∧
      Fits (low + 30) b y₁ ∧ Fits (low + 30) b y₂ := by
    split
    · exact ⟨_, _, rfl, fits_clamp hzero₂ h₂ h₁, h₂.mono (by omega) (Nat.le_refl b)⟩
    · exact ⟨_, _, rfl, h₁.mono (by omega) (Nat.le_refl b), fits_clamp hzero₁ h₁ h₂⟩
  obtain ⟨y₁, y₂, hy, hy₁, hy₂⟩ := hpair
  have hsum := fits_sumOn n₁ n₂ hy₁ hy₂ (by omega)
  rw [addFinite, hy]
  exact exists_rounded _ _ one_ne_zero (by decide) hsum.1 (by omega)
    (by rw [Nat.mul_one]; exact hsum.2) hb

/-- The sum of two numbers in range is in range. -/
theorem Within.add {low b : Nat} {d₁ d₂ : Decimal} (h₁ : Within low b d₁) (h₂ : Within low b d₂)
    (hroom : low + 60 ≤ 300) (hb : b + 1 < 1000000) :
    ∃ d, d₁.add d₂ = .ok d ∧ Within (low + 60) (b + 2) d := by
  match d₁, d₂ with
  | .finite n₁ c₁ e₁, .finite n₂ c₂ e₂ =>
    have hlow₁ := h₁.1
    have hlow₂ := h₂.1
    have hone {n : Bool} {c : Nat} {e : Int} (h : Fits low b (c, e)) :
        ∃ d, rounded n c 1 e = .ok d ∧ Within (low + 60) (b + 2) d := by
      obtain ⟨d, hd, hwithin⟩ := exists_rounded n c one_ne_zero (by decide) h.1
        (by omega : low + 30 ≤ 300) (by rw [Nat.mul_one]; exact h.2) (by omega : b < 1000000)
      exact ⟨d, hd, hwithin.mono (by omega) (by omega)⟩
    rw [Decimal.add]
    split
    · split
      · refine ⟨_, rfl, by simp only at hlow₁ hlow₂ ⊢; omega, ?_⟩
        rw [units, Nat.zero_mul]
        exact Nat.two_pow_pos _
      · exact hone h₂
    · split
      · exact hone h₁
      · exact exists_addFinite n₁ n₂ ‹_› ‹_› h₁ h₂ hroom hb
  | .infinite n, _ => exact absurd h₁ id
  | .notANumber s, _ => exact absurd h₁ id
  | .finite _ _ _, .infinite n => exact absurd h₂ id
  | .finite _ _ _, .notANumber s => exact absurd h₂ id

/-- The difference of two numbers in range is in range. -/
theorem Within.sub {low b : Nat} {d₁ d₂ : Decimal} (h₁ : Within low b d₁) (h₂ : Within low b d₂)
    (hroom : low + 60 ≤ 300) (hb : b + 1 < 1000000) :
    ∃ d, d₁.sub d₂ = .ok d ∧ Within (low + 60) (b + 2) d :=
  h₁.add h₂.neg hroom hb

/-- A number in range divided by one digit with two places behind the point is in range. -/
theorem Within.div_hundredths {low b digit : Nat} {d : Decimal} (h : Within low b d)
    (hdigit : digit ≠ 0) (hten : digit < 10) (hroom : low + 30 ≤ 300) (hb : b + 7 < 1000000) :
    ∃ d', d.div (.finite false digit (-2)) = .ok d' ∧ Within (low + 30) (b + 8) d' := by
  cases d with
  | finite n c e =>
    have hlow := h.1
    have hunits : units c (e - -2) = units c e * 100 := by
      simp only at hlow
      have hexponent : (e - -2 + 300).toNat = (e + 300).toNat + 2 := by omega
      rw [units, units, hexponent, Nat.pow_add, ← Nat.mul_assoc]
    have hlt : units c (e - -2) < 2 ^ (b + 7) * digit := by
      have hbits : 2 ^ (b + 7) = 2 ^ b * 128 := pow_add 2 b 7
      have hone : 2 ^ (b + 7) * 1 ≤ 2 ^ (b + 7) * digit :=
        Nat.mul_le_mul_left _ (Nat.one_le_iff_ne_zero.mpr hdigit)
      have hunder := h.2
      simp only at hunder
      omega
    rw [div, if_neg hdigit]
    exact exists_rounded _ c hdigit hten (by simp only at hlow; omega) hroom hlt hb
  | infinite n => exact absurd h id
  | notANumber s => exact absurd h id

/-- A digit has four bits at most, and so has each place. -/
theorem mul_digit_mul_pow_lt {m digit b : Nat} (hm : m < 2 ^ b) (hten : digit < 10) (k : Nat) :
    m * digit * 10 ^ k < 2 ^ (b + 4 + 4 * k) := by
  have hdigit : m * digit ≤ m * 2 ^ 4 := Nat.mul_le_mul_left _ (by omega)
  have hplaces : 10 ^ k ≤ (2 ^ 4) ^ k := Nat.pow_le_pow_left (by decide) k
  have hstrict : m * 2 ^ 4 * (2 ^ 4) ^ k < 2 ^ b * 2 ^ 4 * (2 ^ 4) ^ k :=
    Nat.mul_lt_mul_of_pos_right (Nat.mul_lt_mul_of_pos_right hm (by decide))
      (Nat.pow_pos (by decide))
  rw [pow_add, pow_add, pow_mul]
  exact Nat.lt_of_le_of_lt (Nat.mul_le_mul hdigit hplaces) hstrict

/-- A whole number times one digit with two places behind the point is in range. -/
theorem exists_ofInt_mul_hundredths {b digit : Nat} {n : Int} (hn : n.natAbs < 2 ^ b)
    (hten : digit < 10) (hb : b + 1196 < 1000000) :
    ∃ d, (Decimal.ofInt n).mul (.finite false digit (-2)) = .ok d ∧ Within 32 (b + 1197) d := by
  have hunits : units (n.natAbs * digit) (0 + -2) < 2 ^ (b + 4 + 4 * 298) * 1 := by
    have hplaces : ((0 : Int) + -2 + 300).toNat = 298 := rfl
    rw [Nat.mul_one, units, hplaces]
    exact mul_digit_mul_pow_lt hn hten 298
  exact exists_rounded _ _ one_ne_zero (by decide) (by decide) (by decide) hunits hb

end Decimal

end Lightpath.Numeral
