import Mathlib.Algebra.Order.Field.Power
import Mathlib.Algebra.Order.Field.Rat
import Mathlib.Data.Nat.Cast.Order.Field
import Mathlib.Tactic.FieldSimp
import Mathlib.Tactic.Linarith
import Mathlib.Tactic.Positivity
import Mathlib.Tactic.Ring
import Lightpath.Numeral.Shortest
import Lightpath.Proofs.Numeral.DecimalBounds

/-!
# The numbers that round to a floating-point number

The quotients that round to `m * 2 ^ q` form an interval around it, which reaches half a unit up and
half a unit down, or a quarter of a unit down where the next number is only half as far. Main
statement: the word that is nearest to a quotient in the interval is the word of `m` and `q`
(`nearestWord_of_roundsTo`).
-/

namespace Lightpath.Numeral

variable {m num den n d k : ℕ} {q e : ℤ} {x : ℚ}

/-! ## The interval -/

/-- The mantissas and exponents of the finite numbers other than zero: a mantissa has 53 binary
digits, or fewer at the least exponent. -/
structure Representable (m : ℕ) (q : ℤ) : Prop where
  pos : 0 < m
  lt : m < 2 ^ 53
  least : -1074 ≤ q
  greatest : q ≤ 971
  full : 2 ^ 52 ≤ m ∨ q = -1074

/-- How far the interval reaches down, in quarters of a unit. -/
def reachBelow (m : ℕ) (q : ℤ) : ℕ :=
  if m = power 2 52 ∧ -1074 < q then 1 else 2

/-- **A number rounds to `m * 2 ^ q`**: it is in the interval around it, and the ends belong to the
interval of an even mantissa only. -/
structure RoundsTo (m : ℕ) (q : ℤ) (x : ℚ) : Prop where
  low : ((m : ℚ) - reachBelow m q / 4) * 2 ^ q ≤ x
  high : x ≤ ((m : ℚ) + 1 / 2) * 2 ^ q
  tie : x = ((m : ℚ) - reachBelow m q / 4) * 2 ^ q ∨ x = ((m : ℚ) + 1 / 2) * 2 ^ q → m % 2 = 0

theorem reachBelow_bounds (m : ℕ) (q : ℤ) : 1 ≤ reachBelow m q ∧ reachBelow m q ≤ 2 := by
  rw [reachBelow]
  split <;> decide

/-- What rounds to a number other than zero is positive. -/
theorem RoundsTo.pos (hm : 0 < m) (h : RoundsTo m q x) : 0 < x := by
  have hone : (1 : ℚ) ≤ m := by exact_mod_cast hm
  have hreach : (reachBelow m q : ℚ) ≤ 2 := by exact_mod_cast (reachBelow_bounds m q).2
  exact (mul_pos (by linarith) (zpow_pos two_pos q)).trans_le h.low

/-! ## Scaling by a power of two -/

theorem two_zpow_pos (e : ℤ) : (0 : ℚ) < 2 ^ e :=
  zpow_pos two_pos e

/-- A positive quotient is scaled without loss. -/
theorem scaleBack_spec (num : ℕ) (hden : 0 < den) (e : ℤ) :
    0 < (scaleBack num den e).2 ∧
      ((scaleBack num den e).1 : ℚ) / (scaleBack num den e).2 = num / den * 2 ^ (-e) := by
  rw [scaleBack]
  split
  case isTrue he =>
    obtain ⟨k, rfl⟩ : ∃ k : ℕ, e = -k := ⟨e.natAbs, by omega⟩
    refine ⟨hden, ?_⟩
    simp only [power_eq_pow, neg_neg, Int.toNat_natCast, zpow_natCast]
    push_cast
    ring
  case isFalse he =>
    obtain ⟨k, rfl⟩ : ∃ k : ℕ, e = k := ⟨e.toNat, by omega⟩
    refine ⟨Nat.mul_pos hden (Nat.two_pow_pos _), ?_⟩
    simp only [power_eq_pow, Int.toNat_natCast, zpow_neg, zpow_natCast]
    push_cast
    rw [div_mul_eq_div_div, div_eq_mul_inv ((num : ℚ) / den)]

/-- A number lies between two neighbouring powers of two, which its bits tell. -/
theorem log2_bounds (hn : n ≠ 0) :
    (2 : ℚ) ^ (n.log2 : ℤ) ≤ n ∧ (n : ℚ) < 2 ^ ((n.log2 : ℤ) + 1) := by
  have hlow : 2 ^ n.log2 ≤ n := Nat.log2_self_le hn
  have hhigh : n < 2 ^ (n.log2 + 1) := Nat.lt_log2_self
  constructor
  · rw [zpow_natCast]
    exact_mod_cast hlow
  · have hcast : ((n.log2 : ℤ) + 1) = ((n.log2 + 1 : ℕ) : ℤ) := by push_cast; rfl
    rw [hcast, zpow_natCast]
    exact_mod_cast hhigh

/-- The bits of both parts tell a quotient up to a factor of two. -/
theorem log2_sub_bounds (hnum : num ≠ 0) (hden : den ≠ 0) :
    (2 : ℚ) ^ ((num.log2 : ℤ) - den.log2 - 1) < num / den ∧
      (num : ℚ) / den < 2 ^ ((num.log2 : ℤ) - den.log2 + 1) := by
  obtain ⟨hnumLow, hnumHigh⟩ := log2_bounds hnum
  obtain ⟨hdenLow, hdenHigh⟩ := log2_bounds hden
  have hpos : (0 : ℚ) < den := by exact_mod_cast Nat.pos_of_ne_zero hden
  have htwo : (2 : ℚ) ≠ 0 := two_ne_zero
  constructor
  · rw [lt_div_iff₀ hpos]
    calc (2 : ℚ) ^ ((num.log2 : ℤ) - den.log2 - 1) * den
        < 2 ^ ((num.log2 : ℤ) - den.log2 - 1) * 2 ^ ((den.log2 : ℤ) + 1) :=
          mul_lt_mul_of_pos_left hdenHigh (two_zpow_pos _)
      _ = 2 ^ (num.log2 : ℤ) := by rw [← zpow_add₀ htwo]; congr 1; ring
      _ ≤ num := hnumLow
  · rw [div_lt_iff₀ hpos]
    calc (num : ℚ) < 2 ^ ((num.log2 : ℤ) + 1) := hnumHigh
      _ = 2 ^ ((num.log2 : ℤ) - den.log2 + 1) * 2 ^ (den.log2 : ℤ) := by
          rw [← zpow_add₀ htwo]; congr 1; ring
      _ ≤ 2 ^ ((num.log2 : ℤ) - den.log2 + 1) * den :=
          mul_le_mul_of_nonneg_left hdenLow (two_zpow_pos _).le

/-! ## The unit -/

/-- The unit is the one in which the quotient has 53 binary digits, or the least one. -/
theorem exists_unitExponent (hnum : num ≠ 0) (hden : den ≠ 0) :
    ∃ e, unitExponent num den = max e (-1074) ∧ (2 : ℚ) ^ (e + 52) ≤ num / den ∧
      (num : ℚ) / den < 2 ^ (e + 53) := by
  obtain ⟨hlow, hhigh⟩ := log2_sub_bounds hnum hden
  rw [unitExponent]
  generalize (num.log2 : ℤ) - den.log2 = l at hlow hhigh
  obtain ⟨hpos, hscaled⟩ := scaleBack_spec num (Nat.pos_of_ne_zero hden) (l - 52)
  generalize scaleBack num den (l - 52) = scaled at hpos hscaled ⊢
  obtain ⟨n, d⟩ := scaled
  simp only at hpos hscaled ⊢
  have hposCast : (0 : ℚ) < d := by exact_mod_cast hpos
  -- the comparison says whether the quotient is below the power of two in the middle
  have hiff : n < d * power 2 52 ↔ (num : ℚ) / den < 2 ^ l := by
    have hpow : (2 : ℚ) ^ l = 2 ^ 52 * 2 ^ (l - 52) := by
      rw [← zpow_natCast (2 : ℚ) 52, ← zpow_add₀ two_ne_zero]
      congr 1
      push_cast
      ring
    have hmiddle : (n : ℚ) / d < 2 ^ 52 ↔ (num : ℚ) / den < 2 ^ l := by
      rw [hscaled, zpow_neg, ← div_eq_mul_inv, div_lt_iff₀ (two_zpow_pos _), hpow]
    rw [← hmiddle, div_lt_iff₀ hposCast, power_eq_pow, Nat.mul_comm]
    exact_mod_cast Iff.rfl
  split
  case isTrue h =>
    have hexponent : l - 52 - 1 + 53 = l := by ring
    refine ⟨_, rfl, ?_, ?_⟩
    · refine le_of_eq_of_le ?_ hlow.le
      congr 1
      ring
    · rw [hexponent]
      exact hiff.mp h
  case isFalse h =>
    have hexponent : l - 52 + 52 = l := by ring
    refine ⟨_, rfl, ?_, ?_⟩
    · rw [hexponent]
      exact not_lt.mp fun hlt => h (hiff.mpr hlt)
    · refine lt_of_lt_of_eq hhigh ?_
      congr 1
      ring

/-- What is between two powers of two has the unit that the lower one tells. -/
theorem unitExponent_eq (hnum : num ≠ 0) (hden : den ≠ 0) (hq : -1074 ≤ q)
    (hhigh : (num : ℚ) / den < 2 ^ (q + 53))
    (hlow : (2 : ℚ) ^ (q + 52) ≤ num / den ∨ q = -1074) : unitExponent num den = q := by
  obtain ⟨e, he, hbelow, habove⟩ := exists_unitExponent hnum hden
  have hle : e ≤ q := by
    have hlt := (zpow_lt_zpow_iff_right₀ one_lt_two).mp (hbelow.trans_lt hhigh)
    omega
  rw [he]
  rcases hlow with hlow | rfl
  · have hlt := (zpow_lt_zpow_iff_right₀ one_lt_two).mp (hlow.trans_lt habove)
    omega
  · exact max_eq_right hle

/-! ## Rounding -/

/-- What is at most half the divisor away from a multiple of it, and not half of it away from an odd
one, rounds to the number of times. -/
theorem roundHalfEven_of_mul (hd : 0 < d) (hlow : 2 * (k * d) ≤ 2 * n + d)
    (hhigh : 2 * n ≤ 2 * (k * d) + d) (hlowTie : 2 * (k * d) = 2 * n + d → k % 2 = 0)
    (hhighTie : 2 * n = 2 * (k * d) + d → k % 2 = 0) : roundHalfEven n d = k := by
  have hdiv : n / d * d + n % d = n := Nat.div_add_mod' n d
  have hmod : n % d < d := Nat.mod_lt n hd
  rw [roundHalfEven]
  generalize n / d = quotient at hdiv ⊢
  generalize n % d = r at hdiv hmod ⊢
  -- the number is the quotient or the one above it
  have hle : quotient ≤ k := by
    by_contra hlt
    have hstep : (k + 1) * d ≤ quotient * d := Nat.mul_le_mul_right d (by omega)
    rw [Nat.add_mul] at hstep
    omega
  have hge : k ≤ quotient + 1 := by
    by_contra hlt
    have hstep : (quotient + 2) * d ≤ k * d := Nat.mul_le_mul_right d (by omega)
    rw [Nat.add_mul] at hstep
    omega
  obtain rfl | rfl : k = quotient ∨ k = quotient + 1 := by omega
  · split
    · rfl
    · split
      · omega
      · rw [if_pos (hhighTie (by omega))]
  · rw [Nat.add_mul] at hlow hlowTie
    split
    · omega
    · split
      · rfl
      · have heven := hlowTie (by omega)
        rw [if_neg (by omega)]

/-- A quotient rounds to the whole number that is nearer than half a unit, or half a unit away and
even. -/
theorem roundHalfEven_eq (hd : 0 < d) (hlow : (k : ℚ) - 1 / 2 ≤ n / d)
    (hhigh : (n : ℚ) / d ≤ k + 1 / 2)
    (htie : (n : ℚ) / d = k - 1 / 2 ∨ (n : ℚ) / d = k + 1 / 2 → k % 2 = 0) :
    roundHalfEven n d = k := by
  have hdCast : (0 : ℚ) < d := by exact_mod_cast hd
  refine roundHalfEven_of_mul hd ?_ ?_ (fun h => htie (Or.inl ?_)) fun h => htie (Or.inr ?_)
  · rw [le_div_iff₀ hdCast] at hlow
    have hcast : (2 * (k * d) : ℚ) ≤ 2 * n + d := by linarith
    exact_mod_cast hcast
  · rw [div_le_iff₀ hdCast] at hhigh
    have hcast : (2 * n : ℚ) ≤ 2 * (k * d) + d := by linarith
    exact_mod_cast hcast
  · have hcast : (2 * (k * d) : ℚ) = 2 * n + d := by exact_mod_cast h
    rw [div_eq_iff hdCast.ne']
    linarith
  · have hcast : (2 * n : ℚ) = 2 * (k * d) + d := by exact_mod_cast h
    rw [div_eq_iff hdCast.ne']
    linarith

/-! ## The nearest word -/

/-- The word of a positive finite number. -/
def wordOf (m : ℕ) (q : ℤ) : ℕ :=
  (q + 1074).toNat * 2 ^ 52 + m

theorem infinityWord_eq : infinityWord = 2047 * 2 ^ 52 := by
  decide +kernel

/-- Each number that has a word has one below that of infinity. -/
theorem wordOf_lt (h : Representable m q) : wordOf m q < infinityWord := by
  have hlt := h.lt
  have hgreatest := h.greatest
  rw [wordOf, infinityWord_eq]
  omega

/-- The word nearest to a quotient, from the unit and the number of units that it rounds to. -/
theorem nearestWord_eq (hnum : num ≠ 0) (hden : 0 < den) (hunit : unitExponent num den = e)
    (hlow : (k : ℚ) - 1 / 2 ≤ num / den * 2 ^ (-e)) (hhigh : (num : ℚ) / den * 2 ^ (-e) ≤ k + 1 / 2)
    (htie : (num : ℚ) / den * 2 ^ (-e) = k - 1 / 2 ∨ (num : ℚ) / den * 2 ^ (-e) = k + 1 / 2 →
      k % 2 = 0) :
    nearestWord num den = min (wordOf k e) infinityWord := by
  obtain ⟨hpos, hscaled⟩ := scaleBack_spec num hden e
  rw [← hscaled] at hlow hhigh htie
  obtain ⟨⟨n, d⟩, hparts⟩ : ∃ scaled, scaleBack num den e = scaled := ⟨_, rfl⟩
  rw [hparts] at hpos hlow hhigh htie
  rw [nearestWord, if_neg hnum, hunit]
  simp only [hparts]
  rw [wordOf, ← power_eq_pow, ← roundHalfEven_eq hpos hlow hhigh htie]

theorem mul_zpow_mul_zpow_neg (y : ℚ) (e : ℤ) : y * 2 ^ e * 2 ^ (-e) = y := by
  rw [mul_assoc, ← zpow_add₀ two_ne_zero, add_neg_cancel, zpow_zero, mul_one]

/-- A number of units of `2 ^ q` against a power of two. -/
theorem mul_zpow_lt_zpow_iff {y : ℚ} (k : ℕ) : y * 2 ^ q < 2 ^ (q + k) ↔ y < 2 ^ k := by
  rw [zpow_add₀ two_ne_zero, zpow_natCast, mul_comm]
  exact mul_lt_mul_iff_right₀ (two_zpow_pos q)

/-- Just below a power of two the units are half as large, and rounding carries to the power. -/
theorem nearestWord_of_lt_power {y : ℚ} (hq : -1074 < q) (hgreatest : q ≤ 971) (hnum : num ≠ 0)
    (hden : 0 < den) (hy : y * 2 ^ q = num / den) (hlow : 2 ^ 52 - 1 / 4 ≤ y) (hhigh : y < 2 ^ 52) :
    nearestWord num den = wordOf (2 ^ 52) q := by
  have hdouble : (2 : ℚ) * y * 2 ^ (q - 1) = num / den := by
    rw [← hy, zpow_sub_one₀ two_ne_zero]
    ring
  have hunit : unitExponent num den = q - 1 := by
    refine unitExponent_eq hnum hden.ne' (by omega) ?_ (Or.inl ?_)
    · rw [← hdouble]
      refine (mul_zpow_lt_zpow_iff 53).mpr ?_
      linarith
    · rw [← hdouble]
      refine not_lt.mp fun hlt => ?_
      have hsmall := (mul_zpow_lt_zpow_iff 52).mp hlt
      linarith
  -- the word above the last one of an exponent is the first one of the next
  have hcarry : wordOf (2 ^ 53) (q - 1) = wordOf (2 ^ 52) q := by
    rw [wordOf, wordOf]
    omega
  have hunits : (num : ℚ) / den * 2 ^ (-(q - 1)) = 2 * y := by
    rw [← hdouble, mul_zpow_mul_zpow_neg]
  have hword : Representable (2 ^ 52) q := ⟨by omega, by omega, hq.le, hgreatest, Or.inl le_rfl⟩
  rw [nearestWord_eq hnum hden hunit (k := 2 ^ 53), hcarry, min_eq_left (wordOf_lt hword).le]
  · rw [hunits]
    linarith
  · rw [hunits]
    linarith
  · exact fun _ => by omega

/-- Only the interval of the least mantissa reaches down by less than half a unit. -/
theorem reachBelow_cases (m : ℕ) (q : ℤ) : reachBelow m q = 1 ∧ m = 2 ^ 52 ∨ reachBelow m q = 2 := by
  rw [reachBelow]
  split
  · rename_i hleast
    exact Or.inl ⟨rfl, hleast.1⟩
  · exact Or.inr rfl

/-- In the interval of a number, what has the unit of the number rounds to it. -/
theorem nearestWord_of_unit {y : ℚ} (hm : Representable m q) (hnum : num ≠ 0) (hden : 0 < den)
    (hy : y * 2 ^ q = num / den) (hunit : (2 : ℚ) ^ (q + 52) ≤ num / den ∨ q = -1074)
    (hlow : (m : ℚ) - reachBelow m q / 4 ≤ y) (hhigh : y ≤ (m : ℚ) + 1 / 2)
    (htie : y = (m : ℚ) - reachBelow m q / 4 ∨ y = (m : ℚ) + 1 / 2 → m % 2 = 0) :
    nearestWord num den = wordOf m q := by
  have habove : (num : ℚ) / den < 2 ^ (q + 53) := by
    have hlt : (m : ℚ) + 1 ≤ 2 ^ 53 := by exact_mod_cast hm.lt
    rw [← hy]
    refine (mul_zpow_lt_zpow_iff 53).mpr ?_
    linarith
  have hunits : (num : ℚ) / den * 2 ^ (-q) = y := by rw [← hy, mul_zpow_mul_zpow_neg]
  have hreach : (reachBelow m q : ℚ) ≤ 2 := by exact_mod_cast (reachBelow_bounds m q).2
  rw [nearestWord_eq hnum hden (unitExponent_eq hnum hden.ne' hm.least habove hunit) (k := m),
    min_eq_left (wordOf_lt hm).le]
  · rw [hunits]
    linarith
  · rw [hunits]
    exact hhigh
  · rw [hunits]
    rintro (hend | hend)
    · refine htie (Or.inl ?_)
      rcases reachBelow_cases m q with ⟨hreach, -⟩ | hreach
      · rw [hreach] at hlow
        linarith
      · rw [hend, hreach]
        norm_num
    · exact htie (Or.inr hend)

/-- **What is in the interval of a number rounds to the number.** -/
theorem nearestWord_of_roundsTo (hm : Representable m q) (hnum : num ≠ 0) (hden : 0 < den)
    (h : RoundsTo m q ((num : ℚ) / den)) : nearestWord num den = wordOf m q := by
  have hpow := two_zpow_pos q
  have hy := mul_zpow_mul_zpow_neg ((num : ℚ) / den) (-q)
  rw [neg_neg] at hy
  generalize (num : ℚ) / den * 2 ^ (-q) = y at hy
  -- the interval in units of the number
  have hlow : (m : ℚ) - reachBelow m q / 4 ≤ y := le_of_mul_le_mul_right (hy ▸ h.low) hpow
  have hhigh : y ≤ (m : ℚ) + 1 / 2 := le_of_mul_le_mul_right (hy ▸ h.high) hpow
  have htie : y = (m : ℚ) - reachBelow m q / 4 ∨ y = (m : ℚ) + 1 / 2 → m % 2 = 0 := fun hends =>
    h.tie (hends.imp (fun hend => by rw [← hy, hend]) fun hend => by rw [← hy, hend])
  by_cases hunit : (2 : ℚ) ^ (q + 52) ≤ num / den ∨ q = -1074
  · exact nearestWord_of_unit hm hnum hden hy hunit hlow hhigh htie
  · -- only the least mantissa reaches below the numbers of its unit
    rw [not_or, not_le] at hunit
    have hsmall : y < 2 ^ 52 := by
      refine (mul_zpow_lt_zpow_iff (q := q) 52).mp ?_
      rw [hy]
      exact hunit.1
    have hleast : m = 2 ^ 52 := by
      refine le_antisymm (not_lt.mp fun hlt => ?_) (hm.full.resolve_right hunit.2)
      have hstep : (2 : ℚ) ^ 52 + 1 ≤ m := by exact_mod_cast hlt
      have hreach : (reachBelow m q : ℚ) ≤ 2 := by exact_mod_cast (reachBelow_bounds m q).2
      linarith
    subst hleast
    have hbelow : -1074 < q := lt_of_le_of_ne hm.least (Ne.symm hunit.2)
    refine nearestWord_of_lt_power hbelow hm.greatest hnum hden hy ?_ hsmall
    rw [reachBelow, if_pos ⟨rfl, hbelow⟩] at hlow
    linarith

/-! ## Decimal numbers -/

/-- The word of a number with its sign. -/
def signedWord (negative : Bool) (w : ℕ) : ℕ :=
  w + if negative then power 2 63 else 0

/-- The nearest number has the nearest word and the sign. -/
theorem nearest_eq (negative : Bool) (num den : ℕ) :
    nearest negative num den = Float.ofBits (UInt64.ofNat (signedWord negative (nearestWord num den))) :=
  rfl

/-- What rounds to a number is neither far above nor far below the format. -/
theorem RoundsTo.bounds (hm : Representable m q) (h : RoundsTo m q x) :
    (10 : ℚ) ^ (-400 : ℤ) < x ∧ x < 10 ^ (400 : ℤ) := by
  have hone : (1 : ℚ) ≤ m := by exact_mod_cast hm.pos
  have hlt : (m : ℚ) + 1 ≤ 2 ^ 53 := by exact_mod_cast hm.lt
  have hreach : (reachBelow m q : ℚ) ≤ 2 := by exact_mod_cast (reachBelow_bounds m q).2
  have hleast := hm.least
  have hgreatest := hm.greatest
  have hpow := two_zpow_pos q
  -- three binary digits are less than one decimal digit
  have height (k : ℤ) (hk : 0 ≤ k) : (2 : ℚ) ^ (3 * k) ≤ 10 ^ k := by
    rw [zpow_mul]
    exact zpow_le_zpow_left₀ hk (by norm_num) (by norm_num)
  constructor
  · calc (10 : ℚ) ^ (-400 : ℤ) ≤ 2 ^ (-1200 : ℤ) := by
          rw [zpow_neg, zpow_neg]
          exact inv_anti₀ (two_zpow_pos _) (height 400 (by decide))
      _ < 2 ^ (q - 1) := zpow_lt_zpow_right₀ one_lt_two (by omega)
      _ = 1 / 2 * 2 ^ q := by rw [zpow_sub_one₀ two_ne_zero]; ring
      _ ≤ (m - reachBelow m q / 4) * 2 ^ q := mul_le_mul_of_nonneg_right (by linarith) hpow.le
      _ ≤ x := h.low
  · calc x ≤ (m + 1 / 2) * 2 ^ q := h.high
      _ < 2 ^ (q + 53) := (mul_zpow_lt_zpow_iff 53).mpr (by linarith)
      _ ≤ 2 ^ (1200 : ℤ) := zpow_le_zpow_right₀ one_le_two (by omega)
      _ ≤ 10 ^ (400 : ℤ) := height 400 (by decide)

/-- The bits of a number tell its digits roughly. -/
theorem ten_zpow_log2_bounds (hn : n ≠ 0) :
    (10 : ℚ) ^ ((n.log2 : ℤ) / 4) ≤ n ∧ (n : ℚ) < 10 ^ ((n.log2 : ℤ) + 1) := by
  obtain ⟨hlow, hhigh⟩ := log2_bounds hn
  constructor
  · calc (10 : ℚ) ^ ((n.log2 : ℤ) / 4) ≤ (2 ^ (4 : ℤ)) ^ ((n.log2 : ℤ) / 4) :=
          zpow_le_zpow_left₀ (by omega) (by norm_num) (by norm_num)
      _ = 2 ^ (4 * ((n.log2 : ℤ) / 4)) := (zpow_mul _ _ _).symm
      _ ≤ 2 ^ (n.log2 : ℤ) := zpow_le_zpow_right₀ one_le_two (by omega)
      _ ≤ n := hlow
  · exact hhigh.trans_le (zpow_le_zpow_left₀ (by omega) (by norm_num) (by norm_num))

/-- **A decimal number in the interval of a number is read as the number.** -/
theorem nearestDecimal_of_roundsTo (negative : Bool) (hm : Representable m q)
    (h : RoundsTo m q (n * 10 ^ e)) :
    nearestDecimal negative n e
      = Float.ofBits (UInt64.ofNat (signedWord negative (wordOf m q))) := by
  have hn : n ≠ 0 := by
    rintro rfl
    have hpos := h.pos hm.pos
    rw [Nat.cast_zero, zero_mul] at hpos
    exact absurd hpos (lt_irrefl 0)
  have hten : (10 : ℚ) ≠ 0 := by norm_num
  have hpow : (0 : ℚ) < 10 ^ e := zpow_pos (by norm_num) e
  obtain ⟨hlow, hhigh⟩ := h.bounds hm
  obtain ⟨hleast, hmost⟩ := ten_zpow_log2_bounds hn
  -- the power of ten is computed
  have htop : (n.log2 : ℤ) / 4 + e < 400 := by
    refine (zpow_lt_zpow_iff_right₀ (by norm_num : (1 : ℚ) < 10)).mp ?_
    rw [zpow_add₀ hten]
    exact (mul_le_mul_of_nonneg_right hleast hpow.le).trans_lt hhigh
  have hbottom : -400 < (n.log2 : ℤ) + 1 + e := by
    refine (zpow_lt_zpow_iff_right₀ (by norm_num : (1 : ℚ) < 10)).mp ?_
    rw [zpow_add₀ hten]
    exact hlow.trans (mul_lt_mul_of_pos_right hmost hpow)
  rw [nearestDecimal, if_neg hn]
  simp only
  rw [if_neg (by omega), if_neg (by omega)]
  split
  case isTrue he =>
    obtain ⟨k, rfl⟩ : ∃ k : ℕ, e = k := ⟨e.toNat, by omega⟩
    rw [zpow_natCast] at h
    rw [nearest_eq, Int.toNat_natCast, power_eq_pow, nearestWord_of_roundsTo hm
      (Nat.mul_ne_zero hn (by positivity)) Nat.one_pos (by push_cast; rwa [div_one])]
  case isFalse he =>
    obtain ⟨k, rfl⟩ : ∃ k : ℕ, e = -k := ⟨e.natAbs, by omega⟩
    rw [zpow_neg, zpow_natCast, ← div_eq_mul_inv] at h
    rw [nearest_eq, neg_neg, Int.toNat_natCast, power_eq_pow, nearestWord_of_roundsTo hm hn
      (by positivity) (by push_cast; exact h)]

end Lightpath.Numeral
