import Mathlib.Data.List.DropRight
import Lightpath.Proofs.Numeral.NearestWord

/-!
# The digits of a floating-point number

The digits that a number is written with are found on the grids of decimal numbers of 1, 2, … 17
digits. The last grid is finer than the interval of the numbers that round to the number, so there
always is a grid point in it. Main statement: the decimal number that is written rounds to the number
(`roundsTo_shortest`).
-/

namespace Lightpath.Numeral

variable {m n k num den point : ℕ} {q e : ℤ} {x : ℚ}

/-! ## The interval in whole numbers -/

/-- A number strictly between the midpoints is rounded to the one between them. -/
theorem RoundsTo.of_lt (hlow : ((m : ℚ) - reachBelow m q / 4) * 2 ^ q < x)
    (hhigh : x < ((m : ℚ) + 1 / 2) * 2 ^ q) : RoundsTo m q x :=
  ⟨hlow.le, hhigh.le, fun h => absurd h (not_or.mpr ⟨hlow.ne', hhigh.ne⟩)⟩

theorem natCast_div_le_div_iff {a b c d : ℕ} (hb : 0 < b) (hd : 0 < d) :
    (a : ℚ) / b ≤ c / d ↔ a * d ≤ c * b := by
  rw [div_le_div_iff₀ (by exact_mod_cast hb) (by exact_mod_cast hd)]
  exact_mod_cast Iff.rfl

theorem natCast_div_lt_div_iff {a b c d : ℕ} (hb : 0 < b) (hd : 0 < d) :
    (a : ℚ) / b < c / d ↔ a * d < c * b := by
  rw [div_lt_div_iff₀ (by exact_mod_cast hb) (by exact_mod_cast hd)]
  exact_mod_cast Iff.rfl

/-- The value and the ends of an interval, each over the denominator of the interval. -/
theorem around_spec (hm : 0 < m) (q : ℤ) :
    0 < (Interval.around m q).unit ∧
      ((Interval.around m q).value : ℚ) / (Interval.around m q).unit = m * 2 ^ q ∧
      ((Interval.around m q).low : ℚ) / (Interval.around m q).unit
        = (m - reachBelow m q / 4) * 2 ^ q ∧
      ((Interval.around m q).high : ℚ) / (Interval.around m q).unit = (m + 1 / 2) * 2 ^ q := by
  have hreach := reachBelow_bounds m q
  have hcast : ((4 * m - reachBelow m q : ℕ) : ℚ) = 4 * m - reachBelow m q := by
    rw [Nat.cast_sub (by omega)]
    push_cast
    rfl
  have hbelow : (if m = power 2 52 ∧ -1074 < q then 1 else 2) = reachBelow m q := rfl
  rw [Interval.around]
  simp only [hbelow]
  generalize reachBelow m q = below at hcast
  split
  case isTrue hq =>
    obtain ⟨k, rfl⟩ : ∃ k : ℕ, q = k := ⟨q.toNat, by omega⟩
    simp only [power_eq_pow, Int.toNat_natCast, zpow_natCast]
    push_cast [hcast]
    refine ⟨by decide, ?_, ?_, ?_⟩ <;> ring
  case isFalse hq =>
    obtain ⟨k, rfl⟩ : ∃ k : ℕ, q = -k := ⟨q.natAbs, by omega⟩
    simp only [power_eq_pow, neg_neg, Int.toNat_natCast, zpow_neg, zpow_natCast]
    push_cast [hcast]
    refine ⟨by positivity, ?_, ?_, ?_⟩ <;> (field_simp; try ring)

/-- The comparison with the ends of the interval says which quotients round to the number. -/
theorem holds_around_iff (hm : 0 < m) (hden : 0 < den) :
    (Interval.around m q).holds num den = true ↔ RoundsTo m q ((num : ℚ) / den) := by
  obtain ⟨hunit, -, hlow, hhigh⟩ := around_spec hm q
  have hclosed : (Interval.around m q).closed = (m % 2 == 0) := rfl
  generalize Interval.around m q = i at hunit hlow hhigh hclosed ⊢
  -- each comparison is one of quotients over the product of both denominators
  have hlowLe := @natCast_div_le_div_iff i.low i.unit num den hunit hden
  have hhighLe := @natCast_div_le_div_iff num den i.high i.unit hden hunit
  have hlowLt := @natCast_div_lt_div_iff i.low i.unit num den hunit hden
  have hhighLt := @natCast_div_lt_div_iff num den i.high i.unit hden hunit
  rw [hlow] at hlowLe hlowLt
  rw [hhigh] at hhighLe hhighLt
  rw [Interval.holds, hclosed]
  by_cases heven : m % 2 = 0
  · simp only [heven, beq_self_eq_true, if_true, Bool.and_eq_true, decide_eq_true_eq]
    rw [← hlowLe, ← hhighLe]
    exact ⟨fun h => ⟨h.1, h.2, fun _ => heven⟩, fun h => ⟨h.low, h.high⟩⟩
  · simp only [beq_iff_eq, heven, if_false, Bool.and_eq_true, decide_eq_true_eq]
    rw [← hlowLt, ← hhighLt]
    exact ⟨fun h => .of_lt h.1 h.2, fun h =>
      ⟨lt_of_le_of_ne h.low fun hend => heven (h.tie (Or.inl hend.symm)),
        lt_of_le_of_ne h.high fun hend => heven (h.tie (Or.inr hend))⟩⟩

/-! ## The place of the point -/

/-- A power of ten is a quotient of two positive numbers. -/
theorem tenPower_spec (e : ℤ) : 0 < (tenPower e).1 ∧ 0 < (tenPower e).2 ∧
    ((tenPower e).1 : ℚ) / (tenPower e).2 = 10 ^ e := by
  rw [tenPower]
  split
  case isTrue he =>
    obtain ⟨k, rfl⟩ : ∃ k : ℕ, e = k := ⟨e.toNat, by omega⟩
    refine ⟨Nat.pow_pos (by decide), Nat.one_pos, ?_⟩
    simp only [power_eq_pow, Int.toNat_natCast, zpow_natCast]
    push_cast
    rw [div_one]
  case isFalse he =>
    obtain ⟨k, rfl⟩ : ∃ k : ℕ, e = -k := ⟨e.natAbs, by omega⟩
    refine ⟨Nat.one_pos, Nat.pow_pos (by decide), ?_⟩
    simp only [power_eq_pow, neg_neg, Int.toNat_natCast, zpow_neg, zpow_natCast]
    push_cast
    rw [one_div]

/-- The factor between powers of two and of ten, at every exponent of the format. -/
theorem pow_bounds_of_lt : ∀ i < 1100, 10 ^ (i * 30103 / 100000) ≤ 2 ^ i * 50 ∧
    2 ^ i ≤ 10 ^ ((i * 30103 + 99999) / 100000) := by
  decide +kernel

/-- The first guess of the place of the point, two places down, is below the number. -/
theorem ten_zpow_guess_le {l : ℤ} (h : l.natAbs < 1100) :
    (10 : ℚ) ^ (l * 30103 / 100000 - 2) ≤ 2 ^ (l - 1) := by
  obtain ⟨hup, hdown⟩ := pow_bounds_of_lt l.natAbs h
  rw [zpow_sub₀ (by norm_num), zpow_sub₀ (by norm_num), zpow_one]
  rcases Int.natAbs_eq l with hl | hl
  · generalize l.natAbs = i at hup hl
    have hguess : l * 30103 / 100000 = ((i * 30103 / 100000 : ℕ) : ℤ) := by omega
    have hcast : (10 : ℚ) ^ (i * 30103 / 100000) ≤ 2 ^ i * 50 := by exact_mod_cast hup
    rw [hguess, hl, zpow_natCast, zpow_natCast]
    norm_num
    linarith
  · generalize l.natAbs = i at hdown hl
    have hguess : l * 30103 / 100000 = -(((i * 30103 + 99999) / 100000 : ℕ) : ℤ) := by omega
    have hcast : (2 : ℚ) ^ i ≤ 10 ^ ((i * 30103 + 99999) / 100000) := by exact_mod_cast hdown
    have hinv := inv_anti₀ (by positivity) hcast
    have hpos : (0 : ℚ) < (2 ^ i)⁻¹ := by positivity
    rw [hguess, hl, zpow_neg, zpow_neg, zpow_natCast, zpow_natCast]
    norm_num
    linarith

/-- The first of five neighbours that fits is the first one at all or follows one that does not fit. -/
theorem find?_neighbours (fits : ℤ → Bool) (g : ℤ) :
    ∀ r, ([g, g + 1, g + 2, g + 3].find? fits).getD (g + 4) = r → r = g ∨ fits (r - 1) = false := by
  rintro r rfl
  simp only [List.find?_cons, List.find?_nil]
  cases h₀ : fits g
  case true => exact Or.inl rfl
  case false =>
    refine Or.inr ?_
    cases h₁ : fits (g + 1)
    case true => simp [h₀]
    case false =>
      cases h₂ : fits (g + 2)
      case true => simp [show g + 2 - 1 = g + 1 by ring, h₁]
      case false =>
        cases h₃ : fits (g + 3)
        case true => simp [show g + 3 - 1 = g + 2 by ring, h₂]
        case false => simp [show g + 4 - 1 = g + 3 by ring, h₃]

/-- The place of the point is not too large. -/
theorem ten_zpow_pointOf_le (hnum : num ≠ 0) (hden : den ≠ 0)
    (h : ((num.log2 : ℤ) - den.log2).natAbs < 1100) :
    (10 : ℚ) ^ (pointOf num den - 1) ≤ num / den := by
  rcases find?_neighbours (fun d => decide (num * (tenPower d).2 < (tenPower d).1 * den)) _ _
    (rfl : _ = pointOf num den) with hguess | hnot
  · have hexponent : pointOf num den - 1 = ((num.log2 : ℤ) - den.log2) * 30103 / 100000 - 2 := by
      rw [hguess]
      ring
    rw [hexponent]
    exact (ten_zpow_guess_le h).trans (log2_sub_bounds hnum hden).1.le
  · obtain ⟨-, hpos, hvalue⟩ := tenPower_spec (pointOf num den - 1)
    rw [← hvalue, natCast_div_le_div_iff hpos (Nat.pos_of_ne_zero hden)]
    exact Nat.le_of_not_lt (of_decide_eq_false hnot)

/-- The point of a number is put behind its first digit or before it. -/
theorem ten_zpow_pointOf_around_le (hm : Representable m q) :
    (10 : ℚ) ^ (pointOf (Interval.around m q).value (Interval.around m q).unit - 1) ≤ m * 2 ^ q := by
  obtain ⟨hunit, hvalue, -⟩ := around_spec hm.pos q
  have hposCast : (0 : ℚ) < m := by exact_mod_cast hm.pos
  have hvalueNe : (Interval.around m q).value ≠ 0 := by
    intro hzero
    rw [hzero, Nat.cast_zero, zero_div] at hvalue
    exact (mul_pos hposCast (two_zpow_pos q)).ne hvalue
  have hlow : (2 : ℚ) ^ (-1074 : ℤ) ≤ m * 2 ^ q := by
    have hone : (1 : ℚ) ≤ m := by exact_mod_cast hm.pos
    calc (2 : ℚ) ^ (-1074 : ℤ) ≤ 2 ^ q := zpow_le_zpow_right₀ one_le_two hm.least
      _ ≤ m * 2 ^ q := le_mul_of_one_le_left (two_zpow_pos q).le hone
  have hhigh : m * 2 ^ q < (2 : ℚ) ^ (1024 : ℤ) := by
    have hlt : (m : ℚ) < 2 ^ 53 := by exact_mod_cast hm.lt
    have hgreatest := hm.greatest
    calc m * 2 ^ q < (2 : ℚ) ^ (q + 53) := (mul_zpow_lt_zpow_iff 53).mpr hlt
      _ ≤ 2 ^ (1024 : ℤ) := zpow_le_zpow_right₀ one_le_two (by omega)
  -- a number of the format has an exponent for which the factor was checked
  have hlogs := log2_sub_bounds hvalueNe hunit.ne'
  rw [hvalue] at hlogs
  have hleast := (zpow_lt_zpow_iff_right₀ one_lt_two).mp (hlow.trans_lt hlogs.2)
  have hgreatest := (zpow_lt_zpow_iff_right₀ one_lt_two).mp (hlogs.1.trans hhigh)
  exact (ten_zpow_pointOf_le hvalueNe hunit.ne' (by omega)).trans_eq hvalue

/-! ## Grid points -/

/-- One of the two grid points next to the number is found, unless neither is in the interval. -/
theorem onGrid_cases (i : Interval) (point : ℤ) (n : ℕ) {a b j : ℕ}
    (hstep : tenPower (point - n) = (a, b)) (hj : i.value * b / (i.unit * a) = j) :
    (i.onGrid point n = none ∧ i.holds (j * a) b = false ∧ i.holds ((j + 1) * a) b = false) ∨
      ∃ k, i.onGrid point n = some k ∧ i.holds (k * a) b = true := by
  rw [Interval.onGrid, hstep]
  simp only [hj]
  generalize i.value * b % (i.unit * a) = r
  cases hlow : i.holds (j * a) b <;> cases hhigh : i.holds ((j + 1) * a) b
  case false.false => exact Or.inl ⟨rfl, rfl, rfl⟩
  case false.true => exact Or.inr ⟨j + 1, rfl, hhigh⟩
  case true.false => exact Or.inr ⟨j, rfl, hlow⟩
  case true.true =>
    refine Or.inr ?_
    rw [Bool.and_self, if_pos rfl]
    split
    · exact ⟨j, rfl, hlow⟩
    · split
      · exact ⟨j + 1, rfl, hhigh⟩
      · split
        · exact ⟨j, rfl, hlow⟩
        · exact ⟨j + 1, rfl, hhigh⟩

/-- What is found on a grid rounds to the number. -/
theorem roundsTo_of_onGrid {point : ℤ} (hm : 0 < m)
    (h : (Interval.around m q).onGrid point n = some k) :
    RoundsTo m q (k * 10 ^ (point - n)) := by
  obtain ⟨-, hb, hstep⟩ := tenPower_spec (point - n)
  obtain ⟨⟨a, b⟩, hparts⟩ : ∃ step, tenPower (point - n) = step := ⟨_, rfl⟩
  rw [hparts] at hb hstep
  rcases onGrid_cases (Interval.around m q) point n hparts rfl with ⟨hnone, -⟩ | ⟨k', hfound, hholds⟩
  · rw [h] at hnone
    exact absurd hnone (by simp)
  · rw [h] at hfound
    obtain rfl := Option.some.inj hfound
    have hrounds := (holds_around_iff hm hb).mp hholds
    rwa [Nat.cast_mul, mul_div_assoc, hstep] at hrounds

/-- A number is between the two points next to it on the grid of the multiples of `a / b`. -/
theorem grid_bounds {v u a b : ℕ} (hu : 0 < u) (ha : 0 < a) (hb : 0 < b) :
    (v * b / (u * a) * a : ℕ) / (b : ℚ) ≤ v / u ∧
      (v : ℚ) / u < ((v * b / (u * a) + 1) * a : ℕ) / (b : ℚ) := by
  have hdiv := Nat.div_add_mod' (v * b) (u * a)
  have hmod := Nat.mod_lt (v * b) (Nat.mul_pos hu ha)
  generalize v * b / (u * a) = j at hdiv ⊢
  generalize v * b % (u * a) = r at hdiv hmod
  rw [natCast_div_le_div_iff hb hu, natCast_div_lt_div_iff hu hb, ← hdiv]
  constructor
  · exact (Nat.le_add_right _ r).trans_eq' (by ring)
  · exact (Nat.add_lt_add_left hmod _).trans_eq (by ring)

/-- A grid with no point in the interval has steps that are as long as the interval. -/
theorem reach_le_of_onGrid_eq_none {point : ℤ} (hm : 0 < m)
    (h : (Interval.around m q).onGrid point n = none) :
    ((reachBelow m q : ℚ) / 4 + 1 / 2) * 2 ^ q ≤ 10 ^ (point - n) := by
  obtain ⟨hunit, hvalue, -⟩ := around_spec hm q
  obtain ⟨ha, hb, hstep⟩ := tenPower_spec (point - n)
  obtain ⟨⟨a, b⟩, hparts⟩ : ∃ step, tenPower (point - n) = step := ⟨_, rfl⟩
  rw [hparts] at ha hb hstep
  simp only at ha hb hstep
  rcases onGrid_cases (Interval.around m q) point n hparts rfl with ⟨-, hmisses⟩ | ⟨k', hfound, -⟩
  case inr =>
    rw [h] at hfound
    exact absurd hfound (by simp)
  obtain ⟨hbefore, hafter⟩ := @grid_bounds (Interval.around m q).value _ a b hunit ha hb
  generalize (Interval.around m q).value * b / ((Interval.around m q).unit * a) = j
    at hmisses hbefore hafter
  rw [hvalue] at hbefore hafter
  -- both points are outside the interval, one on either side
  have hpow := two_zpow_pos q
  have hreach : 0 ≤ (reachBelow m q : ℚ) / 4 * 2 ^ q := by positivity
  have hbelow : (j * a : ℕ) / (b : ℚ) ≤ (m - reachBelow m q / 4) * 2 ^ q := by
    refine not_lt.mp fun hlt => Bool.eq_false_iff.mp hmisses.1 ((holds_around_iff hm hb).mpr ?_)
    exact .of_lt hlt (by linarith)
  have habove : (m + 1 / 2) * 2 ^ q ≤ ((j + 1) * a : ℕ) / (b : ℚ) := by
    refine not_lt.mp fun hlt => Bool.eq_false_iff.mp hmisses.2 ((holds_around_iff hm hb).mpr ?_)
    exact .of_lt (by linarith) hlt
  have hnext : ((j + 1) * a : ℕ) / (b : ℚ) = (j * a : ℕ) / (b : ℚ) + a / b := by
    push_cast
    ring
  rw [hnext, hstep] at habove
  linarith

/-- **A grid of 17 digits has a point in the interval**, as its steps are shorter than the interval. -/
theorem exists_onGrid (hm : Representable m q) {point : ℤ}
    (hpoint : (10 : ℚ) ^ (point - 1) ≤ m * 2 ^ q) :
    ∃ k, (Interval.around m q).onGrid point 17 = some k := by
  refine Option.ne_none_iff_exists'.mp fun hnone => ?_
  have hlong := reach_le_of_onGrid_eq_none hm.pos hnone
  have hstep : (10 : ℚ) ^ (point - (17 : ℕ)) = 10 ^ (point - 1) / 10 ^ 16 := by
    rw [show point - (17 : ℕ) = point - 1 - (16 : ℕ) by push_cast; ring, zpow_sub₀ (by norm_num),
      zpow_natCast]
  have hshort : (10 : ℚ) ^ (point - (17 : ℕ)) ≤ m / 10 ^ 16 * 2 ^ q := by
    rw [hstep, div_mul_eq_mul_div]
    exact div_le_div_of_nonneg_right hpoint (by positivity)
  -- a mantissa of 53 bits has less than 17 digits
  have hle := le_of_mul_le_mul_right (hlong.trans hshort) (two_zpow_pos q)
  rw [reachBelow] at hle
  split at hle
  case isTrue hleast =>
    rw [hleast.1, power_eq_pow] at hle
    norm_num at hle
  case isFalse =>
    have hlt := hm.lt
    rw [le_div_iff₀ (by positivity)] at hle
    norm_num at hle
    omega

/-! ## Digits -/

/-- The decimal number that digits and the place of their point stand for. -/
def Digits.value (d : Digits) : ℚ :=
  (Nat.ofDigitChars 10 d.digits 0 : ℚ) * 10 ^ (d.point - d.digits.length)

/-- Zeros at the end count as places. -/
theorem ofDigitChars_append_zeros (ds : List Char) (zeros : ℕ) :
    Nat.ofDigitChars 10 (ds ++ List.replicate zeros '0') 0 = Nat.ofDigitChars 10 ds 0 * 10 ^ zeros := by
  rw [Nat.ofDigitChars_append, Nat.ofDigitChars_replicate_zero, Nat.mul_comm]

theorem exists_dropTrailingZeros (ds : List Char) :
    ∃ zeros, ds = dropTrailingZeros ds ++ List.replicate zeros '0' := by
  refine ⟨(ds.rtakeWhile (· == '0')).length, ?_⟩
  have hzeros : ds.rtakeWhile (· == '0')
      = List.replicate (ds.rtakeWhile (· == '0')).length '0' :=
    List.eq_replicate_of_mem fun c hc => by
      have hzero := List.mem_rtakeWhile_imp hc
      exact beq_iff_eq.mp hzero
  rw [← hzeros]
  exact List.rdropWhile_append_rtakeWhile.symm

/-- The digits of a grid point stand for it, without the zeros at their end and whether or not
rounding up has made them one more. -/
theorem value_dropTrailingZeros (k n : ℕ) (point : ℤ) :
    (Digits.mk (dropTrailingZeros (decimalDigits k))
      (point + (((decimalDigits k).length : ℤ) - n))).value = k * 10 ^ (point - n) := by
  have hdigits : decimalDigits k = Nat.toDigits 10 k := by
    rw [decimalDigits, Nat.toString_eq_repr, Nat.toList_repr]
  have hk : Nat.ofDigitChars 10 (decimalDigits k) 0 = k := by
    rw [hdigits, Nat.ofDigitChars_ten_toDigits]
  obtain ⟨zeros, hzeros⟩ := exists_dropTrailingZeros (decimalDigits k)
  rw [Digits.value]
  simp only
  generalize dropTrailingZeros (decimalDigits k) = ds at hzeros ⊢
  have hlength : ((decimalDigits k).length : ℤ) = ds.length + zeros := by
    rw [hzeros, List.length_append, List.length_replicate]
    push_cast
    rfl
  rw [hzeros, ofDigitChars_append_zeros] at hk
  have hexponent : point + (((decimalDigits k).length : ℤ) - n) - ds.length = zeros + (point - n) := by
    rw [hlength]
    ring
  rw [hexponent, zpow_add₀ (by norm_num), zpow_natCast, ← hk]
  push_cast
  ring

/-- The digits come from a grid point that rounds to the number. -/
theorem exists_shortest (hm : Representable m q) :
    ∃ (k n : ℕ) (point : ℤ), RoundsTo m q (k * 10 ^ (point - n)) ∧
      shortest m q = ⟨dropTrailingZeros (decimalDigits k),
        point + (((decimalDigits k).length : ℤ) - n)⟩ := by
  obtain ⟨last, hlast⟩ := exists_onGrid hm (ten_zpow_pointOf_around_le hm)
  rw [shortest]
  simp only
  generalize pointOf (Interval.around m q).value (Interval.around m q).unit = point at hlast ⊢
  generalize hfound : ((List.range 17).findSome? fun n =>
    ((Interval.around m q).onGrid point (n + 1)).map fun k => (n + 1, k)) = found
  cases found with
  | none =>
    -- the last grid that is tried has a point
    have hnone := List.findSome?_eq_none_iff.mp hfound 16 (by simp)
    rw [hlast] at hnone
    exact absurd hnone (by simp)
  | some grid =>
    obtain ⟨n, -, hn⟩ := List.exists_of_findSome?_eq_some hfound
    obtain ⟨k, hk, rfl⟩ := Option.map_eq_some_iff.mp hn
    exact ⟨k, n + 1, point, roundsTo_of_onGrid hm.pos hk, rfl⟩

/-- **The decimal number that is written rounds to the number.** -/
theorem roundsTo_shortest (hm : Representable m q) : RoundsTo m q (shortest m q).value := by
  obtain ⟨k, n, point, hrounds, hshortest⟩ := exists_shortest hm
  rwa [hshortest, value_dropTrailingZeros]

/-- A number is written with decimal digits, at least one of them. -/
theorem shortest_digits (hm : Representable m q) :
    (shortest m q).digits ≠ [] ∧ ∀ c ∈ (shortest m q).digits, c.isDigit = true := by
  have hpos := (roundsTo_shortest hm).pos hm.pos
  refine ⟨fun hnil => ?_, fun c hc => ?_⟩
  · rw [Digits.value, hnil] at hpos
    simp at hpos
  · obtain ⟨k, n, point, -, hshortest⟩ := exists_shortest hm
    obtain ⟨zeros, hzeros⟩ := exists_dropTrailingZeros (decimalDigits k)
    rw [hshortest] at hc
    have hmem : c ∈ decimalDigits k := by
      rw [hzeros]
      exact List.mem_append_left _ hc
    rw [decimalDigits, Nat.toString_eq_repr, Nat.toList_repr] at hmem
    exact Nat.isDigit_of_mem_toDigits (by decide) (by decide) hmem

end Lightpath.Numeral
