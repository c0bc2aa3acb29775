import Mathlib
import Lightpath.Proofs.Numeral.DecimalGrammar
import Lightpath.Proofs.Numeral.ShortestDigits

/-!
# The text of a floating-point number

A floating-point number is written with a point and perhaps an exponent, or as a word. Main statement:
what is written reads back as the very same number (`floatOf_floatText`).
-/

namespace Lightpath.Numeral

open Lightpath.Text
open Decimal (pointed)
open Float.Model (Format)
open Float.Model.UnpackedFloat (unpackExponent unpackMantissa unpackExponent_def unpackMantissa_def)

variable {whole fraction tail cs ds : List Char} {m k : ℕ} {q e : ℤ} {x : ℚ} {d : Digits}

/-! ## Written forms -/

theorem isDigit_of_mem_append (hcs : ∀ c ∈ cs, c.isDigit = true) (hds : ∀ c ∈ ds, c.isDigit = true) :
    ∀ c ∈ cs ++ ds, c.isDigit = true := fun c hc => (List.mem_append.mp hc).elim (hcs c) (hds c)

theorem isDigit_of_mem_zeros (n : ℕ) : ∀ c ∈ List.replicate n '0', c.isDigit = true := fun c hc => by
  rw [List.eq_of_mem_replicate hc]
  rfl

/-- Zeros in front of digits do not count. -/
theorem ofDigitChars_zeros_append (n : ℕ) (ds : List Char) :
    Nat.ofDigitChars 10 (List.replicate n '0' ++ ds) 0 = Nat.ofDigitChars 10 ds 0 := by
  rw [Nat.ofDigitChars_append, Nat.ofDigitChars_replicate_zero, Nat.mul_zero]

/-- A text writes a number, however the number is split into a mantissa and an exponent. -/
def WritesValue (cs : List Char) (x : ℚ) : Prop :=
  ∃ m e, WritesDecimal cs m e ∧ (m : ℚ) * 10 ^ e = x

/-- Digits around a point, with an exponent behind them, write a value. -/
theorem writesValue_pointed (hne : whole ≠ []) (hwhole : ∀ c ∈ whole, c.isDigit = true)
    (hfraction : ∀ c ∈ fraction, c.isDigit = true) (htail : WritesExponent tail e)
    (hvalue : (Nat.ofDigitChars 10 (whole ++ fraction) 0 : ℚ) * 10 ^ (e - fraction.length) = x) :
    WritesValue (pointed whole fraction ++ tail) x :=
  ⟨_, _, .intro hne hwhole hfraction htail, hvalue⟩

/-- Zeros behind the point, and then the digits. -/
theorem writesValue_zeros_append (n : ℕ) (hne : ds ≠ []) (hdigits : ∀ c ∈ ds, c.isDigit = true) :
    WritesValue ('0' :: '.' :: (List.replicate n '0' ++ ds))
      (Nat.ofDigitChars 10 ds 0 * 10 ^ (-((n + ds.length : ℕ) : ℤ))) := by
  have hform : '0' :: '.' :: (List.replicate n '0' ++ ds)
      = pointed ['0'] (List.replicate n '0' ++ ds) ++ [] := by
    rw [pointed, if_neg (by simp [hne]), List.append_nil]
    rfl
  rw [hform]
  refine writesValue_pointed (by simp) (isDigit_of_mem_zeros 1)
    (isDigit_of_mem_append (isDigit_of_mem_zeros n) hdigits) .none ?_
  have hzero := ofDigitChars_zeros_append 1 (List.replicate n '0' ++ ds)
  rw [List.replicate_one] at hzero
  rw [hzero, ofDigitChars_zeros_append, List.length_append, List.length_replicate, zero_sub]

/-- The digits, and then zeros up to the point and one behind it. -/
theorem writesValue_append_zeros (n : ℕ) (hne : ds ≠ []) (hdigits : ∀ c ∈ ds, c.isDigit = true) :
    WritesValue (ds ++ List.replicate n '0' ++ ['.', '0'])
      (Nat.ofDigitChars 10 ds 0 * 10 ^ (n : ℤ)) := by
  have hform : ds ++ List.replicate n '0' ++ ['.', '0']
      = pointed (ds ++ List.replicate n '0') ['0'] ++ [] := by
    rw [pointed, if_neg (by simp), List.append_nil]
  rw [hform]
  refine writesValue_pointed (by simp [hne])
    (isDigit_of_mem_append hdigits (isDigit_of_mem_zeros n)) (isDigit_of_mem_zeros 1) .none ?_
  have hzeros : ds ++ List.replicate n '0' ++ ['0'] = ds ++ List.replicate (n + 1) '0' := by
    rw [List.append_assoc, List.replicate_succ']
  have hexponent : ((n + 1 : ℕ) : ℤ) + (0 - ((1 : ℕ) : ℤ)) = n := by omega
  rw [hzeros, ofDigitChars_append_zeros, Nat.cast_mul, Nat.cast_pow, Nat.cast_ofNat, mul_assoc,
    ← zpow_natCast, ← zpow_add₀ (by norm_num), List.length_singleton, hexponent]

/-- A point between the digits, or behind them. -/
theorem writesValue_take_drop {n : ℕ} (hpos : 0 < n) (hn : n ≤ ds.length)
    (hdigits : ∀ c ∈ ds, c.isDigit = true) (htail : WritesExponent tail e) :
    WritesValue (pointed (ds.take n) (ds.drop n) ++ tail)
      (Nat.ofDigitChars 10 ds 0 * 10 ^ (e + n - ds.length)) := by
  refine writesValue_pointed ?_ (fun c hc => hdigits c (List.mem_of_mem_take hc))
    (fun c hc => hdigits c (List.mem_of_mem_drop hc)) htail ?_
  · refine List.ne_nil_of_length_pos ?_
    rw [List.length_take]
    omega
  · rw [List.take_append_drop, List.length_drop]
    congr 2
    omega

/-- Digits around a point write the number that they stand for. -/
theorem writesValue_positional (hne : d.digits ≠ []) (hdigits : ∀ c ∈ d.digits, c.isDigit = true) :
    WritesValue d.positional d.value := by
  obtain ⟨ds, point⟩ := d
  simp only at hne hdigits
  rw [Digits.positional, Digits.value]
  simp only
  split
  case isTrue hpoint =>
    have hexponent : point - ds.length = -(((-point).toNat + ds.length : ℕ) : ℤ) := by omega
    rw [hexponent]
    exact writesValue_zeros_append _ hne hdigits
  case isFalse hpoint =>
    obtain ⟨n, rfl⟩ : ∃ n : ℕ, point = n := ⟨point.toNat, by omega⟩
    rw [Int.toNat_natCast]
    split
    case isTrue hshort =>
      have hexponent : (n : ℤ) - ds.length = ((n - ds.length : ℕ) : ℤ) := by omega
      rw [hexponent]
      exact writesValue_append_zeros _ hne hdigits
    case isFalse hlong =>
      have hform : ds.take n ++ '.' :: ds.drop n = pointed (ds.take n) (ds.drop n) ++ [] := by
        rw [pointed, if_neg (by rw [List.drop_eq_nil_iff]; omega), List.append_nil]
      have hpos : 0 < n := by omega
      have hinside : n ≤ ds.length := by omega
      have hbetween := writesValue_take_drop hpos hinside hdigits .none
      rw [zero_add, ← hform] at hbetween
      exact hbetween

/-- The digits of an exponent, with zeros in front. -/
theorem padZeros_decimalDigits (width n : ℕ) : padZeros width (decimalDigits n) ≠ [] ∧
    (∀ c ∈ padZeros width (decimalDigits n), c.isDigit = true) ∧
    Nat.ofDigitChars 10 (padZeros width (decimalDigits n)) 0 = n := by
  rw [padZeros, decimalDigits, Nat.toString_eq_repr, Nat.toList_repr]
  refine ⟨by simp [Nat.toDigits_ne_nil], isDigit_of_mem_append (isDigit_of_mem_zeros _) fun c hc =>
    Nat.isDigit_of_mem_toDigits (by decide) (by decide) hc, ?_⟩
  rw [ofDigitChars_zeros_append, Nat.ofDigitChars_ten_toDigits]

/-- The mark of an exponent, its sign and its digits. -/
theorem writesExponent_padZeros (width : ℕ) (e : ℤ) :
    WritesExponent ('e' :: (if e < 0 then '-' else '+') :: padZeros width (decimalDigits e.natAbs))
      e := by
  obtain ⟨hne, hdigits, hvalue⟩ := padZeros_decimalDigits width e.natAbs
  split
  case isTrue he =>
    have hminus := WritesExponent.minus hne hdigits
    rwa [hvalue, show -(e.natAbs : ℤ) = e by omega] at hminus
  case isFalse he =>
    have hplus := WritesExponent.plus hne hdigits
    rwa [hvalue, show (e.natAbs : ℤ) = e by omega] at hplus

/-- Digits with an exponent write the number that they stand for. -/
theorem writesValue_scientific (hne : d.digits ≠ []) (hdigits : ∀ c ∈ d.digits, c.isDigit = true)
    (width : ℕ) : WritesValue (d.scientific width) d.value := by
  obtain ⟨ds, point⟩ := d
  simp only at hne hdigits
  have hlength : 0 < ds.length := List.length_pos_iff.mpr hne
  have hform : (Digits.mk ds point).scientific width = pointed (ds.take 1) (ds.drop 1)
      ++ 'e' :: (if point - 1 < 0 then '-' else '+')
        :: padZeros width (decimalDigits (point - 1).natAbs) := by
    rw [Digits.scientific, pointed]
    simp only
    cases ds.drop 1 <;> rfl
  have hexponent : point - 1 + ((1 : ℕ) : ℤ) - ds.length = point - ds.length := by omega
  have hbetween := writesValue_take_drop Nat.one_pos hlength hdigits
    (writesExponent_padZeros width (point - 1))
  rw [hform, Digits.value, ← hexponent]
  exact hbetween

/-- **What is written for a finite number**: a sign, and a text that writes a decimal number that
rounds to it. -/
theorem exists_toList_write (s : NumberStyle) (negative : Bool) (h : Representable m q) :
    ∃ body x, (s.write (.finite negative m q)).toList = (if negative then ['-'] else []) ++ body ∧
      WritesValue body x ∧ RoundsTo m q x := by
  obtain ⟨hne, hdigits⟩ := shortest_digits h
  have hsign : (if negative then "-" else "").toList = if negative then ['-'] else [] := by
    cases negative <;> rfl
  rw [NumberStyle.write, if_neg h.pos.ne', String.toList_append, String.toList_ofList, hsign]
  refine ⟨_, _, rfl, ?_, roundsTo_shortest h⟩
  simp only
  split
  · exact writesValue_positional hne hdigits
  · exact writesValue_scientific hne hdigits _

/-! ## Words of 64 bits -/

/-- A word is its sign, its field and its fraction. -/
theorem signedWord_fields {w : ℕ} (hw : w < 2 ^ 64) :
    signedWord (decide (w / power 2 63 % 2 = 1))
      (w / power 2 52 % power 2 11 * power 2 52 + w % power 2 52) = w := by
  rw [signedWord, power_eq_pow, power_eq_pow, power_eq_pow]
  by_cases hbit : w / 2 ^ 63 % 2 = 1
  · rw [decide_eq_true hbit, if_pos rfl]
    omega
  · rw [decide_eq_false hbit, if_neg (by simp)]
    omega

/-- A word, taken apart: an infinity, a zero, another finite number, or not a number. -/
theorem ofWord_cases {w : ℕ} (hw : w < 2 ^ 64) :
    (∃ s, Parts.ofWord w = .infinite s ∧ w = signedWord s infinityWord) ∨
      (∃ s, Parts.ofWord w = .finite s 0 (-1074) ∧ w = signedWord s 0) ∨
      (∃ s m q, Parts.ofWord w = .finite s m q ∧ Representable m q ∧ w = signedWord s (wordOf m q)) ∨
      (Parts.ofWord w = .notANumber ∧ w / power 2 52 % power 2 11 = 2047 ∧ w % power 2 52 ≠ 0) := by
  have hword := signedWord_fields hw
  have hfield : w / power 2 52 % power 2 11 < 2 ^ 11 := Nat.mod_lt _ (by decide)
  have hfraction : w % power 2 52 < 2 ^ 52 := Nat.mod_lt _ (by decide)
  rw [Parts.ofWord]
  generalize decide (w / power 2 63 % 2 = 1) = s at hword ⊢
  generalize w / power 2 52 % power 2 11 = field at hword hfield ⊢
  generalize w % power 2 52 = fraction at hword hfraction ⊢
  rw [power_eq_pow] at hword ⊢
  split
  case isTrue hlast =>
    subst hlast
    split
    case isTrue hzero =>
      refine Or.inl ⟨s, rfl, ?_⟩
      rw [← hword, hzero, infinityWord_eq, Nat.add_zero]
    case isFalse hzero => exact Or.inr (Or.inr (Or.inr ⟨rfl, rfl, hzero⟩))
  case isFalse hlast =>
    split
    case isTrue hfirst =>
      rw [hfirst, Nat.zero_mul, Nat.zero_add] at hword
      by_cases hzero : fraction = 0
      · rw [hzero] at hword ⊢
        exact Or.inr (Or.inl ⟨s, rfl, hword.symm⟩)
      · refine Or.inr (Or.inr (Or.inl ⟨s, fraction, -1074, rfl, ?_, ?_⟩))
        · exact ⟨Nat.pos_of_ne_zero hzero, by omega, le_rfl, by decide, Or.inr rfl⟩
        · rw [← hword, wordOf]
          norm_num
    case isFalse hfirst =>
      refine Or.inr (Or.inr (Or.inl ⟨s, 2 ^ 52 + fraction, (field : ℤ) - 1075, rfl, ?_, ?_⟩))
      · exact ⟨by omega, by omega, by omega, by omega, Or.inl (Nat.le_add_right _ _)⟩
      · have hsum : field * 2 ^ 52 + fraction = wordOf (2 ^ 52 + fraction) ((field : ℤ) - 1075) := by
          rw [wordOf]
          omega
        rw [← hword, hsum]

/-- There is one word that is not a number. -/
theorem eq_notANumber {x : Float} (hfield : x.toBits.toNat / power 2 52 % power 2 11 = 2047)
    (hfraction : x.toBits.toNat % power 2 52 ≠ 0) : x = notANumber := by
  have hexponent : @unpackExponent Format.binary64 x.toBits.toBitVec = -1#11 := by
    apply BitVec.eq_of_toNat_eq
    rw [unpackExponent_def, BitVec.extractLsb'_toNat, Nat.shiftRight_eq_div_pow]
    exact hfield
  have hmantissa : @unpackMantissa Format.binary64 x.toBits.toBitVec ≠ 0#52 := by
    intro hzero
    have hnat := congrArg BitVec.toNat hzero
    rw [unpackMantissa_def, BitVec.extractLsb'_toNat, Nat.shiftRight_zero] at hnat
    exact hfraction hnat
  -- of all the words in question a number keeps the first one only
  have hword : x.toBits = 0x7FF8000000000000 := by
    apply UInt64.eq_of_toBitVec_eq
    exact (x.toModel.valid.eq_packedNaN hexponent hmantissa).trans (by decide)
  rw [← Float.ofBits_toBits x, hword]
  rfl

/-! ## Reading back -/

/-- The first power of two that is too large is rounded to infinity. -/
theorem nearestWord_infinity : nearestWord (power 2 1024) 1 = infinityWord := by
  decide +kernel

/-- An infinite number is written as a word, -/
theorem toList_write_infinite (negative : Bool) :
    (standard.write (.infinite negative)).toList
      = (if negative then ['-'] else []) ++ ['i', 'n', 'f'] := by
  cases negative <;> decide

/-- The words for the infinities are read as them. -/
theorem readFloat_infinite (negative : Bool) :
    readFloat (standard.write (.infinite negative)).toList
      = some (Float.ofBits (UInt64.ofNat (signedWord negative infinityWord))) := by
  have hmarks : dropLowLines digit? false
      (trimBy isSpace ((if negative then ['-'] else []) ++ ['i', 'n', 'f']))
        = some ((if negative then ['-'] else []) ++ ['i', 'n', 'f']) := by
    cases negative <;> decide +kernel
  have hsplit : splitSign ((if negative then ['-'] else []) ++ ['i', 'n', 'f'])
      = (negative, ['i', 'n', 'f']) := by
    cases negative <;> rfl
  rw [toList_write_infinite, readFloat, hmarks, Option.bind_some, readPlain, hsplit]
  simp only
  rw [if_pos (by decide), infinity, nearest_eq, nearestWord_infinity]

/-- and so is what is no number. -/
theorem toList_write_notANumber : (standard.write .notANumber).toList = ['n', 'a', 'n'] := by
  decide

/-- The word for no number is read as it. -/
theorem readFloat_notANumber :
    readFloat (standard.write .notANumber).toList = some notANumber := by
  have hmarks : dropLowLines digit? false (trimBy isSpace ['n', 'a', 'n'])
      = some ['n', 'a', 'n'] := by
    decide +kernel
  have hsplit : splitSign ['n', 'a', 'n'] = (false, ['n', 'a', 'n']) := rfl
  rw [toList_write_notANumber, readFloat, hmarks, Option.bind_some, readPlain, hsplit]
  simp only
  rw [if_neg (by decide), if_pos (by decide)]

/-- Zero is written with its sign. -/
theorem toList_write_zero (negative : Bool) :
    (standard.write (.finite negative 0 (-1074))).toList
      = (if negative then ['-'] else []) ++ ['0', '.', '0'] := by
  cases negative <;> decide +kernel

theorem writesDecimal_zero : WritesDecimal ['0', '.', '0'] 0 (0 - 1) :=
  @WritesDecimal.intro ['0'] ['0'] [] 0 (by decide) (isDigit_of_mem_zeros 1) (isDigit_of_mem_zeros 1)
    .none

/-- A zero is written with one place behind the point, and is read with its sign. -/
theorem readFloat_zero (negative : Bool) :
    readFloat (standard.write (.finite negative 0 (-1074))).toList
      = some (Float.ofBits (UInt64.ofNat (signedWord negative 0))) := by
  rw [toList_write_zero, readFloat_of_writes writesDecimal_zero, nearestDecimal, if_pos rfl,
    nearest_eq, nearestWord, if_pos rfl]

/-- The letters of the words for infinity and for no number. -/
def wordLetters : List Char :=
  ['n', 'a', 'i', 'f']

/-- A number is written with digits and the marks around them, or with the letters of a word. -/
theorem mem_floatText {y : Float} {c : Char} (h : c ∈ (floatText y).toList) :
    IsMark c ∨ c ∈ wordLetters := by
  have hsigned {body : List Char} {s : Bool} (hbody : ∀ c ∈ body, IsMark c ∨ c ∈ wordLetters)
      (hc : c ∈ (if s then ['-'] else []) ++ body) : IsMark c ∨ c ∈ wordLetters := by
    rcases List.mem_append.mp hc with hc | hc
    · cases s
      · exact absurd hc List.not_mem_nil
      · exact Or.inl (Or.inr (Or.inr (Or.inr (Or.inl (List.mem_singleton.mp hc)))))
    · exact hbody c hc
  rw [floatText, parts] at h
  rcases ofWord_cases (UInt64.toNat_lt y.toBits) with
    ⟨s, hparts, -⟩ | ⟨s, hparts, -⟩ | ⟨s, m, q, hparts, hm, -⟩ | ⟨hparts, -, -⟩
  · rw [hparts, toList_write_infinite] at h
    have hletters : ∀ c ∈ ['i', 'n', 'f'], c ∈ wordLetters := by simp [wordLetters]
    exact hsigned (fun c hc => Or.inr (hletters c hc)) h
  · rw [hparts, toList_write_zero] at h
    exact hsigned (fun c hc => Or.inl (isMark_of_writes writesDecimal_zero c hc)) h
  · obtain ⟨body, x', htext, ⟨n, e, hwrites, -⟩, -⟩ := exists_toList_write standard s hm
    rw [hparts, htext] at h
    exact hsigned (fun c hc => Or.inl (isMark_of_writes hwrites c hc)) h
  · rw [hparts, toList_write_notANumber] at h
    have hletters : ∀ c ∈ ['n', 'a', 'n'], c ∈ wordLetters := by simp [wordLetters]
    exact Or.inr (hletters c h)

/-- **What is written reads back as the same number**, whatever number it is. -/
theorem floatOf_floatText (x : Float) : floatOf (floatText x) = some x := by
  have hself : Float.ofBits (UInt64.ofNat x.toBits.toNat) = x := by
    rw [UInt64.ofNat_toNat, Float.ofBits_toBits]
  rw [floatOf, floatText, parts]
  rcases ofWord_cases (UInt64.toNat_lt x.toBits) with
    ⟨s, hparts, hw⟩ | ⟨s, hparts, hw⟩ | ⟨s, m, q, hparts, hm, hw⟩ | ⟨hparts, hfield, hfraction⟩
  · rw [hparts, readFloat_infinite, ← hw, hself]
  · rw [hparts, readFloat_zero, ← hw, hself]
  · obtain ⟨body, x', htext, ⟨n, e, hwrites, hvalue⟩, hrounds⟩ := exists_toList_write standard s hm
    rw [← hvalue] at hrounds
    rw [hparts, htext, readFloat_of_writes hwrites, nearestDecimal_of_roundsTo s hm hrounds, ← hw,
      hself]
  · rw [hparts, readFloat_notANumber, eq_notANumber hfield hfraction]

end Lightpath.Numeral
