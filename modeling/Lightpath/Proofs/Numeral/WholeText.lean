import Lightpath.Numeral.Whole
import Mathlib.Algebra.Group.Int.Defs
import Mathlib.Algebra.Group.Nat.Defs

/-!
# The text of a whole number

A whole number is written as its digits with a minus sign in front where it is negative. Main
statement: what is written reads back as the number (`readWhole_toString`), as long as the digits
are not too many to be read.
-/

namespace Lightpath.Numeral

open Lightpath.Text

/-! ## Characters -/

/-- The digits of a number behind its sign. -/
theorem toList_toString (n : Int) :
    (toString n).toList = (if 0 ≤ n then [] else ['-']) ++ Nat.toDigits 10 n.natAbs := by
  rw [Int.toString_eq_repr, Int.repr_eq_if]
  by_cases h : 0 ≤ n
  · rw [if_pos h, if_pos h, Nat.toList_repr, List.nil_append]
    congr 1
    omega
  · rw [if_neg h, if_neg h, String.toList_append, Nat.toList_repr]
    congr 2
    omega

/-- A number is written with digits and a minus sign. -/
theorem mem_toString {n : Int} {c : Char} (h : c ∈ (toString n).toList) :
    c = '-' ∨ c.isDigit = true := by
  rw [toList_toString, List.mem_append] at h
  rcases h with h | h
  · split at h
    · exact absurd h (List.not_mem_nil)
    · exact Or.inl (List.mem_singleton.mp h)
  · exact Or.inr (Nat.isDigit_of_mem_toDigits (by decide) (by decide) h)

/-- A number has a digit at least. -/
theorem toString_ne_nil (n : Int) : (toString n).toList ≠ [] := by
  rw [toList_toString]
  exact fun h => Nat.toDigits_ne_nil (List.append_eq_nil_iff.mp h).2

/-! ## Reading digits -/

theorem latinDigit?_of_isDigit {c : Char} (h : c.isDigit = true) :
    latinDigit? c = some (c.toNat - 48) := by
  unfold latinDigit?
  exact if_pos (Char.isDigit_iff_toNat.mp h)

/-- A digit is a decimal digit with the value that its character stands for. -/
theorem digit?_of_isDigit {c : Char} (h : c.isDigit = true) : digit? c = some (c.toNat - 48) :=
  digit?_of_latin (latinDigit?_of_isDigit h)

/-- A run of digits is read digit by digit. -/
theorem digitsFrom_of_isDigit {cs : List Char} (h : ∀ c ∈ cs, c.isDigit = true) :
    digitsFrom digit? true cs = some (cs.map fun c => c.toNat - 48) := by
  induction cs with
  | nil => rfl
  | cons c cs ih =>
    have hc := h c List.mem_cons_self
    have hne : c ≠ '_' := by
      rintro rfl
      exact absurd hc (by decide)
    rw [digitsFrom, if_neg hne, digit?_of_isDigit hc]
    simp only
    rw [ih fun d hd => h d (List.mem_cons_of_mem c hd)]
    rfl

/-- Digits that are read stand for the number that they write. -/
theorem ofDigits_map_eq (cs : List Char) :
    ofDigits (cs.map fun c => c.toNat - 48) = Nat.ofDigitChars 10 cs 0 := by
  rw [ofDigits, List.foldl_map, Nat.ofDigitChars_eq_foldl]
  rfl

/-- The digits of a number are read as its digits. -/
theorem digits?_toDigits (n : Nat) :
    digits? (Nat.toDigits 10 n) = some ((Nat.toDigits 10 n).map fun c => c.toNat - 48) := by
  have hdigit : ∀ c ∈ Nat.toDigits 10 n, c.isDigit = true := fun c hc =>
    Nat.isDigit_of_mem_toDigits (by decide) (by decide) hc
  rw [digits?, ← digitsFrom_of_isDigit hdigit]
  -- with a digit in front it makes no difference whether one stood before it
  cases hds : Nat.toDigits 10 n with
  | nil => exact absurd hds Nat.toDigits_ne_nil
  | cons c cs =>
    have hc : c ≠ '_' := by
      rintro rfl
      exact absurd (hdigit '_' (by rw [hds]; exact List.mem_cons_self)) (by decide)
    rw [digitsFrom, digitsFrom, if_neg hc, if_neg hc]

/-! ## Reading numbers -/

theorem isSpace_of_isDigit {c : Char} (h : c = '-' ∨ c.isDigit = true) : isSpace c = false := by
  rcases h with rfl | h
  · decide
  · have hc := Char.isDigit_iff_toNat.mp h
    have h0 : '0'.toNat = 48 := rfl
    have h9 : '9'.toNat = 57 := rfl
    simp only [isSpace, Bool.or_eq_false_iff, Bool.and_eq_false_iff, decide_eq_false_iff_not,
      beq_eq_false_iff_ne]
    omega

/-- No sign is a digit. -/
theorem splitSign_of_isDigit {c : Char} (h : c.isDigit = true) (cs : List Char) :
    splitSign (c :: cs) = (false, c :: cs) := by
  have hminus : c ≠ '-' := by
    rintro rfl
    exact absurd h (by decide)
  have hplus : c ≠ '+' := by
    rintro rfl
    exact absurd h (by decide)
  simp [splitSign, hminus, hplus]

/-- The sign is read off the text of a number. -/
theorem splitSign_toString (n : Int) :
    splitSign (toString n).toList = (decide (n < 0), Nat.toDigits 10 n.natAbs) := by
  rw [toList_toString]
  by_cases h : 0 ≤ n
  · rw [if_pos h, List.nil_append, decide_eq_false (by omega)]
    cases hds : Nat.toDigits 10 n.natAbs with
    | nil => rfl
    | cons c cs =>
      have hc : c.isDigit = true := Nat.isDigit_of_mem_toDigits (b := 10) (n := n.natAbs)
        (by decide) (by decide) (by rw [hds]; exact List.mem_cons_self)
      exact splitSign_of_isDigit hc cs
  · rw [if_neg h, decide_eq_true (by omega)]
    rfl

/-! ## Different numbers -/

/-- Different numbers have different digits. -/
theorem toDigits_injective {m n : Nat} (h : Nat.toDigits 10 m = Nat.toDigits 10 n) : m = n := by
  rw [← Nat.ofDigitChars_ten_toDigits (n := m), h, Nat.ofDigitChars_ten_toDigits]

theorem toString_nat_injective {m n : Nat} (h : (toString m).toList = (toString n).toList) :
    m = n := by
  rw [Nat.toString_eq_repr, Nat.toString_eq_repr, Nat.toList_repr, Nat.toList_repr] at h
  exact toDigits_injective h

/-- Numbers of one text are one number. -/
theorem toString_injective {m n : Int} (h : (toString m).toList = (toString n).toList) : m = n := by
  have hsplit := congrArg splitSign h
  rw [splitSign_toString, splitSign_toString] at hsplit
  obtain ⟨hsign, hdigits⟩ := Prod.mk.inj hsplit
  have habs := toDigits_injective hdigits
  by_cases hm : m < 0
  · have hn : n < 0 := by
      rw [decide_eq_true hm] at hsign
      exact of_decide_eq_true hsign.symm
    omega
  · have hn : ¬n < 0 := by
      rw [decide_eq_false hm] at hsign
      exact of_decide_eq_false hsign.symm
    omega

/-! ## Signs -/

theorem natAbs_signed (negative : Bool) (n : Nat) : (signed negative n).natAbs = n := by
  cases negative <;> simp [signed]

theorem signed_natAbs (n : Int) : signed (decide (n < 0)) n.natAbs = n := by
  rw [signed]
  by_cases hn : n < 0
  · rw [decide_eq_true hn, if_pos rfl]
    omega
  · rw [decide_eq_false hn, if_neg (by simp)]
    omega

/-! ## Reading back -/

/-- The numbers that can be written are those of few enough digits. -/
theorem writable_iff {n : Int} : Writable n ↔ n.natAbs < 10 ^ maxDigits :=
  Nat.length_toDigits_le_iff (by decide) (by decide)

/-- The first power of ten with more digits cannot be written. -/
theorem not_writable_ten_pow : ¬ Writable (10 ^ maxDigits) := by
  intro h
  have hlt := writable_iff.mp h
  have hten : (10 : Int).natAbs = 10 := rfl
  rw [Int.natAbs_pow, hten] at hlt
  exact Nat.lt_irrefl _ hlt

/-- **What is written reads back**, unless it has more digits than are read. -/
theorem readWhole_toString (n : Int) (h : Writable n) :
    readWhole (toString n).toList = some n := by
  have hspace : ∀ c ∈ (toString n).toList, isSpace c = false := fun c hc =>
    isSpace_of_isDigit (mem_toString hc)
  have hlen : (Nat.toDigits 10 n.natAbs).length ≤ maxDigits := h
  rw [readWhole, trimBy_eq_self (fun c hc => hspace c (List.mem_of_mem_head? hc))
    (fun c hc => hspace c (List.mem_of_mem_getLast? hc)), splitSign_toString]
  simp only
  rw [digits?_toDigits]
  simp only [List.length_map]
  rw [if_pos hlen, ofDigits_map_eq, Nat.ofDigitChars_ten_toDigits, signed_natAbs]

/-! ## Size -/

theorem lt_ten_of_digitsFrom {follows : Bool} {cs : List Char} {ds : List Nat}
    (h : digitsFrom digit? follows cs = some ds) : ∀ d ∈ ds, d < 10 := by
  induction cs generalizing follows ds with
  | nil =>
    cases follows with
    | false => exact absurd h (by simp [digitsFrom])
    | true =>
      rw [← Option.some.inj h]
      exact fun d hd => absurd hd List.not_mem_nil
  | cons c cs ih =>
    rw [digitsFrom] at h
    split at h
    · cases follows with
      | false => exact absurd h (by simp)
      | true => exact ih h
    · cases hc : digit? c with
      | none =>
        rw [hc] at h
        exact absurd h (by simp)
      | some d =>
        rw [hc] at h
        obtain ⟨rest, hrest, rfl⟩ := Option.map_eq_some_iff.mp h
        intro d' hd'
        rcases List.mem_cons.mp hd' with rfl | hd'
        · exact digit?_lt hc
        · exact ih hrest d' hd'

/-- Some digits behind others make a number of as many digits. -/
theorem foldl_digits_lt {ds : List Nat} (h : ∀ d ∈ ds, d < 10) (n : Nat) :
    ds.foldl (fun n d => 10 * n + d) n < (n + 1) * 10 ^ ds.length := by
  induction ds generalizing n with
  | nil => simp
  | cons d ds ih =>
    have hd : d < 10 := h d List.mem_cons_self
    have hrest := ih (fun d' hd' => h d' (List.mem_cons_of_mem d hd')) (10 * n + d)
    have hle : (10 * n + d + 1) * 10 ^ ds.length ≤ (n + 1) * 10 * 10 ^ ds.length :=
      Nat.mul_le_mul_right _ (by omega)
    rw [List.foldl_cons, List.length_cons, Nat.pow_succ']
    rw [Nat.mul_assoc] at hle
    exact Nat.lt_of_lt_of_le hrest hle

/-- So many digits make a number below the power of ten with so many zeros. -/
theorem ofDigits_lt {ds : List Nat} (h : ∀ d ∈ ds, d < 10) (hlength : ds.length ≤ maxDigits) :
    ofDigits ds < 10 ^ maxDigits := by
  have hlt := foldl_digits_lt h 0
  have hpow : 10 ^ ds.length ≤ 10 ^ maxDigits := Nat.pow_le_pow_right (by decide) hlength
  rw [ofDigits]
  omega

/-- A number that is read has no more digits than are read. -/
theorem natAbs_lt_of_readWhole {cs : List Char} {n : Int} (h : readWhole cs = some n) :
    n.natAbs < 10 ^ maxDigits := by
  rw [readWhole] at h
  simp only at h
  cases hds : digits? (splitSign (trimBy isSpace cs)).2 with
  | none =>
    rw [hds] at h
    exact absurd h (by simp)
  | some ds =>
    rw [hds] at h
    simp only at h
    split at h
    case isFalse => exact absurd h (by simp)
    case isTrue hlength =>
      rw [← Option.some.inj h, natAbs_signed]
      exact ofDigits_lt (lt_ten_of_digitsFrom hds) hlength

end Lightpath.Numeral
