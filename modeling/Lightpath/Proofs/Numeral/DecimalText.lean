import Lightpath.Proofs.Numeral.ExactDecimal
import Lightpath.Proofs.Text.Trim

/-!
# The text of a decimal number

A decimal number without an exponent is written as its digits around a point. Main statement: what
is written reads back as the number, with all its places (`read_plainText`).
-/

namespace Lightpath.Numeral

open Lightpath.Text

namespace Decimal

/-! ## Digits around a point -/

/-- Digits around a point, which is left out where no digit follows it. -/
def pointed (whole fraction : List Char) : List Char :=
  whole ++ if fraction = [] then [] else '.' :: fraction

variable {whole fraction cs rest : List Char} {n : Bool} {c : Nat} {e : Int}

theorem mem_pointed (hwhole : ∀ x ∈ whole, x.isDigit = true)
    (hfraction : ∀ x ∈ fraction, x.isDigit = true) {x : Char} (hx : x ∈ pointed whole fraction) :
    x = '.' ∨ x.isDigit = true := by
  rw [pointed, List.mem_append] at hx
  rcases hx with hx | hx
  · exact Or.inr (hwhole x hx)
  · split at hx
    · exact absurd hx List.not_mem_nil
    · rcases List.mem_cons.mp hx with rfl | hx
      · exact Or.inl rfl
      · exact Or.inr (hfraction x hx)

/-- A number without an exponent is written with its places behind the point, and with one digit at
least before it. -/
theorem exists_toList_plainText (n : Bool) (c : Nat) (he : e ≤ 0) :
    ∃ whole fraction, whole ≠ [] ∧ (∀ x ∈ whole, x.isDigit = true) ∧
      (∀ x ∈ fraction, x.isDigit = true) ∧ fraction.length = (-e).toNat ∧
      Nat.ofDigitChars 10 (whole ++ fraction) 0 = c ∧
      (plainText (.finite n c e)).toList = (if n then ['-'] else []) ++ pointed whole fraction := by
  have hdigits : ∀ x ∈ Nat.toDigits 10 c, x.isDigit = true := fun x hx =>
    Nat.isDigit_of_mem_toDigits (by decide) (by decide) hx
  have hsign : (if n then "-" else "").toList = if n then ['-'] else [] := by
    cases n <;> rfl
  rw [plainText, String.toList_append, String.toList_ofList, hsign, Nat.toString_eq_repr,
    Nat.toList_repr]
  simp only
  generalize hk : (-e).toNat = k
  by_cases hzero : e = 0
  · obtain rfl : k = 0 := by omega
    refine ⟨Nat.toDigits 10 c, [], Nat.toDigits_ne_nil, hdigits, by simp, rfl, ?_, ?_⟩
    · rw [List.append_nil, Nat.ofDigitChars_ten_toDigits]
    · rw [if_pos (show 0 ≤ e by omega), hzero, pointed, if_pos rfl]
      rfl
  · rw [if_neg (show ¬0 ≤ e by omega)]
    generalize hpadded :
      List.replicate (k + 1 - (Nat.toDigits 10 c).length) '0' ++ Nat.toDigits 10 c = padded
    have hall : ∀ x ∈ padded, x.isDigit = true := by
      intro x hx
      rw [← hpadded] at hx
      rcases List.mem_append.mp hx with hx | hx
      · rw [List.eq_of_mem_replicate hx]
        rfl
      · exact hdigits x hx
    have hlength : k + 1 ≤ padded.length := by
      rw [← hpadded, List.length_append, List.length_replicate]
      omega
    have hfraction : (padded.drop (padded.length - k)).length = k := by
      rw [List.length_drop]
      omega
    refine ⟨padded.take (padded.length - k), padded.drop (padded.length - k), ?_,
      fun x hx => hall x (List.mem_of_mem_take hx), fun x hx => hall x (List.mem_of_mem_drop hx),
      hfraction, ?_, ?_⟩
    · refine List.ne_nil_of_length_pos ?_
      rw [List.length_take]
      omega
    · rw [List.take_append_drop, ← hpadded, Nat.ofDigitChars_append,
        Nat.ofDigitChars_replicate_zero, Nat.mul_zero, Nat.ofDigitChars_ten_toDigits]
    · rw [pointed, if_neg (List.ne_nil_of_length_pos (by omega))]

/-! ## Reading the characters -/

/-- What a number is written with is left as it is. -/
theorem latinized_of_mem (h : ∀ x ∈ cs, x = '-' ∨ x = '.' ∨ x.isDigit = true) :
    latinized cs = cs := by
  have hfilter : cs.filter (· ≠ '_') = cs := by
    refine List.filter_eq_self.mpr fun x hx => ?_
    rcases h x hx with rfl | rfl | hdigit
    · decide
    · decide
    · refine decide_eq_true ?_
      rintro rfl
      exact absurd hdigit (by decide)
  rw [latinized, hfilter]
  refine (List.map_congr_left fun x hx => ?_).trans (List.map_id cs)
  rcases h x hx with rfl | rfl | hdigit
  · rfl
  · rfl
  · have hplace := Char.isDigit_iff_toNat.mp hdigit
    have hzero : '0'.toNat = 48 := rfl
    rw [digit?_of_isDigit hdigit]
    simp only [id]
    rw [Nat.add_sub_cancel' (by omega), Char.ofNat_toNat]

theorem isBlank_of_mem {x : Char} (h : x = '-' ∨ x = '.' ∨ x.isDigit = true) :
    isBlank x = false := by
  rcases h with rfl | rfl | hdigit
  · decide
  · decide
  · have hplace := Char.isDigit_iff_toNat.mp hdigit
    have hzero : '0'.toNat = 48 := rfl
    rw [isBlank, isSpace_of_isDigit (Or.inr hdigit), Bool.false_or, Bool.and_eq_false_iff,
      decide_eq_false_iff_not, decide_eq_false_iff_not]
    omega

/-- The digits up to another character. -/
theorem spanLatin_append (h : ∀ x ∈ cs, x.isDigit = true)
    (hrest : ∀ x ∈ rest.head?, latinDigit? x = none) :
    spanLatin (cs ++ rest) = (cs.map fun x => x.toNat - 48, rest) := by
  have hall : ∀ x ∈ cs, (latinDigit? x).isSome = true := fun x hx => by
    rw [latinDigit?_of_isDigit (h x hx)]
    rfl
  have hvalues : cs.filterMap latinDigit? = cs.map fun x => x.toNat - 48 := by
    rw [← List.filterMap_eq_map]
    exact List.filterMap_congr fun x hx => latinDigit?_of_isDigit (h x hx)
  have hstop : rest.takeWhile (fun x => (latinDigit? x).isSome) = [] ∧
      rest.dropWhile (fun x => (latinDigit? x).isSome) = rest := by
    cases rest with
    | nil => exact ⟨rfl, rfl⟩
    | cons x rest => simp [hrest x rfl]
  rw [spanLatin, List.takeWhile_append_of_pos hall, List.dropWhile_append_of_pos hall, hstop.1,
    hstop.2, List.append_nil, hvalues]

theorem toLower_of_isDigit {x : Char} (h : x.isDigit = true) : x.toLower = x := by
  have hplace := Char.isDigit_iff_toNat.mp h
  have hnine : '9'.toNat < 'A'.toNat := by decide
  unfold Char.toLower
  rw [dif_neg]
  rintro ⟨hupper, -⟩
  exact absurd (UInt32.le_iff_toNat_le.mp hupper)
    (Nat.not_le.mpr (Nat.lt_of_le_of_lt hplace.2 hnine))

/-- No word stands where a digit does. -/
theorem dropWord_of_isDigit {x : Char} {word : List Char} (h : x.isDigit = true)
    (hword : ∃ letter ∈ word.head?, letter.isDigit = false) : dropWord word (x :: cs) = none := by
  obtain ⟨letter, hhead, hletter⟩ := hword
  obtain ⟨letters, rfl⟩ := List.head?_eq_some_iff.mp hhead
  rw [dropWord, if_neg]
  intro heq
  rw [List.length_cons, List.take_succ_cons, List.map_cons, toLower_of_isDigit h] at heq
  rw [(List.cons.inj heq).1, hletter] at h
  exact absurd h (by simp)

/-- A number around a point is read with the places behind the point. -/
theorem readBody_pointed (hne : whole ≠ []) (hwhole : ∀ x ∈ whole, x.isDigit = true)
    (hfraction : ∀ x ∈ fraction, x.isDigit = true)
    (hvalue : Nat.ofDigitChars 10 (whole ++ fraction) 0 = c)
    (hhigh : digitCount c ≤ maxWrittenExponent)
    (hlow : -maxWrittenExponent ≤ -(fraction.length : Int)) :
    readBody n (pointed whole fraction) = some (.finite n c (-(fraction.length : Int))) := by
  obtain ⟨x, digits, hx⟩ := List.exists_cons_of_ne_nil hne
  have hhead : x.isDigit = true := hwhole x (by rw [hx]; exact List.mem_cons_self)
  have hdrop {word : List Char} (hword : ∃ letter ∈ word.head?, letter.isDigit = false) :
      dropWord word (pointed whole fraction) = none := by
    rw [pointed, hx]
    exact dropWord_of_isDigit hhead hword
  have hspan : spanLatin (pointed whole fraction)
      = (whole.map fun x => x.toNat - 48, if fraction = [] then [] else '.' :: fraction) := by
    refine spanLatin_append hwhole fun x hx => ?_
    split at hx
    · exact absurd hx (by simp)
    · obtain rfl : '.' = x := by simpa using hx
      rfl
  have hbehind : spanLatin fraction = (fraction.map fun x => x.toNat - 48, []) := by
    have hall := spanLatin_append hfraction (by simp : ∀ x ∈ ([] : List Char).head?, _)
    rwa [List.append_nil] at hall
  have hnumber : ofDigits ((whole.map fun x => x.toNat - 48) ++ fraction.map fun x => x.toNat - 48)
      = c := by
    rw [← List.map_append, ofDigits_map_eq, hvalue]
  have hrange : ¬(maxWrittenExponent < (0 : Int) - fraction.length + digitCount c - 1 ∨
      (0 : Int) - fraction.length < -(2 * maxWrittenExponent - 1)) := by
    rw [maxWrittenExponent] at hhigh hlow ⊢
    omega
  have hfirst : (whole.map fun x => x.toNat - 48).isEmpty = false := by
    rw [hx]
    rfl
  rw [readBody, hdrop ⟨'s', rfl, rfl⟩, hdrop ⟨'n', rfl, rfl⟩, hdrop ⟨'i', rfl, rfl⟩]
  simp only [hspan]
  by_cases hnil : fraction = []
  · subst hnil
    rw [List.map_nil] at hnumber
    rw [List.length_nil] at hrange
    simp only [if_true, hfirst, Bool.false_and, writtenExponent?, hnumber, List.length_nil]
    rw [if_neg (by simp), if_neg hrange, zero_sub]
  · rw [if_neg hnil]
    simp only [hbehind, hfirst, Bool.false_and, writtenExponent?, hnumber, List.length_map]
    rw [if_neg (by simp), if_neg hrange, zero_sub]

/-- **What is written reads back**, as long as its exponent is one that is read. -/
theorem read_plainText (n : Bool) {c : Nat} {e : Int} (he : e ≤ 0)
    (hhigh : digitCount c ≤ maxWrittenExponent) (hlow : -maxWrittenExponent ≤ e) :
    read (plainText (.finite n c e)).toList = .ok (.finite n c e) := by
  obtain ⟨whole, fraction, hne, hwhole, hfraction, hplaces, hvalue, htext⟩ :=
    exists_toList_plainText n c he
  have hmem : ∀ x ∈ (if n then ['-'] else []) ++ pointed whole fraction,
      x = '-' ∨ x = '.' ∨ x.isDigit = true := by
    intro x hx
    rcases List.mem_append.mp hx with hx | hx
    · cases n
      · exact absurd hx List.not_mem_nil
      · exact Or.inl (List.mem_singleton.mp hx)
    · exact Or.inr (mem_pointed hwhole hfraction hx)
  have hsplit : splitSign ((if n then ['-'] else []) ++ pointed whole fraction)
      = (n, pointed whole fraction) := by
    cases n
    · obtain ⟨x, digits, rfl⟩ := List.exists_cons_of_ne_nil hne
      exact splitSign_of_isDigit (hwhole x List.mem_cons_self) _
    · rfl
  have hexponent : -(fraction.length : Int) = e := by omega
  have hbody := readBody_pointed hne hwhole hfraction hvalue hhigh (by omega) (n := n)
  rw [read, htext, trim, trimBy_of_forall fun x hx => isBlank_of_mem (hmem x hx),
    latinized_of_mem hmem, hsplit]
  simp only
  rw [hbody, hexponent]

/-- The text of a number of few units and few places reads back. -/
theorem Exactly.read_plainText {places : Nat} {z : Int} {d : Decimal} (h : Exactly places z d)
    (hz : z.natAbs < 10 ^ precision) (hplaces : places ≤ 60) : read d.plainText.toList = .ok d := by
  cases d with
  | finite n c e =>
    have hlow := h.1
    have hdigits : digitCount c ≤ precision := digitCount_le_of_lt (by decide) (h.coefficient_lt hz)
    have hprecision : precision = 28 := rfl
    have hmax : maxWrittenExponent = 999999999999999999 := rfl
    exact Decimal.read_plainText n h.2.1 (by omega) (by omega)
  | infinite n => exact absurd h id
  | notANumber s => exact absurd h id

end Decimal

end Lightpath.Numeral
