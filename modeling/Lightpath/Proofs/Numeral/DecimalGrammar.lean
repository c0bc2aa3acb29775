import Lightpath.Numeral.Reading
import Lightpath.Proofs.Numeral.DecimalText

/-!
# Decimal numbers with an exponent

The texts that a floating-point number is written with: digits around a point, and an exponent with a
sign where the number is very large or very small. Main statement: such a text is read as the number
nearest to the decimal number that it writes (`readFloat_of_writes`).
-/

namespace Lightpath.Numeral

open Lightpath.Text
open Decimal (pointed)

variable {whole fraction tail cs ds : List Char} {m : Nat} {e : Int}

/-! ## Grammar -/

/-- What stands behind the digits: nothing, or an exponent with its sign. -/
inductive WritesExponent : List Char → Int → Prop
  | none : WritesExponent [] 0
  | plus {ds : List Char} (hne : ds ≠ []) (hds : ∀ c ∈ ds, c.isDigit = true) :
      WritesExponent ('e' :: '+' :: ds) (Nat.ofDigitChars 10 ds 0)
  | minus {ds : List Char} (hne : ds ≠ []) (hds : ∀ c ∈ ds, c.isDigit = true) :
      WritesExponent ('e' :: '-' :: ds) (-(Nat.ofDigitChars 10 ds 0))

/-- **A text writes the decimal number `m * 10 ^ e`.** -/
inductive WritesDecimal : List Char → Nat → Int → Prop
  | intro {whole fraction tail : List Char} {e : Int} (hne : whole ≠ [])
      (hwhole : ∀ c ∈ whole, c.isDigit = true) (hfraction : ∀ c ∈ fraction, c.isDigit = true)
      (htail : WritesExponent tail e) :
      WritesDecimal (pointed whole fraction ++ tail) (Nat.ofDigitChars 10 (whole ++ fraction) 0)
        (e - fraction.length)

/-! ## Characters -/

/-- A character of a number: a digit, a sign, a point or the mark of an exponent. -/
def IsMark (c : Char) : Prop :=
  c = '.' ∨ c = 'e' ∨ c = '+' ∨ c = '-' ∨ c.isDigit = true

/-- An exponent is written with marks only, -/
theorem isMark_of_writesExponent (h : WritesExponent tail e) : ∀ c ∈ tail, IsMark c := by
  intro c hc
  cases h with
  | none => exact absurd hc List.not_mem_nil
  | plus hne hds =>
    rcases List.mem_cons.mp hc with rfl | hc
    · exact Or.inr (Or.inl rfl)
    · rcases List.mem_cons.mp hc with rfl | hc
      · exact Or.inr (Or.inr (Or.inl rfl))
      · exact Or.inr (Or.inr (Or.inr (Or.inr (hds c hc))))
  | minus hne hds =>
    rcases List.mem_cons.mp hc with rfl | hc
    · exact Or.inr (Or.inl rfl)
    · rcases List.mem_cons.mp hc with rfl | hc
      · exact Or.inr (Or.inr (Or.inr (Or.inl rfl)))
      · exact Or.inr (Or.inr (Or.inr (Or.inr (hds c hc))))

/-- and so is a number. -/
theorem isMark_of_writes (h : WritesDecimal cs m e) : ∀ c ∈ cs, IsMark c := by
  obtain ⟨hne, hwhole, hfraction, htail⟩ := h
  intro c hc
  rcases List.mem_append.mp hc with hc | hc
  · rcases Decimal.mem_pointed hwhole hfraction hc with rfl | hdigit
    · exact Or.inl rfl
    · exact Or.inr (Or.inr (Or.inr (Or.inr hdigit)))
  · exact isMark_of_writesExponent htail c hc

/-- A mark is no white space. -/
theorem IsMark.isSpace {c : Char} (h : IsMark c) : isSpace c = false := by
  rcases h with rfl | rfl | rfl | h
  · decide
  · decide
  · decide
  · exact isSpace_of_isDigit h

theorem IsMark.ne_lowLine {c : Char} (h : IsMark c) : c ≠ '_' := by
  rcases h with rfl | rfl | rfl | rfl | h
  · decide
  · decide
  · decide
  · decide
  · rintro rfl
    exact absurd h (by decide)

/-- A number starts with a digit. -/
theorem exists_cons_of_writes (h : WritesDecimal cs m e) :
    ∃ c rest, cs = c :: rest ∧ c.isDigit = true := by
  obtain ⟨hne, hwhole, -, -⟩ := h
  obtain ⟨c, digits, rfl⟩ := List.exists_cons_of_ne_nil hne
  exact ⟨c, _, rfl, hwhole c List.mem_cons_self⟩

/-! ## Reading -/

/-- The digits up to another character. -/
theorem spanDigits_append {digit : Char → Option Nat} (h : ∀ c ∈ ds, digit c = some (c.toNat - 48))
    (hstop : ∀ c ∈ cs.head?, digit c = none) :
    spanDigits digit (ds ++ cs) = (ds.map fun c => c.toNat - 48, cs) := by
  induction ds with
  | nil =>
    cases cs with
    | nil => rfl
    | cons c cs =>
      rw [List.nil_append, spanDigits, hstop c rfl]
      rfl
  | cons d ds ih =>
    rw [List.cons_append, spanDigits, h d List.mem_cons_self]
    simp only
    rw [ih fun c hc => h c (List.mem_cons_of_mem d hc)]
    rfl

theorem spanDigits_of_isDigit (h : ∀ c ∈ ds, c.isDigit = true) :
    spanDigits digit? ds = (ds.map fun c => c.toNat - 48, []) := by
  have hspan := spanDigits_append (fun c hc => digit?_of_isDigit (h c hc))
    (by simp : ∀ c ∈ ([] : List Char).head?, _)
  rwa [List.append_nil] at hspan

/-- An exponent is read as what it writes. -/
theorem exponentOf_of_writes (h : WritesExponent tail e) : exponentOf digit? tail = some e := by
  cases h with
  | none => rfl
  | plus hne hds =>
    obtain ⟨d, ds, rfl⟩ := List.exists_cons_of_ne_nil hne
    rw [exponentOf, if_pos (Or.inl rfl)]
    simp only [splitSign, spanDigits_of_isDigit hds, List.map_cons]
    rw [← List.map_cons (f := fun c : Char => c.toNat - 48), ofDigits_map_eq]
    rfl
  | minus hne hds =>
    obtain ⟨d, ds, rfl⟩ := List.exists_cons_of_ne_nil hne
    rw [exponentOf, if_pos (Or.inl rfl)]
    simp only [splitSign, spanDigits_of_isDigit hds, List.map_cons]
    rw [← List.map_cons (f := fun c : Char => c.toNat - 48), ofDigits_map_eq]
    rfl

/-- Where the digits end, an exponent starts or the text ends. -/
theorem head?_of_writesExponent (h : WritesExponent tail e) : ∀ c ∈ tail.head?, c = 'e' := by
  cases h with
  | none => exact fun c hc => absurd hc (by simp)
  | plus => exact fun c hc => (Option.some.inj hc).symm
  | minus => exact fun c hc => (Option.some.inj hc).symm

/-- A text that writes a number is read as its digits and its exponent. -/
theorem literal?_of_writes (h : WritesDecimal cs m e) :
    ∃ l, literal? digit? cs = some l ∧ ofDigits (l.whole ++ l.fraction) = m ∧
      l.exponent - l.fraction.length = e := by
  obtain ⟨hne, hwhole, hfraction, htail⟩ := h
  rename_i whole fraction tail e
  have hend : ∀ c ∈ tail.head?, digit? c = none := fun c hc => by
    rw [head?_of_writesExponent htail c hc]
    decide
  have hdigits {ds : List Char} (h : ∀ c ∈ ds, c.isDigit = true) :
      ∀ c ∈ ds, digit? c = some (c.toNat - 48) := fun c hc => digit?_of_isDigit (h c hc)
  refine ⟨⟨whole.map fun c => c.toNat - 48, fraction.map fun c => c.toNat - 48, e⟩, ?_, ?_, ?_⟩
  · have hfirst : (whole.map fun c => c.toNat - 48).isEmpty = false := by
      rw [List.isEmpty_eq_false_iff, ne_eq, List.map_eq_nil_iff]
      exact hne
    by_cases hnil : fraction = []
    · subst hnil
      have hexponent := exponentOf_of_writes htail
      rw [literal?, pointed, if_pos rfl, List.append_nil, spanDigits_append (hdigits hwhole) hend]
      cases htail <;> simp [hfirst, hexponent]
    · have hstop : ∀ c ∈ ('.' :: (fraction ++ tail)).head?, digit? c = none := fun c hc => by
        rw [← Option.some.inj hc]
        decide
      rw [literal?, pointed, if_neg hnil, List.append_assoc, List.cons_append,
        spanDigits_append (hdigits hwhole) hstop]
      simp only [spanDigits_append (hdigits hfraction) hend, hfirst, Bool.false_and, Bool.false_eq_true,
        if_false, exponentOf_of_writes htail, Option.map_some]
  · rw [← List.map_append, ofDigits_map_eq]
  · rw [List.length_map]

/-- A text without low lines keeps all its characters. -/
theorem dropLowLines_of_forall (h : ∀ c ∈ cs, c ≠ '_') (digit : Char → Option Nat) (follows : Bool) :
    dropLowLines digit follows cs = some cs := by
  induction cs generalizing follows with
  | nil => rfl
  | cons c cs ih =>
    rw [dropLowLines.eq_def]
    simp only
    rw [if_neg (h c List.mem_cons_self), ih fun d hd => h d (List.mem_cons_of_mem c hd)]
    rfl

/-- No word stands where a digit does. -/
theorem lowered_ne_of_isDigit {c : Char} (h : c.isDigit = true) {letter : Char}
    (hletter : letter.isDigit = false) (rest word : List Char) :
    (lowered (c :: rest) == letter :: word) = false := by
  rw [lowered, List.map_cons, Decimal.toLower_of_isDigit h, beq_eq_false_iff_ne]
  intro heq
  rw [(List.cons.inj heq).1, hletter] at h
  exact absurd h (by simp)

/-- **A text that writes a decimal number is read as the number nearest to it**, with a minus sign in
front or without. -/
theorem readFloat_of_writes (h : WritesDecimal cs m e) (negative : Bool) :
    readFloat ((if negative then ['-'] else []) ++ cs) = some (nearestDecimal negative m e) := by
  obtain ⟨c, rest, hcs, hc⟩ := exists_cons_of_writes h
  have hmarks : ∀ x ∈ (if negative then ['-'] else []) ++ cs, IsMark x := by
    intro x hx
    rcases List.mem_append.mp hx with hx | hx
    · cases negative
      · exact absurd hx List.not_mem_nil
      · exact Or.inr (Or.inr (Or.inr (Or.inl (List.mem_singleton.mp hx))))
    · exact isMark_of_writes h x hx
  have hsplit : splitSign ((if negative then ['-'] else []) ++ cs) = (negative, cs) := by
    cases negative
    · rw [hcs]
      exact splitSign_of_isDigit hc rest
    · rfl
  have hinfinity : isInfinityWord cs = false := by
    rw [hcs, isInfinityWord]
    simp only [lowered_ne_of_isDigit hc (by decide : 'i'.isDigit = false), Bool.or_self]
  have hnan : isNanWord cs = false := by
    rw [hcs, isNanWord, lowered_ne_of_isDigit hc (by decide)]
  obtain ⟨l, hl, hdigits, hexponent⟩ := literal?_of_writes h
  rw [readFloat, trimBy_of_forall fun x hx => (hmarks x hx).isSpace,
    dropLowLines_of_forall fun x hx => (hmarks x hx).ne_lowLine, Option.bind_some, readPlain, hsplit]
  simp only [hinfinity, hnan, Bool.false_eq_true, if_false, hl, Option.map_some]
  rw [Literal.toFloat, hdigits, hexponent]

end Lightpath.Numeral
