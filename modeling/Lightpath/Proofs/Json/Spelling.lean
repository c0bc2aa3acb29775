import Lightpath.Json.Reader
import Lightpath.Proofs.Numeral.DecimalGrammar

/-!
# Texts that spell a value

Digits, a list with one item and an object with one field are read as what they spell, whatever stands
behind them. Main statement: a text that spells a value is read as this value (`parse_of_spells`).
-/

namespace Lightpath.Json

open Lightpath.Text Lightpath.Numeral

variable {text rest name digits : List Char} {v : Json}

/-- A text is read as its characters are, unless it begins with a byte order mark. -/
theorem parse_of_parseChars (h : parseChars text = .ok v) (hmark : text.head? ≠ some '\uFEFF') :
    parse (String.ofList text) = .ok v := by
  rw [parse, String.toList_ofList]
  simp only [h]

/-! ## Ends -/

/-- A value ends where the text ends, or at a comma or a closing bracket or brace. -/
def Ends (rest : List Char) : Prop :=
  ∀ c ∈ rest.head?, c = ',' ∨ c = ']' ∨ c = '}'

theorem ends_cons {c : Char} (h : c = ',' ∨ c = ']' ∨ c = '}') (rest : List Char) : Ends (c :: rest) := by
  intro d hd
  rwa [← Option.some.inj hd]

/-! ## Spelling -/

/-- **A text spells a value**: it begins with neither white space nor a closing bracket, and it is read as the
value up to what ends it. -/
structure Spells (text : List Char) (v : Json) : Prop where
  starts : ∀ rest, skipSpace (text ++ rest) = text ++ rest ∧ ∀ tail, text ++ rest ≠ ']' :: tail
  reads : ∀ rest fuel, Ends rest → text.length ≤ fuel → value fuel (text ++ rest) = .ok (v, rest)

/-- **A text that spells a value is read as this value.** -/
theorem parse_of_spells (h : Spells text v) (hmark : text.head? ≠ some '\uFEFF') :
    parse (String.ofList text) = .ok v := by
  have hends : Ends [] := fun c hc => absurd hc (by simp)
  obtain ⟨hspace, -⟩ := h.starts []
  have hread := h.reads [] (2 * text.length + 2) hends (by omega)
  rw [List.append_nil] at hspace hread
  refine parse_of_parseChars ?_ hmark
  rw [parseChars, hspace, hread]
  rfl

/-! ## Numbers -/

/-- No word begins with a digit. -/
theorem find?_words_of_isDigit {c : Char} (hc : c.isDigit = true) (cs : List Char) :
    words.find? (fun w => w.1.isPrefixOf (c :: cs)) = none := by
  have hwords : ∀ w ∈ words, w.1.head?.any (fun d => !d.isDigit) = true := by decide
  rw [List.find?_eq_none]
  intro w hw
  have hletter := hwords w hw
  cases hword : w.1 with
  | nil => exact absurd (hword ▸ hletter) (by simp)
  | cons d ds =>
    rw [hword] at hletter
    have hne : d ≠ c := by
      rintro rfl
      exact absurd hletter (by simp [hc])
    simp [List.isPrefixOf, hne]

/-- A run of digits without a zero in front is the whole part of a number. -/
theorem number_of_digits (hdigits : ∀ c ∈ digits, c.isDigit = true) (hne : digits ≠ [])
    (hzero : digits.head? ≠ some '0') (hlength : digits.length ≤ maxDigits) (hrest : Ends rest) :
    number (digits ++ rest) = .ok (.int (Nat.ofDigitChars 10 digits 0), rest) := by
  have hstop : ∀ c ∈ rest.head?, latinDigit? c = none := by
    intro c hc
    rcases hrest c hc with rfl | rfl | rfl <;> rfl
  have hspan := spanDigits_append (fun c hc => latinDigit?_of_isDigit (hdigits c hc)) hstop
  obtain ⟨d, ds, rfl⟩ := List.exists_cons_of_ne_nil hne
  have hd : d.isDigit = true := hdigits d List.mem_cons_self
  have hminus : d ≠ '-' := by
    rintro rfl
    exact absurd hd (by decide)
  have hsign : minusPart (d :: ds ++ rest) = (false, d :: ds ++ rest) := by
    unfold minusPart
    split
    · exact absurd (List.cons.inj ‹_›).1 hminus
    · rfl
  have hwhole : wholePart (d :: ds ++ rest) = some ((d :: ds).map fun c => c.toNat - 48, rest) := by
    unfold wholePart
    split
    · rename_i h
      exact absurd (congrArg some (List.cons.inj h).1) hzero
    · rw [hspan]
      rfl
  have hfraction : fractionPart rest = (none, rest) := by
    unfold fractionPart
    split
    · exact absurd (hrest '.' rfl) (by decide)
    · rfl
  have hexponent : exponentPart rest = (none, rest) := by
    cases rest with
    | nil => rfl
    | cons c rest => rcases hrest c rfl with rfl | rfl | rfl <;> rfl
  rw [number, hsign]
  simp only [hwhole, hfraction, hexponent, List.length_map]
  rw [if_pos hlength, ofDigits_map_eq]
  rfl

/-- **Digits spell the number that they stand for.** -/
theorem spells_digits (hdigits : ∀ c ∈ digits, c.isDigit = true) (hne : digits ≠ [])
    (hzero : digits.head? ≠ some '0') (hlength : digits.length ≤ maxDigits) :
    Spells digits (.int (Nat.ofDigitChars 10 digits 0)) := by
  have hnumber := fun rest (hrest : Ends rest) => number_of_digits hdigits hne hzero hlength hrest
  obtain ⟨d, ds, rfl⟩ := List.exists_cons_of_ne_nil hne
  have hd : d.isDigit = true := hdigits d List.mem_cons_self
  have hother {c : Char} (hc : c.isDigit = false) : d ≠ c := by
    rintro rfl
    exact absurd (hc.symm.trans hd) (by simp)
  refine ⟨fun rest => ⟨?_, fun tail h => hother rfl (List.cons.inj h).1⟩, fun rest fuel hrest hfuel => ?_⟩
  · have hspace : (d == ' ' || d == '\t' || d == '\n' || d == '\r') = false := by
      simp [hother (c := ' ') rfl, hother (c := '\t') rfl, hother (c := '\n') rfl, hother (c := '\r') rfl]
    rw [skipSpace, List.cons_append, List.dropWhile_cons_of_neg (by simp [hspace])]
  · obtain ⟨fuel, rfl⟩ : ∃ k, fuel = k + 1 := ⟨fuel - 1, by simp at hfuel; omega⟩
    have hscalar : scalar (d :: ds ++ rest) = .ok (.int (Nat.ofDigitChars 10 (d :: ds) 0), rest) := by
      rw [scalar, List.cons_append, find?_words_of_isDigit hd]
      exact hnumber rest hrest
    rw [← hscalar]
    unfold value
    split
    · exact absurd (List.cons.inj ‹_›).1 (hother rfl)
    · exact absurd (List.cons.inj ‹_›).1 (hother rfl)
    · exact absurd (List.cons.inj ‹_›).1 (hother rfl)
    · rfl

/-- Nines stand for one less than a power of ten. -/
theorem ofDigitChars_replicate_nine (n m : Nat) :
    Nat.ofDigitChars 10 (List.replicate n '9') m = (m + 1) * 10 ^ n - 1 := by
  induction n generalizing m with
  | zero => simp
  | succ n ih =>
    have hnine : '9'.toNat - '0'.toNat = 9 := rfl
    rw [List.replicate_succ, Nat.ofDigitChars_cons, ih, hnine, Nat.pow_succ']
    congr 1
    ring

/-- **Nines spell one less than a power of ten.** -/
theorem spells_nines {n : Nat} (hpos : 0 < n) (hlength : n ≤ maxDigits) :
    Spells (List.replicate n '9') (.int (10 ^ n - 1 : Nat)) := by
  have hdigits : Spells (List.replicate n '9') (.int (Nat.ofDigitChars 10 (List.replicate n '9') 0)) :=
    spells_digits (fun c hc => by rw [List.eq_of_mem_replicate hc]; rfl)
      (fun h => by rw [List.replicate_eq_nil_iff] at h; omega)
      (by rw [List.head?_replicate, if_neg (by omega)]; decide) (by rwa [List.length_replicate])
  rwa [ofDigitChars_replicate_nine, Nat.zero_add, Nat.one_mul] at hdigits

/-! ## Lists and objects -/

/-- The text of a list with one item. -/
def itemText (text : List Char) : List Char :=
  '[' :: (text ++ [']'])

/-- The text of an object with one field. -/
def fieldText (name : String) (text : List Char) : List Char :=
  '{' :: '"' :: (name.toList ++ '"' :: ':' :: (text ++ ['}']))

/-- **A list with one item.** -/
theorem Spells.item (h : Spells text v) : Spells (itemText text) (.arr [v]) := by
  refine ⟨fun rest => ⟨rfl, fun tail h => absurd (List.cons.inj h).1 (by decide)⟩, fun rest fuel _ hfuel => ?_⟩
  rw [itemText, List.length_cons, List.length_append, List.length_singleton] at hfuel
  obtain ⟨fuel, rfl⟩ : ∃ k, fuel = k + 2 := ⟨fuel - 2, by omega⟩
  obtain ⟨hspace, hopen⟩ := h.starts (']' :: rest)
  have hitem := h.reads (']' :: rest) fuel (ends_cons (by simp) rest) (by omega)
  have hitems : items (fuel + 1) (text ++ ']' :: rest) = .ok ([v], rest) := by
    rw [items, hitem]
    rfl
  rw [itemText, List.cons_append, List.append_assoc, List.singleton_append, value]
  simp only [hspace]
  rw [hitems]
  rfl

/-- A character of a name that stands for itself. -/
def isPlain (c : Char) : Bool :=
  c != '"' && c != '\\' && 31 < c.toNat

/-- The characters of a name that stand for themselves are read up to the closing quote. -/
theorem units_of_plain (h : name.all isPlain = true) (opening : Nat) (rest : List Char) :
    units opening (name ++ '"' :: rest) = .ok (name.map Char.toNat, rest) := by
  induction name with
  | nil => rfl
  | cons c name ih =>
    rw [List.all_cons, Bool.and_eq_true] at h
    obtain ⟨hc, hname⟩ := h
    simp only [isPlain, Bool.and_eq_true, bne_iff_ne, ne_eq, decide_eq_true_eq] at hc
    obtain ⟨⟨hquote, hescape⟩, hcontrol⟩ := hc
    rw [List.cons_append, units, if_neg (by omega), ih hname]
    · rfl
    all_goals simp_all

/-- No character is half of a surrogate pair. -/
theorem toNat_lt_or_lt (c : Char) : c.toNat < 0xD800 ∨ 0xDFFF < c.toNat := by
  rcases c.valid with h | ⟨h, -⟩
  · exact Or.inl h
  · exact Or.inr h

theorem joinUnits_toNat (cs : List Char) : joinUnits (cs.map Char.toNat) = cs := by
  have hunit (c : Char) : unitChar c.toNat = c := by
    have hc := toNat_lt_or_lt c
    rw [unitChar, if_neg (by omega), Char.ofNat_toNat]
  induction cs with
  | nil => rfl
  | cons c cs ih =>
    have hc := toNat_lt_or_lt c
    cases cs with
    | nil => rw [List.map_cons, List.map_nil, joinUnits, hunit]
    | cons d ds =>
      rw [List.map_cons, List.map_cons, joinUnits, if_neg (by omega), hunit, ← List.map_cons, ih]

theorem string_of_plain {s : String} (h : s.toList.all isPlain = true) (rest : List Char) :
    string (s.toList ++ '"' :: rest) = .ok (s, rest) := by
  rw [string, units_of_plain h]
  show Except.ok (String.ofList (joinUnits _), rest) = _
  rw [joinUnits_toNat, String.ofList_toList]

/-- **An object with one field.** -/
theorem Spells.field {s : String} (hs : s.toList.all isPlain = true) (h : Spells text v) :
    Spells (fieldText s text) (.obj [(s, v)]) := by
  refine ⟨fun rest => ⟨rfl, fun tail h => absurd (List.cons.inj h).1 (by decide)⟩, fun rest fuel _ hfuel => ?_⟩
  simp only [fieldText, List.length_cons, List.length_append, List.length_nil] at hfuel
  obtain ⟨fuel, rfl⟩ : ∃ k, fuel = k + 2 := ⟨fuel - 2, by omega⟩
  obtain ⟨hspace, -⟩ := h.starts ('}' :: rest)
  have hvalue := h.reads ('}' :: rest) fuel (ends_cons (by simp) rest) (by omega)
  have hmembers : members (fuel + 1) ('"' :: (s.toList ++ '"' :: ':' :: (text ++ '}' :: rest)))
      = .ok ([(s, v)], rest) := by
    rw [members, string_of_plain hs]
    simp only
    have hcolon : skipSpace (':' :: (text ++ '}' :: rest)) = ':' :: (text ++ '}' :: rest) := rfl
    rw [hcolon]
    simp only
    rw [hspace, hvalue]
    rfl
  have hopen : skipSpace ('"' :: (s.toList ++ '"' :: ':' :: (text ++ '}' :: rest)))
      = '"' :: (s.toList ++ '"' :: ':' :: (text ++ '}' :: rest)) := rfl
  simp only [fieldText, List.cons_append, List.append_assoc, List.nil_append]
  rw [value]
  simp only [hopen]
  exact congrArg (Except.map _) hmembers

end Lightpath.Json
