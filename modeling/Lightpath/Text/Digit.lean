/-!
# Decimal digits

Numbers may be written with the decimal digits of any script. A script's ten digits stand in a row, so
the character that stands for zero tells the whole row.
-/

namespace Lightpath.Text

/-- The characters that stand for zero, one for each row of ten decimal digits. -/
def zeroDigits : List Nat :=
  [0x30, 0x660, 0x6F0, 0x7C0, 0x966, 0x9E6, 0xA66, 0xAE6, 0xB66, 0xBE6, 0xC66, 0xCE6, 0xD66, 0xDE6,
   0xE50, 0xED0, 0xF20, 0x1040, 0x1090, 0x17E0, 0x1810, 0x1946, 0x19D0, 0x1A80, 0x1A90, 0x1B50,
   0x1BB0, 0x1C40, 0x1C50, 0xA620, 0xA8D0, 0xA900, 0xA9D0, 0xA9F0, 0xAA50, 0xABF0, 0xFF10, 0x104A0,
   0x10D30, 0x11066, 0x110F0, 0x11136, 0x111D0, 0x112F0, 0x11450, 0x114D0, 0x11650, 0x116C0,
   0x11730, 0x118E0, 0x11950, 0x11C50, 0x11D50, 0x11DA0, 0x16A60, 0x16AC0, 0x16B50, 0x1D7CE,
   0x1D7D8, 0x1D7E2, 0x1D7EC, 0x1D7F6, 0x1E140, 0x1E2F0, 0x1E950, 0x1FBF0]

/-- What a character stands for when it is one of the digits 0 to 9 of the Latin script. -/
def latinDigit? (c : Char) : Option Nat :=
  if 0x30 ≤ c.toNat ∧ c.toNat ≤ 0x39 then some (c.toNat - 0x30) else none

/-- What a character stands for when it is a decimal digit of any script. -/
def digit? (c : Char) : Option Nat :=
  match latinDigit? c with
  | some d => some d
  | none => (zeroDigits.find? fun z => z ≤ c.toNat && c.toNat ≤ z + 9).map (c.toNat - ·)

theorem latinDigit?_lt {c : Char} {d : Nat} (h : latinDigit? c = some d) : d < 10 := by
  unfold latinDigit? at h
  split at h
  · rename_i hc
    cases h
    omega
  · cases h

theorem digit?_of_latin {c : Char} {d : Nat} (h : latinDigit? c = some d) : digit? c = some d := by
  simp [digit?, h]

theorem digit?_lt {c : Char} {d : Nat} (h : digit? c = some d) : d < 10 := by
  unfold digit? at h
  split at h
  · rename_i e
    cases h
    exact latinDigit?_lt e
  · obtain ⟨z, hz, rfl⟩ := Option.map_eq_some_iff.1 h
    have := List.find?_some hz
    simp only [Bool.and_eq_true, decide_eq_true_eq] at this
    omega

end Lightpath.Text
