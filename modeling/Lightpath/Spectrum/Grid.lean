import Lightpath.Numeral.Decimal

/-!
# Frequency grids

A grid counts frequencies in steps of a channel spacing from the anchor at 193.1 THz, and slot widths in
units of 12.5 GHz.
-/

namespace Lightpath.Spectrum

/-! ## Anchor and units -/

/-- The anchor of the frequency grid, in Hz. -/
def anchorHz : Int := 193100000000000

/-- The unit of slot widths, in Hz. -/
def widthUnitHz : Int := 12500000000

/-- The anchor in MHz. -/
def anchorMHz : Int := 193100000

/-- The unit of slot widths in MHz. -/
def widthUnitMHz : Int := 12500

theorem anchorHz_eq : anchorHz = anchorMHz * 1000000 := rfl

theorem widthUnitHz_eq : widthUnitHz = widthUnitMHz * 1000000 := rfl

/-! ## Grid types -/

/-- The kind of grid that a slot belongs to. -/
inductive GridType where
  | dwdm
  | cwdm
  | flex
  | unknown
  deriving DecidableEq, Repr

/-- The name of a grid type. -/
def GridType.name : GridType → String
  | .dwdm => "DWDM"
  | .cwdm => "CWDM"
  | .flex => "FLEX"
  | .unknown => "UNKNOWN"

/-- Every grid type with its name. -/
def GridType.names : List (String × GridType) :=
  [.dwdm, .cwdm, .flex, .unknown].map fun g => (g.name, g)

/-! ## Channel spacings -/

/-- The distance between neighbouring channels. -/
inductive Spacing where
  | ghz100
  | ghz50
  | ghz25
  | ghz12p5
  | ghz6p25
  deriving DecidableEq, Repr

namespace Spacing

/-- The spacing in MHz. -/
def mhz : Spacing → Int
  | ghz100 => 100000
  | ghz50 => 50000
  | ghz25 => 25000
  | ghz12p5 => 12500
  | ghz6p25 => 6250

/-- The spacing in Hz. -/
def hz (s : Spacing) : Int :=
  s.mhz * 1000000

/-- The name of a spacing. -/
def name : Spacing → String
  | ghz100 => "CHL_100GHZ"
  | ghz50 => "CHL_50GHZ"
  | ghz25 => "CHL_25GHZ"
  | ghz12p5 => "CHL_12P5GHZ"
  | ghz6p25 => "CHL_6P25GHZ"

/-- All spacings, widest first. -/
def all : List Spacing := [ghz100, ghz50, ghz25, ghz12p5, ghz6p25]

/-- Every spacing with its name. -/
def names : List (String × Spacing) := all.map fun s => (s.name, s)

/-- Every spacing with its number of Hz. -/
def numbers : List (Int × Spacing) := all.map fun s => (s.hz, s)

/-- The spacing in a unit of `10 ^ digits` Hz, as a decimal without zeros at its end. -/
def inUnit (s : Spacing) (digits : Nat) : Numeral.Decimal :=
  let d := Numeral.Decimal.stripped digits (.finite false s.hz.toNat (-(digits : Int)))
  match d with
  | .finite n c e => if 0 < e then .finite n (c * Numeral.power 10 e.toNat) 0 else d
  | d => d

/-- The spacing in GHz. -/
def ghz (s : Spacing) : Numeral.Decimal := s.inUnit 9

/-- The spacing in THz. -/
def thz (s : Spacing) : Numeral.Decimal := s.inUnit 12

theorem mhz_pos (s : Spacing) : 0 < s.mhz := by
  cases s <;> decide

end Spacing

end Lightpath.Spectrum
