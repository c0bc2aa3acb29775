import Lightpath.Spectrum.Grid
import Lightpath.Form.Record

/-!
# Wavelength slots

A slot is an optical channel in whole numbers: so many channel spacings from the anchor, and so many units
wide. Decoding a slot is exact; encoding a frequency and a width works on whole MHz and cuts toward zero.
-/

namespace Lightpath.Spectrum

/-! ## Slots -/

/-- A channel on a frequency grid, centred at `anchorHz + multiplier * spacing.hz` and
`granularity * widthUnitHz` wide. -/
structure Slot where
  grid : GridType
  spacing : Spacing
  multiplier : Int
  granularity : Nat
  deriving DecidableEq, Repr

namespace Slot

/-- The text of a slot: grid, spacing, multiplier and granularity. It is there for every slot, also for one
with a number of too many digits to be written; where this can happen, `written` stands for it. -/
def text (s : Slot) : String :=
  s.grid.name ++ "/" ++ s.spacing.name ++ "/" ++ toString s.multiplier ++ "/" ++ toString s.granularity

/-- The text of a slot, if its numbers can be written. -/
def written (s : Slot) : Outcome String :=
  if Numeral.Writable s.multiplier ∧ Numeral.Writable s.granularity then .ok s.text else .error .unreadable

/-- The central frequency in Hz, counted in the given spacing. -/
def centralIn (s : Slot) (spacing : Spacing) : Int :=
  anchorHz + s.multiplier * spacing.hz

/-- The width in Hz. -/
def widthHz (s : Slot) : Int :=
  s.granularity * widthUnitHz

/-- The central frequency in Hz. -/
def centralHz (s : Slot) : Int :=
  s.centralIn s.spacing

/-- Central frequency and width in Hz, counted in the given spacing. -/
def toCentralAndWidthIn (s : Slot) (spacing : Spacing) : Int × Int :=
  (s.centralIn spacing, s.widthHz)

/-- Central frequency and width in Hz. -/
def toCentralAndWidth (s : Slot) : Int × Int :=
  s.toCentralAndWidthIn s.spacing

/-- The lower and the upper edge in Hz, counted in the given spacing. -/
def toBoundsIn (s : Slot) (spacing : Spacing) : Int × Int :=
  let half := Int.fdiv s.widthHz 2
  (s.centralIn spacing - half, s.centralIn spacing + half)

/-- The lower and the upper edge in Hz. -/
def toBounds (s : Slot) : Int × Int :=
  s.toBoundsIn s.spacing

/-! ## Encoding -/

/-- Whole MHz of a frequency, cut toward zero. -/
def mhzOfHz (hz : Int) : Int :=
  hz.tdiv 1000000

/-- A slot of the given multiplier and granularity; a granularity below zero is an issue of its field. -/
def build (grid : GridType) (spacing : Spacing) (multiplier granularity : Int) : Outcome Slot :=
  if 0 ≤ granularity then .ok ⟨grid, spacing, multiplier, granularity.toNat⟩
  else .error (.invalid [⟨[.field "slot_granularity"], .greaterThanEqual⟩])

/-- The slot of a central frequency and a width in Hz. -/
def fromCentralAndWidth (central width : Int) (grid : GridType) (spacing : Spacing) : Outcome Slot :=
  build grid spacing ((mhzOfHz central - anchorMHz).tdiv spacing.mhz)
    ((mhzOfHz width).tdiv widthUnitMHz)

/-- The slot between a lower and an upper edge in Hz. -/
def fromBounds (lower upper : Int) (grid : GridType) (spacing : Spacing) : Outcome Slot :=
  let width := upper - lower
  fromCentralAndWidth (lower + Int.fdiv width 2) width grid spacing

/-! ## Forms -/

/-- A grid type by its name. -/
def checkGrid : Form.Check GridType := Form.choice GridType.names

/-- A spacing by its number of Hz. -/
def checkSpacing : Form.Check Spacing := Form.numberedChoice Spacing.numbers

/-- A whole number that is not below zero. -/
def checkGranularity : Form.Check Nat := fun v =>
  ((Form.whole v).ensure (0 ≤ ·) .greaterThanEqual).map Int.toNat

/-- A slot as a record. -/
def check : Form.Check Slot :=
  Form.record fun fields =>
    Slot.mk <$> fields.required "grid_type" checkGrid
      <*> fields.required "channel_spacing" checkSpacing
      <*> fields.required "spacing_multiplier" Form.whole
      <*> fields.required "slot_granularity" checkGranularity

/-- The record of a slot. -/
def toJson (s : Slot) : Json :=
  .obj [("grid_type", .str s.grid.name), ("channel_spacing", .int s.spacing.hz),
    ("spacing_multiplier", .int s.multiplier), ("slot_granularity", .int s.granularity)]

end Slot

end Lightpath.Spectrum
