import Lightpath.CrossConnect.Channel
import Lightpath.Proofs.Spectrum.Encoding
import Mathlib.Data.List.Pairwise

/-!
# Channels and the slots that fill them

The slot of a channel is cut to whole steps of the grid, so its centre may lie off the middle of the
channel by almost a step, on either side of the anchor. Main statements: the passband of the slot
cannot come to lie in another channel of the plan (`eq_of_fills_of_holds`), two channels have
different slots (`eq_of_fills`), and on the grid nothing is cut (`holds_of_onGrid`).
-/

namespace Lightpath.CrossConnect.Channel

open Lightpath.Spectrum

/-! ## Edges -/

/-- A channel holds a slot of the finest grid when the passband lies between the edges. -/
theorem holds_iff (c : Channel) (grid : GridType) (multiplier : Int) (granularity : Nat) :
    c.holds ⟨grid, .ghz6p25, multiplier, granularity⟩ = true ↔
      c.lowMHz ≤ anchorMHz + multiplier * 6250 - granularity * 6250 ∧
        anchorMHz + multiplier * 6250 + granularity * 6250 ≤ c.highMHz := by
  rw [holds, decide_eq_true_iff]
  simp only [Slot.toBounds, Slot.toBoundsIn, Slot.centralIn, Slot.widthHz, Spacing.hz, Spacing.mhz,
    anchorHz, anchorMHz, widthUnitHz, Int.fdiv_eq_ediv]
  omega

/-! ## Cutting -/

/-- A slot of the finest flexible grid fills a channel as well as the grid allows: its centre is off
the middle by less than a step, and its width is the largest that fits. -/
structure Fills (c : Channel) (s : Slot) : Prop where
  grid : s.grid = .flex
  spacing : s.spacing = .ghz6p25
  notBelow : c.lowMHz + c.highMHz - 12499 ≤ 2 * (anchorMHz + s.multiplier * 6250)
  notAbove : 2 * (anchorMHz + s.multiplier * 6250) ≤ c.lowMHz + c.highMHz + 12499
  fits : s.granularity * 12500 ≤ c.widthMHz
  largest : c.widthMHz < s.granularity * 12500 + 12500

/-- The multiplier and the granularity that the slot of a channel has if it has one. -/
theorem slot_eq (c : Channel) :
    c.slot = Slot.build .flex .ghz6p25
      (((500000 * (c.lowMHz + c.highMHz)).tdiv 1000000 - anchorMHz).tdiv 6250)
      (c.widthMHz.tdiv 12500) := by
  have hcentral : c.lowMHz * 1000000 + Int.fdiv (c.highMHz * 1000000 - c.lowMHz * 1000000) 2
      = 500000 * (c.lowMHz + c.highMHz) := by
    rw [Int.fdiv_eq_ediv_of_nonneg _ (by decide)]
    omega
  have hwidth : (c.highMHz * 1000000 - c.lowMHz * 1000000).tdiv 1000000 = c.widthMHz := by
    rw [← Int.sub_mul, Int.mul_tdiv_cancel _ (by decide), widthMHz]
  rw [slot, Slot.fromBounds, Slot.fromCentralAndWidth, Slot.mhzOfHz, Slot.mhzOfHz, hcentral, hwidth]
  rfl

/-- The slot of a channel fills it. -/
theorem fills_of_slot {c : Channel} {s : Slot} (hwidth : 0 ≤ c.widthMHz) (h : c.slot = .ok s) :
    c.Fills s := by
  rw [slot_eq, Slot.build] at h
  have hcentral := tdiv_near (500000 * (c.lowMHz + c.highMHz)) (k := 1000000) (by decide)
  have hstep := tdiv_near ((500000 * (c.lowMHz + c.highMHz)).tdiv 1000000 - anchorMHz) (k := 6250)
    (by decide)
  have hunit := tdiv_near c.widthMHz (k := 12500) (by decide)
  have hcut := tdiv_le hwidth 12500
  split at h
  · obtain rfl := Except.ok.inj h
    refine ⟨rfl, rfl, ?_, ?_, ?_, ?_⟩
    · simp only
      omega
    · simp only
      omega
    · simp only
      omega
    · simp only
      omega
  · exact absurd h (by simp)

/-- A channel whose upper edge is not below its lower one has a slot. -/
theorem exists_slot {c : Channel} (hwidth : 0 ≤ c.widthMHz) : ∃ s, c.slot = .ok s := by
  rw [slot_eq, Slot.build, if_pos (Int.tdiv_nonneg hwidth (by decide))]
  exact ⟨_, rfl⟩

/-! ## Neighbours -/

/-- Two channels have at most an edge in common. -/
def Apart (a b : Channel) : Prop :=
  a.highMHz ≤ b.lowMHz ∨ b.highMHz ≤ a.lowMHz

variable {plan : List Channel} {a b : Channel} {s : Slot}

/-- Two channels of a plan of ranges that do not overlap are one channel if they have more than an
edge in common. -/
theorem eq_of_not_apart (hplan : plan.Pairwise Apart) (ha : a ∈ plan) (hb : b ∈ plan)
    (h : ¬Apart a b) : a = b := by
  have hsymm : Std.Symm Apart := ⟨fun _ _ hab => hab.symm⟩
  by_contra hne
  exact h (hplan.forall ha hb hne)

/-- **The passband of the slot of a channel lies in no other channel.** -/
theorem eq_of_fills_of_holds (hplan : plan.Pairwise Apart) (ha : a ∈ plan) (hb : b ∈ plan)
    (hwidth : 12500 ≤ a.widthMHz) (hfills : a.Fills s) (hholds : b.holds s = true) : a = b := by
  obtain ⟨grid, spacing, multiplier, granularity⟩ := s
  obtain rfl : spacing = .ghz6p25 := hfills.spacing
  obtain ⟨hlow, hhigh⟩ := (holds_iff b grid multiplier granularity).mp hholds
  have hbelow := hfills.notBelow
  have habove := hfills.notAbove
  have hlargest := hfills.largest
  rw [widthMHz] at hwidth hlargest
  simp only at hbelow habove hlargest
  -- the centre is moved by less than half of the least width of a channel
  refine eq_of_not_apart hplan ha hb ?_
  rintro (h | h)
  · omega
  · omega

/-- **A slot fills one channel only.** -/
theorem eq_of_fills (hplan : plan.Pairwise Apart) (ha : a ∈ plan) (hb : b ∈ plan)
    (hawidth : 12500 ≤ a.widthMHz) (hbwidth : 12500 ≤ b.widthMHz) (hafills : a.Fills s)
    (hbfills : b.Fills s) : a = b := by
  have habelow := hafills.notBelow
  have haabove := hafills.notAbove
  have hbbelow := hbfills.notBelow
  have hbabove := hbfills.notAbove
  rw [widthMHz] at hawidth hbwidth
  refine eq_of_not_apart hplan ha hb ?_
  rintro (h | h)
  · omega
  · omega

/-! ## Channels on the grid -/

/-- The middle of a channel is a whole number of steps from the anchor, and its width a whole number
of units. -/
def OnGrid (c : Channel) : Prop :=
  (∃ k : Int, c.lowMHz + c.highMHz = 2 * (anchorMHz + k * 6250)) ∧ ∃ n : Nat, c.widthMHz = n * 12500

/-- **Nothing is cut off a channel on the grid**: its own slot lies within it. -/
theorem holds_of_onGrid {c : Channel} (hgrid : c.OnGrid) (hfills : c.Fills s) :
    c.holds s = true := by
  obtain ⟨grid, spacing, multiplier, granularity⟩ := s
  obtain rfl : spacing = .ghz6p25 := hfills.spacing
  obtain ⟨⟨k, hk⟩, n, hn⟩ := hgrid
  have hbelow := hfills.notBelow
  have habove := hfills.notAbove
  have hfits := hfills.fits
  have hlargest := hfills.largest
  rw [widthMHz] at hn hfits hlargest
  simp only at hbelow habove hfits hlargest
  rw [holds_iff]
  constructor
  · omega
  · omega

end Lightpath.CrossConnect.Channel
