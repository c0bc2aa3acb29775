import Lightpath.Proofs.Spectrum.Encoding
import Lightpath.Spectrum.Quantity

/-!
# Rows of channels

A row of channels is cut to whole steps once, at its start, and then counted up; encoding the frequency
of a channel cuts this frequency itself, toward the anchor. Main statement: both yield the same slots
when the row starts on the grid or above the anchor (`encoded_lambdas`). A row that starts below the
anchor and off the grid comes apart from its frequencies where it crosses the anchor
(`fromCentralAndWidth_lambda_iff`).
-/

namespace Lightpath.Spectrum

variable {count start : Int} {i : Nat}

/-! ## Counting up -/

/-- Whole steps are counted up from a distance just as long as what was cut off keeps its side: the
distance has no rest, or the anchor is not passed. -/
theorem tdiv_add_steps_iff (distance : Int) (i : Nat) :
    (distance + 50 * i).tdiv 50 = distance.tdiv 50 + i
      ↔ 0 ≤ distance ∨ 50 ∣ distance ∨ distance + 50 * i < 0 := by
  rw [Int.tdiv_eq_ediv, Int.tdiv_eq_ediv, show Int.sign 50 = 1 from rfl]
  split <;> split <;> omega

/-! ## Slots -/

/-- The multiplier of the first channel of a row. -/
def firstStep (start : Int) : Int :=
  (start - 193100).tdiv 50

/-- A channel of a row. -/
def lambda (start : Int) (i : Nat) : Slot :=
  ⟨.dwdm, .ghz50, firstStep start + i, 4⟩

theorem lambdas_eq (count start : Int) :
    lambdas count start = (List.range count.toNat).map (lambda start) := by
  have hfirst : (start * 1000000000 - anchorHz).tdiv (Spacing.hz .ghz50) = firstStep start := by
    have hdistance : start * 1000000000 - anchorHz = (start - 193100) * 1000000000 := by
      rw [anchorHz]
      omega
    rw [hdistance, firstStep, ← Int.mul_tdiv_mul_of_pos_left _ 50 (by decide : (0 : Int) < 1000000000)]
    rfl
  rw [lambdas, hfirst]
  rfl

theorem length_lambdas (count start : Int) : (lambdas count start).length = count.toNat := by
  rw [lambdas_eq, List.length_map, List.length_range]

theorem getElem_lambdas (h : i < (lambdas count start).length) :
    (lambdas count start)[i] = lambda start i := by
  simp only [lambdas_eq, List.getElem_map, List.getElem_range]

/-! ## Frequencies -/

/-- The slot that the frequency of a channel is encoded to. -/
theorem fromCentralAndWidth_rowHz (start : Int) (i : Nat) :
    Slot.fromCentralAndWidth ((start + 50 * i) * 1000000000) (50 * 1000000000) .dwdm .ghz50
      = .ok ⟨.dwdm, .ghz50, (start - 193100 + 50 * i).tdiv 50, 4⟩ := by
  have hmhz : (start + 50 * i) * 1000000000 = (start + 50 * i) * 1000 * 1000000 := by omega
  have hdistance : (start + 50 * i) * 1000 - anchorMHz = (start - 193100 + 50 * i) * 1000 := by
    rw [anchorMHz]
    omega
  have hsteps : Slot.stepsTo .ghz50 ((start + 50 * i) * 1000000000)
      = (start - 193100 + 50 * i).tdiv 50 := by
    rw [Slot.stepsTo, hmhz, Slot.mhzOfHz_mul, hdistance,
      ← Int.mul_tdiv_mul_of_pos_left _ 50 (by decide : (0 : Int) < 1000)]
    rfl
  rw [Slot.fromCentralAndWidth_eq, hsteps]
  exact Slot.build_granularity .dwdm .ghz50 _ 4

/-- **Where a row agrees with its frequencies.** A channel is the slot of its own frequency when the row
starts above the anchor or on the grid, and else up to where the row crosses the anchor. -/
theorem fromCentralAndWidth_lambda_iff (start : Int) (i : Nat) :
    Slot.fromCentralAndWidth ((start + 50 * i) * 1000000000) (50 * 1000000000) .dwdm .ghz50
        = .ok (lambda start i)
      ↔ 193100 ≤ start ∨ 50 ∣ start - 193100 ∨ start + 50 * i < 193100 := by
  rw [fromCentralAndWidth_rowHz, Except.ok.injEq, lambda, Slot.mk.injEq, firstStep]
  simp only [true_and, and_true]
  rw [tdiv_add_steps_iff]
  omega

theorem centralHz_lambda (start : Int) (i : Nat) :
    (lambda start i).centralHz = (193100 + 50 * (firstStep start + i)) * 1000000000 := by
  simp only [Slot.centralHz, Slot.centralIn, lambda, anchorHz, Spacing.hz, Spacing.mhz]
  omega

/-- A channel is centred at its frequency just if the row starts on the grid. -/
theorem centralHz_lambda_iff (start : Int) (i : Nat) :
    (lambda start i).centralHz = (start + 50 * i) * 1000000000 ↔ 50 ∣ start - 193100 := by
  rw [centralHz_lambda]
  constructor
  · intro h
    exact ⟨firstStep start, by omega⟩
  · rintro ⟨k, hk⟩
    have hfirst : firstStep start = k := by
      rw [firstStep, hk, Int.mul_tdiv_cancel_left k (by decide)]
    rw [hfirst]
    omega

/-- Half of the width of a channel is half of a step. -/
theorem toBounds_lambda (start : Int) (i : Nat) :
    (lambda start i).toBounds
      = ((lambda start i).centralHz - 25000000000, (lambda start i).centralHz + 25000000000) := by
  have hwidth : (lambda start i).widthHz = 50000000000 := by
    show ((4 : Nat) : Int) * widthUnitHz = _
    rw [widthUnitHz]
    omega
  have hhalf : Int.fdiv (lambda start i).widthHz 2 = 25000000000 := by
    rw [hwidth]
    decide
  rw [Slot.toBounds, Slot.toBoundsIn, hhalf]
  rfl

/-- Neighbours meet in an edge. -/
theorem toBounds_lambda_succ (start : Int) (i : Nat) :
    (lambda start i).toBounds.2 = (lambda start (i + 1)).toBounds.1 := by
  rw [toBounds_lambda, toBounds_lambda, centralHz_lambda, centralHz_lambda]
  simp only
  omega

/-- **A row of channels is what its frequencies are encoded to**, if it starts on the grid, on either side
of the anchor, or anywhere above the anchor. It has as many channels as are asked for, neighbours share an
edge, and the channels are centred at their frequencies just if the row starts on the grid. -/
theorem encoded_lambdas (hcount : 0 ≤ count) (hstart : 50 ∣ start - 193100 ∨ 193100 ≤ start) :
    ((lambdas count start).length : Int) = count ∧
      (∀ (i : Nat) (hi : i < (lambdas count start).length),
        Slot.fromCentralAndWidth ((start + 50 * i) * 1000000000) (50 * 1000000000) .dwdm .ghz50
          = .ok (lambdas count start)[i]) ∧
      (∀ (i : Nat) (hi : i + 1 < (lambdas count start).length),
        (lambdas count start)[i].toBounds.2 = (lambdas count start)[i + 1].toBounds.1) ∧
      ∀ (i : Nat) (hi : i < (lambdas count start).length),
        (lambdas count start)[i].centralHz = (start + 50 * i) * 1000000000 ↔ 50 ∣ start - 193100 := by
  refine ⟨?_, fun i hi => ?_, fun i hi => ?_, fun i hi => ?_⟩
  · rw [length_lambdas, Int.toNat_of_nonneg hcount]
  · rw [getElem_lambdas hi, fromCentralAndWidth_lambda_iff]
    exact hstart.elim (fun h => Or.inr (Or.inl h)) Or.inl
  · rw [getElem_lambdas, getElem_lambdas]
    exact toBounds_lambda_succ start i
  · rw [getElem_lambdas hi]
    exact centralHz_lambda_iff start i

/-- A row of five channels that starts on the grid two steps below the anchor and crosses it. -/
theorem encoded_lambdas_crossing :
    ((lambdas 5 193000).length : Int) = 5 ∧
      (∀ (i : Nat) (hi : i < (lambdas 5 193000).length),
        Slot.fromCentralAndWidth ((193000 + 50 * i) * 1000000000) (50 * 1000000000) .dwdm .ghz50
          = .ok (lambdas 5 193000)[i]) ∧
      (∀ (i : Nat) (hi : i + 1 < (lambdas 5 193000).length),
        (lambdas 5 193000)[i].toBounds.2 = (lambdas 5 193000)[i + 1].toBounds.1) ∧
      ∀ (i : Nat) (hi : i < (lambdas 5 193000).length),
        (lambdas 5 193000)[i].centralHz = (193000 + 50 * i) * 1000000000 ↔ (50 : Int) ∣ 193000 - 193100 :=
  encoded_lambdas (by decide) (Or.inl (by decide))

end Lightpath.Spectrum
