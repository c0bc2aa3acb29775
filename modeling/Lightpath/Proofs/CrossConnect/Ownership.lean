import Lightpath.CrossConnect.Channel
import Mathlib

/-!
# Who owns a slot

Channels and slots are sets of frequencies here: a slot lies within a channel when its frequencies
are frequencies of the channel. A slot is at least one unit wide, so it cannot lie within two
channels that have no more than one frequency in common. Main statement: on a plan of such channels
it does not matter in which order they are declared (`ownedOnce_of_meetInEdge`).
-/

/-! ## Frequencies of a slot -/

namespace Lightpath.Spectrum.Slot

variable {s t : Slot}

/-- The frequencies of a slot in Hz: those that are off its centre by half of its width at most. -/
def passband (s : Slot) : Set Int :=
  {f | 2 * ((f - s.centralHz).natAbs : Int) ≤ s.widthHz}

/-- The frequencies of a slot are those between its edges. -/
theorem passband_eq_Icc (s : Slot) : s.passband = Set.Icc s.toBounds.1 s.toBounds.2 := by
  ext f
  rw [passband, Set.mem_ofPred_eq, Set.mem_Icc]
  simp only [toBounds, toBoundsIn, centralHz, widthHz, widthUnitHz, Int.fdiv_eq_ediv]
  omega

/-- A slot has an edge on either side of its centre. -/
theorem lower_lt_upper (hs : 1 ≤ s.granularity) : s.toBounds.1 < s.toBounds.2 := by
  simp only [toBounds, toBoundsIn, widthHz, widthUnitHz, Int.fdiv_eq_ediv]
  omega

/-- A slot at the same centre that is not wider has no other frequencies. -/
theorem passband_subset (hcentre : t.centralHz = s.centralHz)
    (hwidth : t.granularity ≤ s.granularity) : t.passband ⊆ s.passband := by
  intro f hf
  rw [passband, Set.mem_ofPred_eq, widthHz, widthUnitHz] at hf ⊢
  rw [hcentre] at hf
  omega

end Lightpath.Spectrum.Slot

namespace Lightpath.CrossConnect

open Lightpath.Spectrum

/-! ## Frequencies of a channel -/

/-- The frequencies of a channel in Hz, edges included. There are none if the upper edge lies below
the lower one. -/
def Channel.range (c : Channel) : Set Int :=
  Set.Icc (c.lowMHz * 1000000) (c.highMHz * 1000000)

/-- Two channels have one frequency in common at most. -/
def Channel.MeetInEdge (a b : Channel) : Prop :=
  (a.range ∩ b.range).Subsingleton

variable {plan : List Channel} {a b c : Channel} {s t : Slot}

/-- **A channel holds a slot when it has all of its frequencies.** -/
theorem Channel.holds_iff_subset (hs : 1 ≤ s.granularity) :
    c.holds s = true ↔ s.passband ⊆ c.range := by
  rw [Slot.passband_eq_Icc, Channel.range, Set.Icc_subset_Icc_iff (Slot.lower_lt_upper hs).le,
    Channel.holds, decide_eq_true_iff]

/-- Two channels have one frequency in common at most just when the lower one of their upper edges
is not above the upper one of their lower edges. -/
theorem Channel.meetInEdge_iff :
    a.MeetInEdge b ↔ min a.highMHz b.highMHz ≤ max a.lowMHz b.lowMHz := by
  rw [Channel.MeetInEdge, Channel.range, Channel.range, Set.Icc_inter_Icc]
  constructor
  · intro h
    by_contra hlt
    have hlower : max (a.lowMHz * 1000000) (b.lowMHz * 1000000)
        < min (a.highMHz * 1000000) (b.highMHz * 1000000) := by omega
    exact hlower.ne (h (Set.left_mem_Icc.mpr hlower.le) (Set.right_mem_Icc.mpr hlower.le))
  · intro h
    exact Set.subsingleton_Icc_of_ge (by omega)

/-! ## Owners -/

/-- Two channels that hold one slot have more than one frequency in common. -/
theorem Channel.not_meetInEdge (hs : 1 ≤ s.granularity) (ha : a.holds s = true)
    (hb : b.holds s = true) : ¬a.MeetInEdge b := by
  intro hmeet
  have hboth : s.passband ⊆ a.range ∩ b.range :=
    Set.subset_inter ((holds_iff_subset hs).mp ha) ((holds_iff_subset hs).mp hb)
  rw [Slot.passband_eq_Icc] at hboth
  have hedges := Slot.lower_lt_upper hs
  exact hedges.ne (hmeet (hboth (Set.left_mem_Icc.mpr hedges.le))
    (hboth (Set.right_mem_Icc.mpr hedges.le)))

/-- **One channel at most holds a slot.** -/
theorem length_filter_holds_le_one (hplan : plan.Pairwise Channel.MeetInEdge)
    (hs : 1 ≤ s.granularity) : (plan.filter (·.holds s)).length ≤ 1 := by
  have hholds : ∀ c ∈ plan.filter (·.holds s), c.holds s = true := fun c hc =>
    (List.mem_filter.mp hc).2
  have hmeet : (plan.filter (·.holds s)).Pairwise Channel.MeetInEdge := hplan.filter _
  generalize plan.filter (·.holds s) = held at hholds hmeet
  match held with
  | [] => exact Nat.zero_le 1
  | [_] => exact Nat.le_refl 1
  | a :: b :: rest =>
    have hab : a.MeetInEdge b := List.rel_of_pairwise_cons hmeet List.mem_cons_self
    exact absurd hab (Channel.not_meetInEdge hs (hholds a List.mem_cons_self)
      (hholds b (List.mem_cons_of_mem a List.mem_cons_self)))

theorem owner?_eq_head? (plan : List Channel) (s : Slot) :
    owner? plan s = (plan.filter (·.holds s)).head?.map Channel.key := by
  rw [owner?, List.head?_filter]

/-- The owner of a slot is the channel that has all of its frequencies. -/
theorem owner?_eq_some_iff (hplan : plan.Pairwise Channel.MeetInEdge) (hs : 1 ≤ s.granularity)
    (key : String) :
    owner? plan s = some key ↔ ∃ c ∈ plan, c.key = key ∧ s.passband ⊆ c.range := by
  have hmem (c : Channel) : c ∈ plan.filter (·.holds s) ↔ c ∈ plan ∧ s.passband ⊆ c.range := by
    rw [List.mem_filter, Channel.holds_iff_subset hs]
  have hone := length_filter_holds_le_one hplan hs
  rw [owner?_eq_head?]
  generalize plan.filter (·.holds s) = held at hmem hone
  match held with
  | [] =>
    refine iff_of_false (by simp) ?_
    rintro ⟨c, hc, -, hsubset⟩
    exact absurd ((hmem c).mpr ⟨hc, hsubset⟩) List.not_mem_nil
  | [held] =>
    have hheld := (hmem held).mp List.mem_cons_self
    constructor
    · intro h
      exact ⟨held, hheld.1, Option.some.inj h, hheld.2⟩
    · rintro ⟨c, hc, rfl, hsubset⟩
      obtain rfl := List.mem_singleton.mp ((hmem c).mpr ⟨hc, hsubset⟩)
      rfl
  | _ :: _ :: _ => exact absurd hone (by simp)

/-- The order of the channels does not matter when one of them at most holds the slot. -/
theorem owner?_of_perm {other : List Channel} (hperm : other.Perm plan)
    (hone : (plan.filter (·.holds s)).length ≤ 1) : owner? other s = owner? plan s := by
  have hheld : (other.filter (·.holds s)).Perm (plan.filter (·.holds s)) := hperm.filter _
  rw [owner?_eq_head?, owner?_eq_head?]
  generalize plan.filter (·.holds s) = held at hheld hone
  match held with
  | [] => rw [List.perm_nil.mp hheld]
  | [_] => rw [List.perm_singleton.mp hheld]
  | _ :: _ :: _ => exact absurd hone (by simp)

/-- **What the owner of a slot is on a plan.** -/
structure OwnedOnce (plan : List Channel) (s : Slot) : Prop where
  /-- One declared channel at most holds the slot, -/
  once : (plan.filter (·.holds s)).length ≤ 1
  /-- so the order in which the channels are declared does not matter. -/
  anyOrder : ∀ other : List Channel, other.Perm plan → owner? other s = owner? plan s
  /-- The owner is the channel that has all frequencies of the slot, -/
  owner_iff : ∀ key, owner? plan s = some key ↔ ∃ c ∈ plan, c.key = key ∧ s.passband ⊆ c.range
  /-- and it owns the narrower slots at the same centre too. -/
  narrower : ∀ key t, owner? plan s = some key → t.centralHz = s.centralHz → 1 ≤ t.granularity →
    t.granularity ≤ s.granularity → owner? plan t = some key

/-- **A slot has one owner on a plan of channels that meet in an edge at most**, whatever the order
of the channels is and whatever ranges without a frequency or with a single one are among them. -/
theorem ownedOnce_of_meetInEdge (hplan : plan.Pairwise Channel.MeetInEdge)
    (hs : 1 ≤ s.granularity) : OwnedOnce plan s := by
  have hone := length_filter_holds_le_one hplan hs
  refine ⟨hone, fun other hperm => owner?_of_perm hperm hone, owner?_eq_some_iff hplan hs, ?_⟩
  intro key t howner hcentre ht hwidth
  obtain ⟨c, hc, hkey, hsubset⟩ := (owner?_eq_some_iff hplan hs key).mp howner
  exact (owner?_eq_some_iff hplan ht key).mpr
    ⟨c, hc, hkey, (Slot.passband_subset hcentre hwidth).trans hsubset⟩

/-- Three channels of which the first two share an edge and the last has its edges the wrong way
round. -/
def edgedPlan : List Channel :=
  [⟨"low", 193025000, 193075000⟩, ⟨"high", 193075000, 193125000⟩, ⟨"none", 193200000, 193000000⟩]

/-- The slot that fills the upper channel, its edges included, has one owner. -/
theorem ownedOnce_edgedPlan :
    edgedPlan.Pairwise Channel.MeetInEdge ∧ owner? edgedPlan ⟨.flex, .ghz6p25, 0, 4⟩ = some "high" ∧
      OwnedOnce edgedPlan ⟨.flex, .ghz6p25, 0, 4⟩ := by
  have hplan : edgedPlan.Pairwise Channel.MeetInEdge := by
    simp only [edgedPlan, List.pairwise_cons, List.mem_cons, List.not_mem_nil, or_false,
      Channel.meetInEdge_iff]
    simp
  exact ⟨hplan, by decide +kernel, ownedOnce_of_meetInEdge hplan (by decide)⟩

end Lightpath.CrossConnect
