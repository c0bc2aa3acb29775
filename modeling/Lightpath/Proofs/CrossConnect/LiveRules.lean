import Lightpath.Proofs.CrossConnect.Conversation
import Lightpath.Proofs.OrderedMap

/-!
# Entries of live branches

The entry of a live branch has the slot of its channel, and the side of the branch says which of its
ports is the common one. Main statement: the first entry of a listing that has some property is the
entry of the first branch whose entry has it (`exists_branch_of_find?`).
-/

namespace Lightpath.CrossConnect.Reconciler

open Lightpath.Spectrum

/-- The rule that a live branch stands for when its channel has a slot. -/
def liveRule (r : Reconciler) (device : String) (slot : Slot) (b : Branch) : Rule :=
  match b.side with
  | .drop => ⟨device, r.commonPort, b.leafPort, slot, b.power⟩
  | .add => ⟨device, b.leafPort, r.commonPort, slot, b.power⟩

variable {r : Reconciler} {device : String} {plan : List Channel} {slot : Slot} {b : Branch}

/-! ## Channels by their keys -/

/-- In a plan whose keys are different, a key finds its channel. -/
theorem channelOf?_eq_some_iff (hkeys : (plan.map Channel.key).Nodup) {key : String} {c : Channel} :
    channelOf? plan key = some c ↔ c ∈ plan ∧ c.key = key := by
  have hpairs : ((plan.map fun c => (c.key, c)).map Prod.fst).Nodup := by
    rw [List.map_map]
    exact hkeys
  rw [channelOf?, OrderedMap.ofPairs_eq_self hpairs, OrderedMap.get?_eq_some_iff_mem hpairs,
    List.mem_map]
  constructor
  · rintro ⟨c', hc', heq⟩
    obtain ⟨rfl, rfl⟩ := Prod.mk.inj heq
    exact ⟨hc', rfl⟩
  · rintro ⟨hc, rfl⟩
    exact ⟨c, hc, rfl⟩

/-! ## Parts of a live rule -/

@[simp] theorem liveRule_device : (r.liveRule device slot b).device = device := by
  unfold liveRule
  cases b.side <;> rfl

@[simp] theorem liveRule_slot : (r.liveRule device slot b).slot = slot := by
  unfold liveRule
  cases b.side <;> rfl

@[simp] theorem liveRule_power : (r.liveRule device slot b).power = b.power := by
  unfold liveRule
  cases b.side <;> rfl

/-- The rule of a branch switches the side of the branch, except that an add branch whose leaf port
is the common port counts as a drop. -/
theorem side_liveRule_eq_iff :
    (r.liveRule device slot b).side r.commonPort = b.side
      ↔ ¬(b.side = .add ∧ b.leafPort = r.commonPort) := by
  rw [liveRule]
  cases hside : b.side with
  | drop =>
    rw [Rule.side, if_pos rfl]
    simp
  | add =>
    simp only [Rule.side]
    by_cases hleaf : b.leafPort = r.commonPort
    · rw [if_pos hleaf]
      simp [hleaf]
    · rw [if_neg hleaf]
      simp [hleaf]

/-! ## Entries -/

/-- The entry of a branch whose channel is in the plan and has a slot. -/
theorem entryOf?_eq_some_iff {e : Entry} :
    r.entryOf? device plan b = .ok (some e) ↔
      ∃ c s, channelOf? plan b.channel = some c ∧ c.slot = .ok s ∧
        e = ⟨r.liveRule device s b, .added⟩ := by
  rw [entryOf?]
  constructor
  · intro h
    split at h
    · exact absurd h (by simp)
    · rename_i c hc
      obtain ⟨rule, hrule, h⟩ := Outcome.bind_eq_ok_iff.mp h
      obtain ⟨s, hs, hrule⟩ := Outcome.bind_eq_ok_iff.mp hrule
      refine ⟨c, s, hc, hs, ?_⟩
      rw [← Option.some.inj (Except.ok.inj h), ← Except.ok.inj hrule]
      rfl
  · rintro ⟨c, s, hc, hs, rfl⟩
    rw [hc]
    simp only [ruleOf, hs]
    rfl

/-- The entry of the first branch stands in front of those of the others. -/
theorem entriesIn_cons_eq_ok_iff {bs : List Branch} {es : List Entry} :
    r.entriesIn device plan (b :: bs) = .ok es ↔
      ∃ e rest, r.entryOf? device plan b = .ok e ∧ r.entriesIn device plan bs = .ok rest ∧
        es = e.toList ++ rest := by
  rw [entriesIn]
  constructor
  · intro h
    obtain ⟨e, he, h⟩ := Outcome.bind_eq_ok_iff.mp h
    obtain ⟨rest, hrest, h⟩ := Outcome.bind_eq_ok_iff.mp h
    exact ⟨e, rest, he, hrest, (Except.ok.inj h).symm⟩
  · rintro ⟨e, rest, he, hrest, rfl⟩
    rw [he, hrest]
    rfl

/-- What is listed are the entries of the branches. -/
theorem mem_entriesIn {bs : List Branch} {es : List Entry} (h : r.entriesIn device plan bs = .ok es)
    {e : Entry} : e ∈ es ↔ ∃ b ∈ bs, r.entryOf? device plan b = .ok (some e) := by
  induction bs generalizing es with
  | nil =>
    rw [← Except.ok.inj h]
    simp
  | cons b bs ih =>
    obtain ⟨first, rest, hb, hrest, rfl⟩ := entriesIn_cons_eq_ok_iff.mp h
    rw [List.mem_append, ih hrest, List.exists_mem_cons_iff, hb]
    cases first <;> simp [eq_comm]

/-- **The first entry that has a property is the entry of the first branch whose entry has it.** -/
theorem exists_branch_of_find? {bs : List Branch} {es : List Entry}
    (h : r.entriesIn device plan bs = .ok es) {p : Entry → Bool} {e : Entry}
    (he : es.find? p = some e) :
    ∃ before b after, bs = before ++ b :: after ∧ r.entryOf? device plan b = .ok (some e) ∧
      p e = true ∧
      ∀ b' ∈ before, ∀ e', r.entryOf? device plan b' = .ok (some e') → p e' = false := by
  induction bs generalizing es with
  | nil =>
    rw [← Except.ok.inj h] at he
    exact absurd he (by simp)
  | cons b bs ih =>
    obtain ⟨first, rest, hb, hrest, rfl⟩ := entriesIn_cons_eq_ok_iff.mp h
    -- either the entry of the first branch is the one, or there is none or it lacks the property
    have hlater (hnot : ∀ e', first = some e' → p e' = false) (hfound : rest.find? p = some e) :
        ∃ before b' after, b :: bs = before ++ b' :: after ∧
          r.entryOf? device plan b' = .ok (some e) ∧ p e = true ∧
          ∀ b'' ∈ before, ∀ e', r.entryOf? device plan b'' = .ok (some e') → p e' = false := by
      obtain ⟨before, b', after, rfl, hb', hp, hbefore⟩ := ih hrest hfound
      refine ⟨b :: before, b', after, rfl, hb', hp, fun b'' hb'' e' he' => ?_⟩
      rcases List.mem_cons.mp hb'' with rfl | hb''
      · rw [hb] at he'
        exact hnot e' (Except.ok.inj he')
      · exact hbefore b'' hb'' e' he'
    cases first with
    | none => exact hlater (by simp) he
    | some e' =>
      rw [Option.toList_some, List.singleton_append] at he
      by_cases hp : p e' = true
      · rw [List.find?_cons_of_pos hp] at he
        obtain rfl := Option.some.inj he
        exact ⟨[], b, bs, rfl, hb, hp, by simp⟩
      · rw [List.find?_cons_of_neg hp] at he
        refine hlater (fun e'' he'' => ?_) he
        rw [← Option.some.inj he'']
        exact Bool.eq_false_iff.mpr hp

end Lightpath.CrossConnect.Reconciler
