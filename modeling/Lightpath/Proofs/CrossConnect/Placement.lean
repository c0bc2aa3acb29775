import Lightpath.CrossConnect.Reconciler
import Lightpath.Proofs.CrossConnect.EditMarkup

/-!
# Rules and their channels

The rules that a plan has channels for are put into an edit by channel, and within a channel by
side. When no two of them are for the same side of the same channel, going through the channels in
order once for each side finds every one of them exactly once. Main statement: `perm_listed`.
-/

namespace Lightpath.CrossConnect.Reconciler

variable {r : Reconciler} {plan : List Channel} {rules : List Rule} {p : Rule × Channel}

/-! ## Matched rules -/

/-- The rules that a plan has a channel for, each with the first channel that holds its slot. -/
def matched (plan : List Channel) (rules : List Rule) : List (Rule × Channel) :=
  rules.filterMap fun rule => (plan.find? (·.holds rule.slot)).map fun c => (rule, c)

/-- A rule is matched with the first channel that holds its slot. -/
theorem mem_matched :
    p ∈ matched plan rules ↔ p.1 ∈ rules ∧ plan.find? (·.holds p.1.slot) = some p.2 := by
  rw [matched, List.mem_filterMap]
  constructor
  · rintro ⟨rule, hrule, hp⟩
    obtain ⟨c, hc, rfl⟩ := Option.map_eq_some_iff.mp hp
    exact ⟨hrule, hc⟩
  · rintro ⟨hrule, hc⟩
    exact ⟨p.1, hrule, by rw [hc]; rfl⟩

/-- The channel of a matched rule is in the plan. -/
theorem channel_mem_of_matched (h : p ∈ matched plan rules) : p.2 ∈ plan :=
  List.mem_of_find?_eq_some (mem_matched.mp h).2

theorem placed_eq (plan : List Channel) (rules : List Rule) :
    placed plan rules = (matched plan rules).map fun p => (p.1, p.2.key) := by
  rw [placed, owners, matched, List.filterMap_map, List.map_filterMap]
  congr 1
  funext rule
  rw [Function.comp_apply, owner?]
  cases plan.find? (·.holds rule.slot) <;> rfl

/-! ## Owned rules -/

/-- The rules that some channel of a plan owns, in their order. -/
def owned (plan : List Channel) (rules : List Rule) : List Rule :=
  rules.filter fun rule => (owner? plan rule.slot).isSome

/-- The rules that the channel of a key owns, in their order. -/
def ownedBy (plan : List Channel) (rules : List Rule) (key : String) : List Rule :=
  rules.filter fun rule => owner? plan rule.slot = some key

/-- The owned rules are those whose slot has an owner, -/
theorem mem_owned {rule : Rule} :
    rule ∈ owned plan rules ↔ rule ∈ rules ∧ (owner? plan rule.slot).isSome := by
  rw [owned, List.mem_filter]

/-- and those that a channel owns are those whose slot it owns. -/
theorem mem_ownedBy {rule : Rule} {key : String} :
    rule ∈ ownedBy plan rules key ↔ rule ∈ rules ∧ owner? plan rule.slot = some key := by
  rw [ownedBy, List.mem_filter, decide_eq_true_iff]

/-- The rules that are matched are the owned ones, in their order. -/
theorem map_fst_matched (plan : List Channel) (rules : List Rule) :
    (matched plan rules).map Prod.fst = owned plan rules := by
  rw [matched, owned, List.map_filterMap, ← List.filterMap_eq_filter]
  congr 1
  funext rule
  rw [Option.guard, owner?, Option.isSome_map]
  cases plan.find? (·.holds rule.slot) <;> rfl

/-- Of the matched rules those with a channel of some key are the ones that it owns. -/
theorem map_fst_matched_filter (plan : List Channel) (rules : List Rule) (key : String) :
    ((matched plan rules).filter fun p => p.2.key = key).map Prod.fst = ownedBy plan rules key := by
  rw [matched, ownedBy, List.filter_filterMap, List.map_filterMap, ← List.filterMap_eq_filter]
  congr 1
  funext rule
  rw [Option.guard, owner?]
  cases plan.find? (·.holds rule.slot) with
  | none => rfl
  | some c => by_cases hc : c.key = key <;> simp [hc]

theorem map_fst_placed (plan : List Channel) (rules : List Rule) :
    (placed plan rules).map Prod.fst = owned plan rules := by
  rw [placed_eq, List.map_map, ← map_fst_matched]
  rfl

/-- Nothing is placed just when no rule is owned. -/
theorem placed_eq_nil_iff : placed plan rules = [] ↔ owned plan rules = [] := by
  rw [← map_fst_placed, List.map_eq_nil_iff]

/-- A rule is placed in the channel that owns its slot. -/
theorem mem_placed {p : Rule × String} :
    p ∈ placed plan rules ↔ p.1 ∈ rules ∧ owner? plan p.1.slot = some p.2 := by
  rw [placed, owners, List.filterMap_map, List.mem_filterMap]
  constructor
  · rintro ⟨rule, hrule, hp⟩
    obtain ⟨key, hkey, rfl⟩ := Option.map_eq_some_iff.mp hp
    exact ⟨hrule, hkey⟩
  · rintro ⟨hrule, hkey⟩
    exact ⟨p.1, hrule, Option.map_eq_some_iff.mpr ⟨p.2, hkey, rfl⟩⟩

/-! ## Edits of matched rules -/

/-- The rule that is for one side of one channel, if there is one. -/
def ofSide? (r : Reconciler) (found : List (Rule × Channel)) (side : Side) (key : String) :
    Option (Rule × Channel) :=
  found.find? fun p => decide (p.2.key = key ∧ p.1.side r.commonPort = side)

variable {found : List (Rule × Channel)} {side : Side} {key : String}

/-- An edit has the channels of the rules that it is made of. -/
theorem mem_keys_editOf (change : Rule → Change) :
    key ∈ OrderedMap.keys (editOf change (found.map fun p => (p.1, p.2.key)))
      ↔ ∃ p ∈ found, p.2.key = key := by
  rw [editOf, Edit.mem_keys_ofChanges, List.map_map, List.map_map, List.mem_map]
  rfl

/-- The changes of a channel are made of its rules, in their order. -/
theorem changesOf_editOf (change : Rule → Change) :
    (editOf change (found.map fun p => (p.1, p.2.key))).changesOf key
      = (found.filter fun p => p.2.key = key).map fun p => change p.1 := by
  rw [editOf, Edit.changesOf_ofChanges, changesTo, List.map_map, List.filter_map, List.map_map]
  rfl

/-- The first creation on a side of a channel is the one for the rule that is for it. -/
theorem find?_changesOf_editOf (type : DeviceType) :
    ((editOf (r.creation type) (found.map fun p => (p.1, p.2.key))).changesOf key).find?
        (fun c => c.side = side)
      = ((r.ofSide? found side key).map Prod.fst).map (r.creation type) := by
  have hside : (fun p : Rule × Channel => decide (decide (p.2.key = key) = true ∧
        ((fun c : Change => decide (c.side = side)) ∘ fun p => r.creation type p.1) p = true))
      = fun p => decide (p.2.key = key ∧ p.1.side r.commonPort = side) := by
    funext p
    simp only [Function.comp_apply, decide_eq_true_iff]
    rfl
  rw [changesOf_editOf, List.find?_map, List.find?_filter, hside, Option.map_map]
  rfl

/-! ## Going through the channels -/

section Listed

/-- What is found for one side of one channel is for it. -/
theorem of_ofSide? (h : r.ofSide? found side key = some p) :
    p ∈ found ∧ p.2.key = key ∧ p.1.side r.commonPort = side := by
  rw [ofSide?] at h
  have hp := List.find?_some h
  rw [decide_eq_true_iff] at hp
  exact ⟨List.mem_of_find?_eq_some h, hp⟩

variable (honce : (found.map fun p => (p.2.key, p.1.side r.commonPort)).Nodup)

include honce in
theorem ofSide?_eq_some_iff :
    r.ofSide? found side key = some p ↔ p ∈ found ∧ p.2.key = key ∧
      p.1.side r.commonPort = side := by
  constructor
  · exact of_ofSide?
  · rintro ⟨hp, hpkey, hpside⟩
    have hsome : (r.ofSide? found side key).isSome = true :=
      List.find?_isSome.mpr ⟨p, hp, decide_eq_true ⟨hpkey, hpside⟩⟩
    obtain ⟨q, hq⟩ := Option.isSome_iff_exists.mp hsome
    obtain ⟨hqmem, hqkey, hqside⟩ := of_ofSide? hq
    have heq : (q.2.key, q.1.side r.commonPort) = (p.2.key, p.1.side r.commonPort) := by
      rw [hqkey, hqside, hpkey, hpside]
    rw [hq, List.inj_on_of_nodup_map honce hqmem hp heq]

variable {channels : List String}

/-- The rules for one side, in the order of the channels. -/
def listed (r : Reconciler) (found : List (Rule × Channel)) (side : Side) (channels : List String) :
    List (Rule × Channel) :=
  channels.filterMap (r.ofSide? found side)

include honce in
/-- What is listed of a side are the rules on this side. -/
theorem mem_listed (hchannels : ∀ p ∈ found, p.2.key ∈ channels) :
    p ∈ r.listed found side channels ↔ p ∈ found ∧ p.1.side r.commonPort = side := by
  rw [listed, List.mem_filterMap]
  constructor
  · rintro ⟨key, -, hkey⟩
    obtain ⟨hp, -, hside⟩ := (ofSide?_eq_some_iff honce).mp hkey
    exact ⟨hp, hside⟩
  · rintro ⟨hp, hside⟩
    exact ⟨p.2.key, hchannels p hp, (ofSide?_eq_some_iff honce).mpr ⟨hp, rfl, hside⟩⟩

/-- A rule that is found for a channel is one for this channel. -/
theorem map_key_listed :
    (r.listed found side channels).map (fun p => p.2.key)
      = channels.filter fun key => (r.ofSide? found side key).isSome := by
  rw [listed, List.map_filterMap, ← List.filterMap_eq_filter]
  congr 1
  funext key
  cases h : r.ofSide? found side key with
  | none => simp [h, Option.guard]
  | some p => simp [h, (of_ofSide? h).2.1, Option.guard]

/-- Channels that ascend give rules whose channels ascend. -/
theorem ascending_listed (hascend : channels.Pairwise (· < ·)) :
    ((r.listed found side channels).map fun p => p.2.key).Pairwise (· < ·) := by
  rw [map_key_listed]
  exact hascend.filter _

/-- Nothing is listed twice. -/
theorem nodup_listed (hascend : channels.Pairwise (· < ·)) :
    (r.listed found side channels).Nodup := by
  have hkeys : ((r.listed found side channels).map fun p => p.2.key).Nodup :=
    (ascending_listed hascend).imp fun {a b} hab => String.ne_of_lt hab
  exact hkeys.of_map _

include honce in
/-- **Going through the channels once for each side finds every rule once.** -/
theorem perm_listed (hchannels : ∀ p ∈ found, p.2.key ∈ channels)
    (hascend : channels.Pairwise (· < ·)) :
    (r.listed found .add channels ++ r.listed found .drop channels).Perm found := by
  have hfound : found.Nodup := honce.of_map _
  have hboth : (r.listed found .add channels ++ r.listed found .drop channels).Nodup := by
    refine List.nodup_append.mpr
      ⟨nodup_listed hascend, nodup_listed hascend, fun p hp q hq hpq => ?_⟩
    rw [hpq, mem_listed honce hchannels] at hp
    rw [mem_listed honce hchannels, hp.2] at hq
    exact absurd hq.2 (by decide)
  refine (List.perm_ext_iff_of_nodup hboth hfound).mpr fun p => ?_
  rw [List.mem_append, mem_listed honce hchannels, mem_listed honce hchannels, ← and_or_left]
  refine and_iff_left_of_imp fun _ => ?_
  cases p.1.side r.commonPort
  · exact Or.inl rfl
  · exact Or.inr rfl

end Listed

end Lightpath.CrossConnect.Reconciler
