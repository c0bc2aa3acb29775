import Lightpath.CrossConnect.Order
import Lightpath.Proofs.CrossConnect.FullBand
import Lightpath.Proofs.Outcome
import Lightpath.Proofs.Spectrum.Encoding

/-!
# Orders that undo each other

A device that forwards the whole band takes every order to add, and an order to drop looks through
what was added. The table keeps what was added under a text of the encoded slot, and an order to
drop compares decoded frequencies and widths; both mean the slot, since all ordered slots are of one
grid and one spacing. Main statement: after any run of orders and removals of devices, an order to
drop yields a rule exactly when an earlier order to add it stands, and takes this rule and no other
off the list (`drop_undoes_add`).
-/

namespace Lightpath.CrossConnect

open Lightpath.Site Lightpath.Spectrum

/-! ## Wishes -/

/-- What an operator wishes a device to pass on between two ports; central frequency in MHz and width
in GHz are as they are given. -/
structure Wish where
  device : String
  input : Int
  output : Int
  mhz : Json
  ghz : Json

namespace Wish

/-- The order that tells a wish. -/
def order (w : Wish) : Order :=
  ⟨w.device, .int w.input, .int w.output, w.mhz, w.ghz⟩

@[simp] theorem device_order (w : Wish) : w.order.device = w.device := rfl

/-- **Two wishes are for the same cross-connect**: device and ports are equal, and frequency and width
are cut to one slot. -/
structure Same (v w : Wish) : Prop where
  device : v.device = w.device
  input : v.input = w.input
  output : v.output = w.output
  slot : ∃ slot, v.order.slot = .ok slot ∧ w.order.slot = .ok slot

/-- The connection that is wished for, if frequency and width have a slot. -/
def connection? (w : Wish) : Option Connection :=
  w.order.slot.toOption.map fun slot => ⟨w.device, w.input, w.output, slot⟩

/-- The connection of a wish has its device and ports and the slot of its order. -/
theorem connection?_eq_some_iff {w : Wish} {c : Connection} :
    w.connection? = some c ↔
      w.device = c.device ∧ w.input = c.input ∧ w.output = c.output ∧ w.order.slot = .ok c.slot := by
  rw [connection?, Option.map_eq_some_iff]
  constructor
  · rintro ⟨slot, hslot, rfl⟩
    exact ⟨rfl, rfl, rfl, Outcome.eq_ok_of_toOption hslot⟩
  · rintro ⟨hdevice, hinput, houtput, hslot⟩
    exact ⟨c.slot, by rw [hslot]; rfl, by rw [hdevice, hinput, houtput]⟩

/-- Without a connection there is no slot. -/
theorem slot_eq_error_of_connection?_eq_none {w : Wish} (h : w.connection? = none) :
    ∃ f, w.order.slot = .error f := by
  rw [connection?, Option.map_eq_none_iff] at h
  cases hslot : w.order.slot with
  | error f => exact ⟨f, rfl⟩
  | ok slot => exact absurd (hslot ▸ h) (by simp [Except.toOption])

/-- Wishes are the same if they wish for the same connection. -/
theorem same_iff {v w : Wish} {c : Connection} (hw : w.connection? = some c) :
    v.Same w ↔ v.connection? = some c := by
  obtain ⟨hdevice, hinput, houtput, hslot⟩ := connection?_eq_some_iff.mp hw
  rw [connection?_eq_some_iff]
  constructor
  · rintro ⟨hvdevice, hvinput, hvoutput, slot, hvslot, hwslot⟩
    obtain rfl := Except.ok.inj (hwslot.symm.trans hslot)
    exact ⟨hvdevice.trans hdevice, hvinput.trans hinput, hvoutput.trans houtput, hvslot⟩
  · rintro ⟨hvdevice, hvinput, hvoutput, hvslot⟩
    exact ⟨hvdevice.trans hdevice.symm, hvinput.trans hinput.symm, hvoutput.trans houtput.symm,
      c.slot, hvslot, hslot⟩

end Wish

/-- The rule that is ordered for a connection; an order asks for no power. -/
def Connection.rule (c : Connection) : Rule :=
  ⟨c.device, c.input, c.output, c.slot, none⟩

/-- The rule of a wish that has a slot is that of its connection. -/
theorem Wish.rule_order {w : Wish} {c : Connection} (h : w.connection? = some c) :
    w.order.rule = .ok c.rule := by
  obtain ⟨hdevice, hinput, houtput, hslot⟩ := Wish.connection?_eq_some_iff.mp h
  rw [Order.rule, hslot, Connection.rule, ← hdevice, ← hinput, ← houtput]
  rfl

/-- Ordered slots are of the finest flexible grid. -/
theorem finest_of_ofOrder {mhz ghz : Json} {s : Slot} (h : Slot.ofOrder mhz ghz = .ok s) :
    s.grid = .flex ∧ s.spacing = .ghz6p25 := by
  rw [Slot.ofOrder] at h
  obtain ⟨central, -, h⟩ := Outcome.bind_eq_ok_iff.mp h
  have hencoded : ∃ width, Slot.fromCentralAndWidth (central * 1000000) width .flex .ghz6p25
      = .ok s := by
    cases ghz with
    | str text => exact absurd h (by simp [Bind.bind, Except.bind])
    | _ =>
      obtain ⟨given, -, h⟩ := Outcome.bind_eq_ok_iff.mp h
      obtain ⟨product, -, h⟩ := Outcome.bind_eq_ok_iff.mp h
      obtain ⟨width, -, h⟩ := Outcome.bind_eq_ok_iff.mp h
      exact ⟨width, h⟩
  obtain ⟨width, hencoded⟩ := hencoded
  rw [Slot.fromCentralAndWidth_eq, Slot.build] at hencoded
  split at hencoded
  · obtain rfl := Except.ok.inj hencoded
    exact ⟨rfl, rfl⟩
  · exact absurd hencoded (by simp)

/-! ## Rows of ordered rules -/

/-- A row holds nothing but what was ordered for a device, each rule once and under its key. -/
structure OrderedRow (device : String) (m : OrderedMap String Rule) : Prop where
  keysOnce : (OrderedMap.keys m).Nodup
  keyed : ∀ p ∈ m, p.1 = p.2.key
  ordered : ∀ p ∈ m, ∃ w c, Wish.connection? w = some c ∧ c.device = device ∧ p.2 = c.rule

/-- An order to drop fits what was ordered with its ports and its slot, and nothing else. -/
theorem fits_rule_iff {w : Wish} {c : Connection} (hw : w.connection? = some c) {v : Wish}
    {other : Connection} (hv : v.connection? = some other) (hdevice : other.device = c.device) :
    w.order.fits c.slot other.rule = true ↔ other = c := by
  obtain ⟨-, hinput, houtput, hslot⟩ := Wish.connection?_eq_some_iff.mp hw
  obtain ⟨-, -, -, hotherslot⟩ := Wish.connection?_eq_some_iff.mp hv
  obtain ⟨hgrid, hspacing⟩ := finest_of_ofOrder hslot
  obtain ⟨hothergrid, hotherspacing⟩ := finest_of_ofOrder hotherslot
  rw [Order.fits, Bool.and_eq_true, Bool.and_eq_true, beq_iff_eq]
  show (other.slot.toCentralAndWidth = c.slot.toCentralAndWidth ∧ (w.input == other.input) = true) ∧
    (w.output == other.output) = true ↔ _
  rw [beq_iff_eq, beq_iff_eq, hinput, houtput]
  constructor
  · rintro ⟨⟨hdecoded, hin⟩, hout⟩
    have hsame := Slot.eq_of_toCentralAndWidth_eq (hothergrid.trans hgrid.symm)
      (hotherspacing.trans hspacing.symm) hdecoded
    cases c
    cases other
    simp only at hdevice hin hout hsame
    rw [hdevice, hin, hout, hsame]
  · rintro rfl
    exact ⟨⟨rfl, rfl⟩, rfl⟩

/-- A demand concerns a connection when it applies or ends it. -/
theorem Demand.concerns_iff {d : Demand} {c : Connection} :
    d.concerns c ↔ (∃ rule, d = .apply rule ∧ rule.connection = c) ∨ d.ends c := by
  cases d with
  | apply rule =>
    constructor
    · exact fun h => Or.inl ⟨rule, rfl, h⟩
    · rintro (⟨_, h, hc⟩ | h)
      · rw [Demand.apply.inj h]
        exact hc
      · exact h.elim
  | remove rule => exact ⟨Or.inr, fun h => h.resolve_left (by simp)⟩
  | forget => exact ⟨Or.inr, fun _ => trivial⟩

/-! ## Steps -/

/-- A step of an operator, or of whoever tells that a device has left. -/
inductive Step where
  | add (w : Wish)
  | drop (w : Wish)
  | deviceRemoved (device : String)

/-- The reconciler knows of a device that it forwards the whole band. -/
def Reconciler.ForwardsAll (r : Reconciler) (device : String) : Prop :=
  ∃ type, r.typeOf device none = .ok type ∧ type.isFullBand = true

namespace Step

/-- A step on a site; what it yields is not kept. -/
def perform (r : Reconciler) : Step → Act Unit
  | add w => discard (w.order.add r)
  | drop w => discard (w.order.drop r)
  | deviceRemoved device => Reconciler.deviceRemoved device

/-- A step is about a device that forwards the whole band, as far as the type of the device matters. -/
def FullBand (r : Reconciler) : Step → Prop
  | add w => r.ForwardsAll w.device
  | drop w => r.ForwardsAll w.device
  | deviceRemoved _ => True

/-- The device that a step is about. -/
def device : Step → String
  | add w => w.device
  | drop w => w.device
  | deviceRemoved device => device

/-- What a step demands of the memory of its device; an order whose frequency and width have no slot demands
nothing. -/
def demand? : Step → Option Demand
  | add w => w.connection?.map fun c => .apply c.rule
  | drop w => w.connection?.map fun c => .remove c.rule
  | deviceRemoved _ => some .forget

/-- What a step demands of the memory of one device. -/
def demandOn? (device : String) (step : Step) : Option Demand :=
  if step.device = device then step.demand? else none

/-- What some steps demand of the memory of one device. -/
def demandsOn (device : String) (steps : List Step) : List Demand :=
  steps.filterMap (demandOn? device)

/-- What a step makes of the table. -/
def change (t : Table) (step : Step) : Table :=
  match step.demand? with
  | none => t
  | some d => t.demand step.device d

/-- A step leaves one row for each device. -/
theorem keys_nodup_change {t : Table} (h : (OrderedMap.keys t).Nodup) (step : Step) :
    (OrderedMap.keys (step.change t)).Nodup := by
  rw [change]
  cases step.demand? with
  | none => exact h
  | some d => exact Table.keys_nodup_demand h step.device d

theorem demandsOn_cons (device : String) (step : Step) (steps : List Step) :
    demandsOn device (step :: steps) = (step.demandOn? device).toList ++ demandsOn device steps := by
  rw [demandsOn, List.filterMap_cons]
  cases step.demandOn? device <;> rfl

/-- What is demanded of a device last is the demand of the last step. -/
theorem demandsOn_append_singleton (device : String) (steps : List Step) (step : Step) :
    demandsOn device (steps ++ [step]) = demandsOn device steps ++ (step.demandOn? device).toList := by
  rw [demandsOn, List.filterMap_append]
  exact congrArg _ ((demandsOn_cons device step []).trans (List.append_nil _))

/-- After some steps the row of each device is what the demands on this device have made of it. -/
theorem row_foldl_change {t : Table} (h : (OrderedMap.keys t).Nodup) (device : String)
    (steps : List Step) :
    (steps.foldl change t).row device = (demandsOn device steps).foldl Demand.change (t.row device) := by
  induction steps generalizing t with
  | nil => rfl
  | cons step steps ih =>
    rw [List.foldl_cons, ih (keys_nodup_change h step), demandsOn_cons, List.foldl_append, demandOn?,
      change]
    congr 1
    cases step.demand? with
    | none => rw [ite_self, Option.toList_none, List.foldl_nil]
    | some d =>
      by_cases hdevice : step.device = device
      · rw [if_pos hdevice, hdevice, Table.row_demand_self h, Option.toList_some, List.foldl_cons,
          List.foldl_nil]
      · rw [if_neg hdevice, Option.toList_none, List.foldl_nil]
        exact Table.row_demand_of_ne t hdevice d

/-- A step ends what was wished for: it drops the same, or removes the device. -/
def Ends (w : Wish) : Step → Prop
  | add _ => False
  | drop v => v.Same w
  | deviceRemoved device => device = w.device

/-- A step demands something of its own device only. -/
theorem demandOn?_eq_some_iff {device : String} {step : Step} {d : Demand} :
    step.demandOn? device = some d ↔ step.device = device ∧ step.demand? = some d := by
  rw [demandOn?]
  by_cases h : step.device = device
  · rw [if_pos h]
    exact ⟨fun hd => ⟨h, hd⟩, fun hd => hd.2⟩
  · rw [if_neg h]
    exact ⟨fun hd => absurd hd (by simp), fun hd => absurd hd.1 h⟩

variable {w : Wish} {c : Connection}

/-- A step demands that a connection be applied just when it adds what was wished for. -/
theorem applies_iff (hw : w.connection? = some c) (step : Step) :
    (∃ rule, step.demandOn? w.device = some (.apply rule) ∧ rule.connection = c) ↔
      ∃ v, step = .add v ∧ v.Same w := by
  constructor
  · rintro ⟨rule, hdemand, rfl⟩
    obtain ⟨-, hdemand⟩ := demandOn?_eq_some_iff.mp hdemand
    cases step with
    | add v =>
      obtain ⟨other, hv, hrule⟩ := Option.map_eq_some_iff.mp hdemand
      rw [← Demand.apply.inj hrule] at hw
      exact ⟨v, rfl, (Wish.same_iff hw).mpr hv⟩
    | drop v =>
      obtain ⟨other, -, hrule⟩ := Option.map_eq_some_iff.mp hdemand
      exact absurd hrule (by simp)
    | deviceRemoved name => exact absurd hdemand (by simp [demand?])
  · rintro ⟨v, rfl, hv⟩
    refine ⟨c.rule, demandOn?_eq_some_iff.mpr ⟨hv.device, ?_⟩, rfl⟩
    rw [demand?, (Wish.same_iff hw).mp hv]
    rfl

/-- A step demands the end of a connection just when it ends what was wished for. -/
theorem ends_iff (hw : w.connection? = some c) (step : Step) :
    (∃ d, step.demandOn? w.device = some d ∧ d.ends c) ↔ step.Ends w := by
  constructor
  · rintro ⟨d, hdemand, hends⟩
    obtain ⟨hdevice, hdemand⟩ := demandOn?_eq_some_iff.mp hdemand
    cases step with
    | add v =>
      obtain ⟨other, -, rfl⟩ := Option.map_eq_some_iff.mp hdemand
      exact hends.elim
    | drop v =>
      obtain ⟨other, hv, rfl⟩ := Option.map_eq_some_iff.mp hdemand
      obtain rfl : other = c := hends
      exact (Wish.same_iff hw).mpr hv
    | deviceRemoved name => exact hdevice
  · intro hends
    cases step with
    | add v => exact hends.elim
    | drop v =>
      refine ⟨.remove c.rule, demandOn?_eq_some_iff.mpr ⟨hends.device, ?_⟩, rfl⟩
      rw [demand?, (Wish.same_iff hw).mp hends]
      rfl
    | deviceRemoved name => exact ⟨.forget, demandOn?_eq_some_iff.mpr ⟨hends, rfl⟩, trivial⟩

end Step

/-! ## What stands -/

/-- **A wish stands after some steps**: one of them added it, and none after that dropped it or removed its
device. -/
def Wish.Stands (steps : List Step) (w : Wish) : Prop :=
  ∃ before v after, steps = before ++ .add v :: after ∧ v.Same w ∧ ∀ step ∈ after, ¬step.Ends w

/-- Only what has a slot can stand. -/
theorem Wish.Stands.slot {steps : List Step} {w : Wish} (h : w.Stands steps) :
    ∃ slot, w.order.slot = .ok slot := by
  obtain ⟨before, v, after, -, hv, -⟩ := h
  obtain ⟨slot, -, hslot⟩ := hv.slot
  exact ⟨slot, hslot⟩

/-- A wish stands after a step that adds it, and after one that does not end it if it stood before. -/
theorem Wish.stands_append_singleton {steps : List Step} {step : Step} {w : Wish} :
    w.Stands (steps ++ [step]) ↔ (∃ v, step = .add v ∧ v.Same w) ∨ (¬step.Ends w ∧ w.Stands steps) := by
  constructor
  · rintro ⟨before, v, after, h, hv, hafter⟩
    rcases append_singleton_eq_iff.mp h with ⟨-, rfl, -⟩ | ⟨rest, rfl, hl⟩
    · exact Or.inl ⟨v, rfl, hv⟩
    · exact Or.inr ⟨hafter step (by simp), before, v, rest, hl, hv, fun e he => hafter e (by simp [he])⟩
  · rintro (⟨v, rfl, hv⟩ | ⟨hends, before, v, after, rfl, hv, hafter⟩)
    · exact ⟨steps, v, [], rfl, hv, by simp⟩
    · refine ⟨before, v, after ++ [step], by simp, hv, fun e he => ?_⟩
      rcases List.mem_append.mp he with he | he
      · exact hafter e he
      · rw [List.mem_singleton.mp he]
        exact hends

/-- A wish stands exactly when its connection is held after what the steps demand of its device. -/
theorem Wish.stands_iff_held {w : Wish} {c : Connection} (hw : w.connection? = some c)
    (steps : List Step) :
    w.Stands steps ↔ Held (Step.demandsOn w.device steps) c := by
  induction steps using List.reverseRecOn with
  | nil =>
    constructor
    · rintro ⟨before, v, after, h, -⟩
      exact absurd h.symm (by simp)
    · rintro ⟨rule, -, before, after, h, -⟩
      exact absurd h.symm (List.append_ne_nil_of_right_ne_nil _ (List.cons_ne_nil _ _))
  | append_singleton steps step ih =>
    rw [Wish.stands_append_singleton, ih, ← Step.applies_iff hw, ← Step.ends_iff hw,
      Step.demandsOn_append_singleton]
    cases step.demandOn? w.device with
    | none =>
      rw [Option.toList_none, List.append_nil]
      simp
    | some d =>
      rw [Option.toList_some, held_append_singleton, Demand.concerns_iff]
      simp only [Option.some.injEq, exists_eq_left']
      by_cases happlies : ∃ rule, d = .apply rule ∧ rule.connection = c
      · simp only [happlies, true_or]
      · simp only [happlies, false_or]

/-! ## Tables of ordered rules -/

/-- What a step demands to be applied is what it orders. -/
theorem Step.ordered_of_mem_demandsOn {device : String} {steps : List Step} {rule : Rule}
    (h : .apply rule ∈ Step.demandsOn device steps) :
    ∃ w c, Wish.connection? w = some c ∧ c.device = device ∧ rule = c.rule := by
  obtain ⟨step, -, hdemand⟩ := List.mem_filterMap.mp h
  obtain ⟨hdevice, hdemand⟩ := demandOn?_eq_some_iff.mp hdemand
  cases step with
  | add w =>
    obtain ⟨c, hw, hrule⟩ := Option.map_eq_some_iff.mp hdemand
    exact ⟨w, c, hw, (Wish.connection?_eq_some_iff.mp hw).1.symm.trans hdevice,
      (Demand.apply.inj hrule).symm⟩
  | drop w =>
    obtain ⟨c, -, hrule⟩ := Option.map_eq_some_iff.mp hdemand
    exact absurd hrule (by simp)
  | deviceRemoved name => exact absurd hdemand (by simp [demand?])

/-- The table after some steps that began with an empty one. -/
def Step.table (steps : List Step) : Table :=
  steps.foldl Step.change []

theorem Step.keys_nodup_table (steps : List Step) : (OrderedMap.keys (Step.table steps)).Nodup := by
  induction steps using List.reverseRecOn with
  | nil => exact List.nodup_nil
  | append_singleton steps step ih =>
    rw [Step.table, List.foldl_append]
    exact Step.keys_nodup_change ih step

/-- The row of a device in the table remembers what has been demanded of it. -/
theorem remembers_row_table (device : String) (steps : List Step) :
    Remembers (Step.demandsOn device steps) ((Step.table steps).row device) := by
  have hkeys : (OrderedMap.keys ([] : Table)).Nodup := List.nodup_nil
  rw [Step.table, Step.row_foldl_change hkeys]
  exact remembers_row _

/-- Orders leave nothing in the table but what was ordered. -/
theorem orderedRow_table (device : String) (steps : List Step) :
    OrderedRow device ((Step.table steps).row device) where
  keysOnce := (remembers_row_table device steps).keysOnce
  keyed := (remembers_row_table device steps).keyed
  ordered := by
    intro p hp
    have hrow := remembers_row_table device steps
    have hstands : CrossConnect.Stands (Step.demandsOn device steps) p.2 := by
      rw [← hrow.stands, ← hrow.keyed p hp]
      exact hp
    obtain ⟨before, after, hsplit, -⟩ := hstands
    exact Step.ordered_of_mem_demandsOn (by rw [hsplit]; simp)

/-- What was ordered is in the row of its device exactly when the wish for it stands. -/
theorem get?_row_table {w : Wish} {c : Connection} (hw : w.connection? = some c) (steps : List Step) :
    OrderedMap.get? ((Step.table steps).row w.device) c.rule.key = some c.rule ↔ w.Stands steps := by
  have hrow := remembers_row_table w.device steps
  rw [hrow.get?_eq_some_iff, Wish.stands_iff_held hw]
  constructor
  · intro h
    exact ⟨c.rule, rfl, h⟩
  · rintro ⟨rule, hrule, h⟩
    -- a rule that stands was ordered, and a connection is ordered in one way
    obtain ⟨before, after, hsplit, -⟩ := id h
    obtain ⟨v, other, -, -, rfl⟩ := Step.ordered_of_mem_demandsOn
      (by rw [hsplit]; simp : .apply rule ∈ Step.demandsOn w.device steps)
    obtain rfl : other = c := hrule
    exact h

/-! ## Listings -/

/-- The entries that list a row. -/
def listed (m : OrderedMap String Rule) : List Entry :=
  (OrderedMap.values m).map fun rule => ⟨rule, .added⟩

/-- Rules are listed in their order. -/
theorem listed_append_cons (m : OrderedMap String Rule) (key : String) (rule : Rule)
    (m' : OrderedMap String Rule) :
    listed (m ++ (key, rule) :: m') = listed m ++ ⟨rule, .added⟩ :: listed m' := by
  simp [listed, OrderedMap.values]

theorem listed_append (m m' : OrderedMap String Rule) : listed (m ++ m') = listed m ++ listed m' := by
  simp [listed, OrderedMap.values]

/-- An entry of the list of a row is for a rule of the row. -/
theorem mem_of_mem_listed {m : OrderedMap String Rule} {e : Entry} (h : e ∈ listed m) :
    ∃ p ∈ m, p.2 = e.rule := by
  obtain ⟨rule, hrule, rfl⟩ := List.mem_map.mp h
  exact List.mem_map.mp hrule

/-- A device that forwards all is listed from the table. -/
theorem exec_query_listed {r : Reconciler} {device : String} (hall : r.ForwardsAll device) (s : State) :
    Act.exec (r.query device none) s = (.ok (some (listed (s.table.row device))), s) := by
  obtain ⟨type, htype, hfull⟩ := hall
  exact Reconciler.exec_query_fullBand htype hfull s

/-! ## Single orders -/

section Orders

variable {r : Reconciler} {w : Wish} {c : Connection} {f : Failure}

/-- An order whose frequency and width have no slot fails before anything is done. -/
theorem exec_add_of_no_slot (h : w.order.slot = .error f) (s : State) :
    Act.exec (w.order.add r) s = (.error f, s) := by
  have hrule : w.order.rule = .error f := by
    rw [Order.rule, h]
    rfl
  rw [Order.add, hrule]
  exact exec_bind_error (exec_yield_error f s) _

/-- An order to drop without a slot fails before anything is looked at. -/
theorem exec_drop_of_no_slot (h : w.order.slot = .error f) (s : State) :
    Act.exec (w.order.drop r) s = (.error f, s) := by
  rw [Order.drop, h]
  exact exec_bind_error (exec_yield_error f s) _

/-- Every other order to add is taken. -/
theorem exec_add_fullBand (hall : r.ForwardsAll w.device) (hw : w.connection? = some c) (s : State) :
    ∃ lines, Act.exec (w.order.add r) s = (.ok (some c.rule),
      { s with table := s.table.add w.device c.rule.key c.rule, lines := lines }) := by
  obtain ⟨type, htype, hfull⟩ := hall
  rw [Order.add, Wish.rule_order hw, Wish.device_order, exec_bind_ok (exec_yield_ok _ s),
    exec_bind_ok (Reconciler.exec_apply_fullBand htype hfull [c.rule] s)]
  exact ⟨_, rfl⟩

/-- The listing is searched for what was ordered as the row is looked up by its key. -/
theorem find?_listed {device : String} {m : OrderedMap String Rule} (h : OrderedRow device m)
    (hw : w.connection? = some c) (hdevice : w.device = device) :
    (listed m).find? (fun e => w.order.fits c.slot e.rule)
      = (OrderedMap.get? m c.rule.key).map fun rule => ⟨rule, .added⟩ := by
  rw [listed, List.find?_map]
  congr 1
  refine OrderedMap.find?_values fun p hp => ?_
  obtain ⟨v, other, hv, hother, hrule⟩ := h.ordered p hp
  rw [h.keyed p hp, hrule, key_eq_iff_connection_eq]
  have hsame : other.device = c.device :=
    hother.trans (hdevice.symm.trans (Wish.connection?_eq_some_iff.mp hw).1)
  exact fits_rule_iff hw hv hsame

/-- An order to drop finds nothing and changes nothing, or it takes out what was ordered. -/
theorem exec_drop_fullBand (hall : r.ForwardsAll w.device) (hw : w.connection? = some c) {s : State}
    (hrow : OrderedRow w.device (s.table.row w.device)) :
    (OrderedMap.get? (s.table.row w.device) c.rule.key = none ∧
        ∃ t, Act.exec (w.order.drop r) s = (.ok none, t) ∧ Logs s t) ∨
      OrderedMap.get? (s.table.row w.device) c.rule.key = some c.rule ∧
        ∃ lines, Act.exec (w.order.drop r) s = (.ok (some c.rule),
          { s with table := s.table.remove w.device c.rule.key, lines := lines }) := by
  have hslot := (Wish.connection?_eq_some_iff.mp hw).2.2.2
  rw [Order.drop, hslot, Wish.device_order, exec_bind_ok (exec_yield_ok _ s),
    exec_bind_ok (exec_query_listed hall s)]
  simp only
  rw [find?_listed hrow hw rfl]
  cases hget : OrderedMap.get? (s.table.row w.device) c.rule.key with
  | none => exact Or.inl ⟨rfl, _, rfl, _, rfl⟩
  | some rule =>
    have hmem := (OrderedMap.get?_eq_some_iff_mem hrow.keysOnce).mp hget
    obtain ⟨v, other, -, -, rfl⟩ := hrow.ordered _ hmem
    obtain rfl : c = other :=
      (key_eq_iff_connection_eq c.rule other.rule).mp (hrow.keyed _ hmem)
    refine Or.inr ⟨rfl, ?_⟩
    obtain ⟨type, htype, hfull⟩ := hall
    simp only [Option.map_some]
    rw [exec_bind_ok (Reconciler.exec_remove_fullBand htype hfull [c.rule] s)]
    exact ⟨_, rfl⟩

end Orders

/-! ## Runs -/

variable {r : Reconciler} {steps : List Step} {w : Wish} {s t : State}

/-- A step changes the table as it is demanded, and nothing else but the log. -/
theorem exec_step {step : Step} (hstep : step.FullBand r)
    (hrow : OrderedRow step.device (s.table.row step.device)) :
    ∃ lines, (Act.exec (step.perform r) s).2 = { s with table := step.change s.table, lines := lines } := by
  cases step with
  | add w =>
    rw [Step.perform, exec_discard, Step.change, Step.demand?]
    cases hw : w.connection? with
    | none =>
      obtain ⟨f, hslot⟩ := Wish.slot_eq_error_of_connection?_eq_none hw
      rw [exec_add_of_no_slot hslot]
      exact ⟨s.lines, rfl⟩
    | some c =>
      obtain ⟨lines, hadd⟩ := exec_add_fullBand hstep hw s
      rw [hadd]
      exact ⟨lines, rfl⟩
  | drop w =>
    rw [Step.perform, exec_discard, Step.change, Step.demand?]
    cases hw : w.connection? with
    | none =>
      obtain ⟨f, hslot⟩ := Wish.slot_eq_error_of_connection?_eq_none hw
      rw [exec_drop_of_no_slot hslot]
      exact ⟨s.lines, rfl⟩
    | some c =>
      rcases exec_drop_fullBand hstep hw hrow with ⟨habsent, t, hdrop, lines, rfl⟩ | ⟨-, lines, hdrop⟩
      · rw [hdrop]
        refine ⟨lines, ?_⟩
        show _ = { s with table := s.table.remove w.device c.rule.key, lines := lines }
        rw [Table.remove_of_get?_eq_none habsent]
      · rw [hdrop]
        exact ⟨lines, rfl⟩
  | deviceRemoved device =>
    obtain ⟨lines, hremoved⟩ := Reconciler.exec_deviceRemoved device s
    rw [Step.perform, hremoved]
    exact ⟨lines, rfl⟩

/-- After some steps the table is what was demanded of it. -/
theorem after_steps (hsteps : ∀ step ∈ steps, step.FullBand r) (hs : s.table = []) :
    ∃ lines, s.after (steps.map (Step.perform r))
      = { s with table := Step.table steps, lines := lines } := by
  induction steps using List.reverseRecOn with
  | nil =>
    refine ⟨s.lines, ?_⟩
    show s = { s with table := [], lines := s.lines }
    rw [← hs]
  | append_singleton steps step ih =>
    obtain ⟨lines, hafter⟩ := ih fun e he => hsteps e (List.mem_append_left _ he)
    rw [List.map_append, List.map_singleton, after_append_singleton, hafter]
    obtain ⟨more, hstep⟩ := exec_step (s := { s with table := Step.table steps, lines := lines })
      (hsteps step (List.mem_append_right _ List.mem_cons_self)) (orderedRow_table _ steps)
    refine ⟨more, hstep.trans ?_⟩
    rw [Step.table, Step.table, List.foldl_append]
    rfl

/-- **A rule is taken off the list of its device** between the site `s` and the site `t`: it is the rule
that the wish is for, the listing of the device loses its entry and keeps all others in their order,
and nothing else has changed but the log. -/
structure TakenOff (r : Reconciler) (w : Wish) (rule : Rule) (s t : State) : Prop where
  device : rule.device = w.device
  input : rule.input = w.input
  output : rule.output = w.output
  slot : w.order.slot = .ok rule.slot
  listing : ∃ before after,
    Act.exec (r.query w.device none) s = (.ok (some (before ++ ⟨rule, .added⟩ :: after)), s) ∧
    Act.exec (r.query w.device none) t = (.ok (some (before ++ after)), t) ∧
    ∀ e ∈ before ++ after, e.rule.connection ≠ rule.connection
  others : ∀ device, device ≠ w.device → t.table.row device = s.table.row device
  rest : { t with table := s.table, lines := s.lines } = s

/-- Taking a rule out of the table takes it off the list. -/
theorem takenOff_remove {c : Connection} (hall : r.ForwardsAll w.device) (hw : w.connection? = some c)
    (hkeys : (OrderedMap.keys s.table).Nodup) (hrow : OrderedRow w.device (s.table.row w.device))
    (hget : OrderedMap.get? (s.table.row w.device) c.rule.key = some c.rule) (lines : List Line) :
    TakenOff r w c.rule s { s with table := s.table.remove w.device c.rule.key, lines := lines } := by
  obtain ⟨hdevice, hinput, houtput, hslot⟩ := Wish.connection?_eq_some_iff.mp hw
  obtain ⟨before, after, hsplit, hdrop⟩ := OrderedMap.exists_split_of_get? hget
  refine ⟨hdevice.symm, hinput.symm, houtput.symm, hslot, ⟨listed before, listed after, ?_, ?_, ?_⟩,
    fun device hne => Table.row_remove_of_ne s.table _ (Ne.symm hne), rfl⟩
  · rw [exec_query_listed hall, hsplit, listed_append_cons]
  · rw [exec_query_listed hall, Table.row_remove_self hkeys, hdrop, listed_append]
  · intro e he hsame
    rw [← listed_append] at he
    obtain ⟨p, hp, hrule⟩ := mem_of_mem_listed he
    have hrow' : p ∈ s.table.row w.device := by
      rw [hsplit]
      rcases List.mem_append.mp hp with hp | hp
      · exact List.mem_append_left _ hp
      · exact List.mem_append_right _ (List.mem_cons_of_mem _ hp)
    -- an entry of the same connection would stand under the key that has been taken out
    have hkey : p.1 = c.rule.key := by
      rw [hrow.keyed p hrow', hrule]
      exact (key_eq_iff_connection_eq e.rule c.rule).mpr hsame
    have hgone := OrderedMap.get?_drop_self hrow.keysOnce c.rule.key
    rw [OrderedMap.get?_eq_none_iff, hdrop, ← hkey] at hgone
    exact hgone (List.mem_map_of_mem hp)

/-- **An order to drop undoes an order to add.** After any run of orders and removals of devices that
began with an empty table, on devices that forward the whole band, an order to drop yields a rule
exactly when an order to add the same stands: one with these ports and a frequency and width that are
cut to the same slot, after which no order dropped the same and the device was not removed. The rule
is then taken off the list of its device; an order that yields no rule changes nothing but the log,
and one that fails has no slot. -/
theorem drop_undoes_add (hsteps : ∀ step ∈ steps, step.FullBand r) (hall : r.ForwardsAll w.device)
    (hs : s.table = []) :
    ∃ out t, Act.exec (w.order.drop r) (s.after (steps.map (Step.perform r))) = (out, t) ∧
      ((∃ rule, out = .ok (some rule)) ↔ w.Stands steps) ∧
      (∀ rule, out = .ok (some rule) → TakenOff r w rule (s.after (steps.map (Step.perform r))) t) ∧
      ((∀ rule, out ≠ .ok (some rule)) → Logs (s.after (steps.map (Step.perform r))) t) ∧
      ∀ f, out = .error f ↔ w.order.slot = .error f := by
  obtain ⟨lines, hafter⟩ := after_steps hsteps hs
  rw [hafter]
  have hrow := orderedRow_table w.device steps
  cases hw : w.connection? with
  | none =>
    obtain ⟨f, hslot⟩ := Wish.slot_eq_error_of_connection?_eq_none hw
    refine ⟨_, _, exec_drop_of_no_slot hslot _, ⟨by simp, fun h => ?_⟩, by simp, fun _ => Logs.refl _,
      by simp [hslot]⟩
    obtain ⟨slot, hok⟩ := h.slot
    exact absurd (hslot.symm.trans hok) (by simp)
  | some c =>
    have hslot := (Wish.connection?_eq_some_iff.mp hw).2.2.2
    rw [← get?_row_table hw steps]
    rcases exec_drop_fullBand (s := { s with table := Step.table steps, lines := lines }) hall hw hrow with
      ⟨habsent, t, hdrop, hlogs⟩ | ⟨hget, more, hdrop⟩
    · exact ⟨_, t, hdrop, by simp [habsent], by simp, fun _ => hlogs, by simp [hslot]⟩
    · refine ⟨_, _, hdrop, ⟨fun _ => hget, fun _ => ⟨_, rfl⟩⟩, ?_, by simp, by simp [hslot]⟩
      rintro rule hrule
      obtain rfl := Option.some.inj (Except.ok.inj hrule)
      exact takenOff_remove hall hw (Step.keys_nodup_table steps) hrow hget more

/-- A reconciler that takes each device for an amplifier. -/
def amplifiers : Reconciler :=
  ⟨100, "E", "urn:roadm", some fun _ => .inlineAmp⟩

/-- The wish that an amplifier passes a frequency and a width on from port 1 to port 2. -/
def amplifierWish (device : String) (mhz ghz : Int) : Wish :=
  ⟨device, 1, 2, .int mhz, .int ghz⟩

/-- Two amplifiers take orders at neighbouring frequencies, and one of them leaves. -/
def amplifierSteps : List Step :=
  [.add (amplifierWish "amp-1" 193100000 50), .add (amplifierWish "amp-1" 193150000 50),
    .add (amplifierWish "amp-2" 193100000 50), .drop (amplifierWish "amp-1" 193150000 50),
    .deviceRemoved "amp-2"]

/-- What was added is dropped at a frequency and a width that are not quite the same. -/
theorem drop_undoes_add_amplifier :
    ∃ rule t,
      Act.exec ((amplifierWish "amp-1" 193106249 62).order.drop amplifiers)
        ((State.ofDevices []).after (amplifierSteps.map (Step.perform amplifiers)))
        = (.ok (some rule), t) ∧
      TakenOff amplifiers (amplifierWish "amp-1" 193106249 62) rule
        ((State.ofDevices []).after (amplifierSteps.map (Step.perform amplifiers))) t ∧
      rule.slot = ⟨.flex, .ghz6p25, 0, 4⟩ := by
  have hslot : (amplifierWish "amp-1" 193106249 62).order.slot = .ok ⟨.flex, .ghz6p25, 0, 4⟩ :=
    Outcome.eq_ok_of_toOption (by decide +kernel)
  have hfirst : (amplifierWish "amp-1" 193100000 50).order.slot = .ok ⟨.flex, .ghz6p25, 0, 4⟩ :=
    Outcome.eq_ok_of_toOption (by decide +kernel)
  have hsecond : (amplifierWish "amp-1" 193150000 50).order.slot = .ok ⟨.flex, .ghz6p25, 8, 4⟩ :=
    Outcome.eq_ok_of_toOption (by decide +kernel)
  have hstands : (amplifierWish "amp-1" 193106249 62).Stands amplifierSteps := by
    refine ⟨[], amplifierWish "amp-1" 193100000 50, _, rfl, ⟨rfl, rfl, rfl, _, hfirst, hslot⟩, ?_⟩
    simp only [List.forall_mem_cons, Step.Ends]
    refine ⟨id, id, fun hsame => ?_, by decide, by simp⟩
    obtain ⟨slot, h, k⟩ := hsame.slot
    rw [Except.ok.inj (k.symm.trans hslot), hsecond] at h
    exact absurd h (by simp)
  have hfull : ∀ step ∈ amplifierSteps, step.FullBand amplifiers := by
    simp only [amplifierSteps, List.forall_mem_cons]
    exact ⟨⟨_, rfl, rfl⟩, ⟨_, rfl, rfl⟩, ⟨_, rfl, rfl⟩, ⟨_, rfl, rfl⟩, trivial, by simp⟩
  obtain ⟨out, t, hrun, hyields, htaken, -, -⟩ :=
    @drop_undoes_add amplifiers amplifierSteps (amplifierWish "amp-1" 193106249 62)
      (State.ofDevices []) hfull ⟨_, rfl, rfl⟩ rfl
  obtain ⟨rule, rfl⟩ := hyields.mpr hstands
  have hoff := htaken rule rfl
  exact ⟨rule, t, hrun, hoff, Except.ok.inj (hoff.slot.symm.trans hslot)⟩

end Lightpath.CrossConnect
