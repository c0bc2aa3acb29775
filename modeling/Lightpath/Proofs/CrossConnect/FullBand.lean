import Lightpath.CrossConnect.Reconciler
import Lightpath.Proofs.CrossConnect.Standing
import Lightpath.Proofs.Site.Run

/-!
# Devices that forward the whole band

A device that forwards the whole band is never spoken to: the connection table alone tells what it
was asked for. Main statement: whatever calls are made on such devices, a listing of one of them
tells the rules that stand after the demands on it, and no call on another device changes that
(`exec_query_fullBand`).
-/

namespace Lightpath.CrossConnect

open Lightpath.Site

/-! ## Rows of the table -/

namespace Table

/-- Removing a rule drops it from the row of its device, -/
theorem row_remove_self {t : Table} (h : (OrderedMap.keys t).Nodup) (device key : String) :
    (t.remove device key).row device = OrderedMap.drop (t.row device) key := by
  rw [remove]
  by_cases hk : t.has device key = true
  · rw [if_pos hk]
    cases hrow : OrderedMap.drop (t.row device) key with
    | nil =>
      show (OrderedMap.get? (OrderedMap.drop t device) device).getD [] = []
      rw [OrderedMap.get?_drop_self h]
      rfl
    | cons p rest =>
      show (OrderedMap.get? (OrderedMap.put t device (p :: rest)) device).getD [] = p :: rest
      rw [OrderedMap.get?_put_self]
      rfl
  · rw [if_neg hk]
    -- a key that is not there is not missed
    refine (OrderedMap.drop_of_notMem ?_).symm
    rw [OrderedMap.mem_keys_iff]
    exact hk

/-- and leaves the rows of the others. -/
theorem row_remove_of_ne (t : Table) {device other : String} (key : String) (h : device ≠ other) :
    (t.remove device key).row other = t.row other := by
  rw [remove]
  split
  · split
    · rw [row, OrderedMap.get?_drop_of_ne _ h, row]
    · rw [row, OrderedMap.get?_put_of_ne _ _ h, row]
  · rfl

/-- There is nothing to forget of a rule that is not there. -/
theorem remove_of_get?_eq_none {t : Table} {device key : String}
    (h : OrderedMap.get? (t.row device) key = none) : t.remove device key = t := by
  rw [remove, has, OrderedMap.has, h]
  rfl

/-- A device that is cleared has an empty row. -/
theorem row_clear_self {t : Table} (h : (OrderedMap.keys t).Nodup) (device : String) :
    (t.clear device).row device = [] := by
  rw [clear, row, OrderedMap.get?_drop_self h]
  rfl

/-- There is nothing to forget of a device that has no row. -/
theorem clear_of_not_knows {t : Table} {device : String} (h : ¬t.knows device = true) :
    t.clear device = t := by
  refine OrderedMap.drop_of_notMem ?_
  rw [OrderedMap.mem_keys_iff]
  exact h

theorem keys_nodup_remove {t : Table} (h : (OrderedMap.keys t).Nodup) (device key : String) :
    (OrderedMap.keys (t.remove device key)).Nodup := by
  rw [remove]
  split
  · split
    · exact OrderedMap.keys_nodup_drop h _
    · exact OrderedMap.keys_nodup_put h _ _
  · exact h

/-- What a demand on a device makes of the table. -/
def demand (device : String) (t : Table) : Demand → Table
  | .apply rule => t.add device rule.key rule
  | .remove rule => t.remove device rule.key
  | .forget => t.clear device

theorem keys_nodup_demand {t : Table} (h : (OrderedMap.keys t).Nodup) (device : String)
    (d : Demand) :
    (OrderedMap.keys (t.demand device d)).Nodup := by
  cases d with
  | apply rule => exact OrderedMap.keys_nodup_put h _ _
  | remove rule => exact keys_nodup_remove h _ _
  | forget => exact OrderedMap.keys_nodup_drop h _

/-- A demand on a device changes the row of the device. -/
theorem row_demand_self {t : Table} (h : (OrderedMap.keys t).Nodup) (device : String) (d : Demand) :
    (t.demand device d).row device = Demand.change (t.row device) d := by
  cases d with
  | apply rule => exact row_add_self t device rule.key rule
  | remove rule => exact row_remove_self h device rule.key
  | forget => exact row_clear_self h device

/-- A demand on a device leaves the rows of all others alone. -/
theorem row_demand_of_ne (t : Table) {device other : String} (h : device ≠ other) (d : Demand) :
    (t.demand device d).row other = t.row other := by
  cases d with
  | apply rule => exact row_add_of_ne t rule.key rule h
  | remove rule => exact row_remove_of_ne t rule.key h
  | forget => exact row_clear_of_ne t h

/-- Demands leave one row for each device. -/
theorem keys_nodup_demands {t : Table} (h : (OrderedMap.keys t).Nodup) (device : String)
    (ds : List Demand) : (OrderedMap.keys (ds.foldl (demand device) t)).Nodup := by
  induction ds generalizing t with
  | nil => exact h
  | cons d ds ih => exact ih (keys_nodup_demand h device d)

/-- Demands of a device change its row one after the other, -/
theorem row_demands_self {t : Table} (h : (OrderedMap.keys t).Nodup) (device : String)
    (ds : List Demand) :
    (ds.foldl (demand device) t).row device = ds.foldl Demand.change (t.row device) := by
  induction ds generalizing t with
  | nil => rfl
  | cons d ds ih =>
    rw [List.foldl_cons, List.foldl_cons, ih (keys_nodup_demand h device d), row_demand_self h]

/-- and no other row. -/
theorem row_demands_of_ne (t : Table) {device other : String} (h : device ≠ other)
    (ds : List Demand) : (ds.foldl (demand device) t).row other = t.row other := by
  induction ds generalizing t with
  | nil => rfl
  | cons d ds ih => rw [List.foldl_cons, ih, row_demand_of_ne t h]

end Table

/-! ## Calls -/

/-- A call of the reconciler. -/
inductive Call where
  | apply (device : String) (rules : List Rule) (given : Option DeviceType)
  | remove (device : String) (rules : List Rule) (given : Option DeviceType)
  | query (device : String) (given : Option DeviceType)
  | deviceRemoved (device : String)

namespace Call

/-- The device that a call is about. -/
def device : Call → String
  | apply device _ _ => device
  | remove device _ _ => device
  | query device _ => device
  | deviceRemoved device => device

/-- A call as a step; what it yields is not kept. -/
def perform (r : Reconciler) : Call → Act Unit
  | apply device rules given => discard (r.apply device rules given)
  | remove device rules given => discard (r.remove device rules given)
  | query device given => discard (r.query device given)
  | deviceRemoved device => Reconciler.deviceRemoved device

/-- A call is about a device that forwards the whole band, as far as the type of the device matters.
-/
def FullBand (r : Reconciler) : Call → Prop
  | apply device _ given => ∃ type, r.typeOf device given = .ok type ∧ type.isFullBand = true
  | remove device _ given => ∃ type, r.typeOf device given = .ok type ∧ type.isFullBand = true
  | query device given => ∃ type, r.typeOf device given = .ok type ∧ type.isFullBand = true
  | deviceRemoved _ => True

/-- What a call demands of the memory of its device. -/
def demands : Call → List Demand
  | apply _ rules _ => rules.map .apply
  | remove _ rules _ => rules.map .remove
  | query _ _ => []
  | deviceRemoved _ => [.forget]

/-- What some calls demand of the memory of one device. -/
def demandsOn (device : String) (calls : List Call) : List Demand :=
  calls.flatMap fun c => if c.device = device then c.demands else []

theorem demandsOn_cons (device : String) (c : Call) (calls : List Call) :
    demandsOn device (c :: calls)
      = (if c.device = device then c.demands else []) ++ demandsOn device calls :=
  List.flatMap_cons

/-- Calls on other devices demand nothing. -/
theorem demandsOn_eq_filter (device : String) (calls : List Call) :
    demandsOn device calls = demandsOn device (calls.filter fun c => c.device = device) := by
  induction calls with
  | nil => rfl
  | cons c calls ih =>
    rw [demandsOn_cons, ih]
    by_cases hc : c.device = device
    · rw [if_pos hc, List.filter_cons_of_pos (by simpa using hc), demandsOn_cons, if_pos hc]
    · rw [if_neg hc, List.filter_cons_of_neg (by simpa using hc), List.nil_append]

/-- What a call makes of the table. -/
def change (t : Table) (c : Call) : Table :=
  c.demands.foldl (Table.demand c.device) t

/-- **After some calls the row of each device is what the demands on this device have made of it.**
-/
theorem row_foldl_change {t : Table} (h : (OrderedMap.keys t).Nodup) (device : String)
    (calls : List Call) :
    (calls.foldl change t).row device
      = (demandsOn device calls).foldl Demand.change (t.row device) := by
  induction calls generalizing t with
  | nil => rfl
  | cons c calls ih =>
    have hc : (OrderedMap.keys (change t c)).Nodup := Table.keys_nodup_demands h _ _
    rw [List.foldl_cons, ih hc, demandsOn_cons, List.foldl_append]
    congr 1
    by_cases hc : c.device = device
    · rw [if_pos hc, change, hc, Table.row_demands_self h]
    · rw [if_neg hc, change, Table.row_demands_of_ne t hc]
      rfl

end Call

/-! ## Runs -/

variable {r : Reconciler}

namespace Reconciler

/-- A device that forwards all is applied rules in the table only. -/
theorem exec_apply_fullBand {device : String} {given : Option DeviceType} {type : DeviceType}
    (ht : r.typeOf device given = .ok type) (hf : type.isFullBand = true) (rules : List Rule)
    (s : State) :
    Act.exec (r.apply device rules given) s = (.ok (some rules),
      { s with table := Call.change s.table (.apply device rules given) }) := by
  rw [apply, ht, exec_bind_ok (exec_yield_ok type s), if_pos hf, exec_bind_ok (exec_modify _ s),
    exec_pure, Call.change, Call.demands, List.foldl_map]
  rfl

/-- Rules are removed from it in the table only, -/
theorem exec_remove_fullBand {device : String} {given : Option DeviceType} {type : DeviceType}
    (ht : r.typeOf device given = .ok type) (hf : type.isFullBand = true) (rules : List Rule)
    (s : State) :
    Act.exec (r.remove device rules given) s = (.ok (some rules),
      { s with table := Call.change s.table (.remove device rules given) }) := by
  rw [remove, ht, exec_bind_ok (exec_yield_ok type s), if_pos hf, exec_bind_ok (exec_modify _ s),
    exec_pure, Call.change, Call.demands, List.foldl_map]
  rfl

/-- and it is listed from the table, without a session. -/
theorem exec_query_fullBand {device : String} {given : Option DeviceType} {type : DeviceType}
    (ht : r.typeOf device given = .ok type) (hf : type.isFullBand = true) (s : State) :
    Act.exec (r.query device given) s
      = (.ok (some ((s.table.rules device).map fun rule => ⟨rule, .added⟩)), s) := by
  rw [query, ht, exec_bind_ok (exec_yield_ok type s), if_pos hf, exec_bind_ok (exec_get s),
    exec_pure]

/-- A device that is removed is forgotten. -/
theorem exec_deviceRemoved (device : String) (s : State) :
    ∃ lines, Act.exec (deviceRemoved device) s = (.ok (),
      { s with table := Call.change s.table (.deviceRemoved device), lines := lines }) := by
  rw [deviceRemoved, exec_bind_ok (exec_get s)]
  by_cases hk : s.table.knows device = true
  · rw [if_pos hk, exec_bind_ok (exec_modify _ s), info, exec_log]
    exact ⟨_, rfl⟩
  · rw [if_neg hk, exec_pure]
    refine ⟨s.lines, ?_⟩
    show (_, s) = (_, { s with table := s.table.clear device })
    rw [Table.clear_of_not_knows hk]

end Reconciler

/-- A call on a device that forwards the whole band changes the table and sends nothing. -/
theorem exec_perform {c : Call} (h : c.FullBand r) (s : State) :
    ∃ lines, Act.exec (c.perform r) s
      = (.ok (), { s with table := c.change s.table, lines := lines }) := by
  cases c with
  | apply device rules given =>
    obtain ⟨type, ht, hf⟩ := h
    exact ⟨s.lines, exec_bind_ok (Reconciler.exec_apply_fullBand ht hf rules s) _⟩
  | remove device rules given =>
    obtain ⟨type, ht, hf⟩ := h
    exact ⟨s.lines, exec_bind_ok (Reconciler.exec_remove_fullBand ht hf rules s) _⟩
  | query device given =>
    obtain ⟨type, ht, hf⟩ := h
    exact ⟨s.lines, exec_bind_ok (Reconciler.exec_query_fullBand ht hf s) _⟩
  | deviceRemoved device => exact Reconciler.exec_deviceRemoved device s

/-- A run of such calls changes the table call by call and sends nothing. -/
theorem exec_forM_perform {calls : List Call} (h : ∀ c ∈ calls, c.FullBand r) (s : State) :
    ∃ lines, Act.exec (calls.forM (Call.perform r)) s
      = (.ok (), { s with table := calls.foldl Call.change s.table, lines := lines }) := by
  induction calls generalizing s with
  | nil => exact ⟨s.lines, rfl⟩
  | cons c calls ih =>
    obtain ⟨lines, hc⟩ := exec_perform (h c List.mem_cons_self) s
    obtain ⟨more, hcalls⟩ := ih (fun d hd => h d (List.mem_cons_of_mem c hd))
      { s with table := c.change s.table, lines := lines }
    refine ⟨more, ?_⟩
    show Act.exec (c.perform r >>= fun _ => calls.forM (Call.perform r)) s = _
    rw [exec_bind_ok hc, hcalls]
    rfl

/-! ## Listings -/

/-- Some calls, and then a listing of a device. -/
def queryAfter (r : Reconciler) (calls : List Call) (device : String) (given : Option DeviceType) :
    Act (Option (List Entry)) := do
  calls.forM (Call.perform r)
  r.query device given

/-- The listing tells the row that the demands on the device make of an empty one. -/
theorem exec_queryAfter {device : String} {given : Option DeviceType} {type : DeviceType}
    (ht : r.typeOf device given = .ok type) (hf : type.isFullBand = true) {calls : List Call}
    (hcalls : ∀ c ∈ calls, c.FullBand r) {s : State} (hs : s.table = []) :
    ∃ table lines, Act.exec (queryAfter r calls device given) s
      = (.ok (some ((OrderedMap.values ((Call.demandsOn device calls).foldl Demand.change [])).map
          fun rule => ⟨rule, .added⟩)),
        { s with table := table, lines := lines }) := by
  obtain ⟨lines, hrun⟩ := exec_forM_perform hcalls s
  refine ⟨calls.foldl Call.change s.table, lines, ?_⟩
  rw [queryAfter, exec_bind_ok hrun, Reconciler.exec_query_fullBand ht hf]
  simp only [Table.rules]
  rw [Call.row_foldl_change (by rw [hs]; exact List.nodup_nil), hs]
  rfl

/-- **A listing of a device that forwards the whole band tells the rules that stand.** After any run
of calls on such devices, from an empty table on, it has each standing rule once, in its last
version and in the order in which the connections came to stand. The run changes nothing but the
table and the log, so no session is used; and any other run on any other site that makes the same
calls on this device leads to the same listing. -/
theorem queryAfter_lists_standing {device : String} {given : Option DeviceType} {type : DeviceType}
    (ht : r.typeOf device given = .ok type) (hf : type.isFullBand = true) {calls : List Call}
    (hcalls : ∀ c ∈ calls, c.FullBand r) {s : State} (hs : s.table = []) :
    ∃ rules t,
      Act.exec (queryAfter r calls device given) s
        = (.ok (some (rules.map fun rule => ⟨rule, .added⟩)), t) ∧
      { t with table := s.table, lines := s.lines } = s ∧
      Lists (Call.demandsOn device calls) rules ∧
      ∀ (others : List Call) (site : State), (∀ c ∈ others, c.FullBand r) → site.table = [] →
        others.filter (fun c => c.device = device) = calls.filter (fun c => c.device = device) →
        (Act.exec (queryAfter r others device given) site).1
          = .ok (some (rules.map fun rule => ⟨rule, .added⟩)) := by
  obtain ⟨table, lines, hrun⟩ := exec_queryAfter ht hf hcalls hs
  refine ⟨_, _, hrun, rfl, (remembers_row _).lists, ?_⟩
  intro others site hothers hsite hsame
  obtain ⟨_, _, hother⟩ := exec_queryAfter ht hf hothers hsite
  rw [hother, Call.demandsOn_eq_filter device others, hsame, ← Call.demandsOn_eq_filter]

/-- The rule that a port of an amplifier passes one slot on to port 2. -/
def amplifierRule (input : Int) (power : Option Float) : Rule :=
  ⟨"amp-1", input, 2, ⟨.flex, .ghz6p25, 8, 4⟩, power⟩

/-- Calls on two amplifiers: a connection of the first one is removed and comes back with a power.
-/
def amplifierCalls : List Call :=
  [.apply "amp-1" [amplifierRule 1 none, amplifierRule 3 none] (some .inlineAmp),
    .remove "amp-1" [amplifierRule 1 none] (some .inlineAmp),
    .apply "amp-2" [amplifierRule 5 none] (some .inlineAmp),
    .apply "amp-1" [amplifierRule 1 (some (-3.0))] (some .inlineAmp),
    .deviceRemoved "amp-2"]

/-- What the amplifier that is still there tells at the end. -/
theorem queryAfter_lists_standing_amplifier :
    ∃ rules t,
      Act.exec (queryAfter ⟨100, "E", "urn:roadm", none⟩ amplifierCalls "amp-1" (some .inlineAmp))
        (State.ofDevices []) = (.ok (some (rules.map fun rule => ⟨rule, .added⟩)), t) ∧
      Lists (Call.demandsOn "amp-1" amplifierCalls) rules := by
  have hcalls : ∀ c ∈ amplifierCalls, c.FullBand ⟨100, "E", "urn:roadm", none⟩ := by
    intro c hc
    simp only [amplifierCalls, List.mem_cons, List.not_mem_nil, or_false] at hc
    rcases hc with rfl | rfl | rfl | rfl | rfl
    · exact ⟨.inlineAmp, rfl, rfl⟩
    · exact ⟨.inlineAmp, rfl, rfl⟩
    · exact ⟨.inlineAmp, rfl, rfl⟩
    · exact ⟨.inlineAmp, rfl, rfl⟩
    · trivial
  obtain ⟨rules, t, hrun, -, hlists, -⟩ :=
    @queryAfter_lists_standing _ "amp-1" (some .inlineAmp) .inlineAmp rfl rfl _ hcalls
      (State.ofDevices []) rfl
  exact ⟨rules, t, hrun, hlists⟩

end Lightpath.CrossConnect
