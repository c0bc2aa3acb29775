import Lightpath.Proofs.PathPlan.PowerCalls
import Lightpath.Proofs.PathPlan.RouteObjects

/-!
# The route of a well-typed reply

A reply whose route objects are well typed always has a route, and what is in it can be said
without following the objects one by one: the devices are those of the managed hops, each direction
has the devices that have a hop in it, and the power of a device is told behind its last one. Main
statement: `exists_routeOf`.
-/

namespace Lightpath.PathPlan

variable {α β : Type} {scheme device : String} {objects forward reverse positions : List Json}
  {reply : Json} {both : Bool} {r r' : Route} {h : Hop} {m m' : PowerMap}

/-! ## Last hops -/

theorem lastHop?_congr {f g : Json → Option α} (h : ∀ object ∈ objects, f object = g object) :
    lastHop? f objects = lastHop? g objects := by
  induction objects with
  | nil => rfl
  | cons object rest ih =>
    obtain ⟨hobject, hrest⟩ := List.forall_mem_cons.mp h
    cases rest with
    | nil => rfl
    | cons next rest => rw [lastHop?, lastHop?, ih hrest, hobject]

/-- What is made of hops does not change which one is the last. -/
theorem lastHop?_map (f : Json → Option α) (u : α → β) (objects : List Json) :
    lastHop? (fun object => (f object).map u) objects
      = (lastHop? f objects).map fun last => (u last.1, last.2) := by
  induction objects with
  | nil => rfl
  | cons object rest ih =>
    cases rest with
    | nil => rfl
    | cons next rest =>
      rw [lastHop?, lastHop?, ih]
      cases lastHop? f (next :: rest) with
      | some last => rfl
      | none => cases f object <;> rfl

/-- The last hop has nothing behind it but objects of the list. -/
theorem mem_of_lastHop? {f : Json → Option α} {a : α} {after : List Json}
    (h : lastHop? f objects = some (a, after)) : ∀ object ∈ after, object ∈ objects := by
  obtain ⟨before, found, rfl, -⟩ := (lastHop?_eq_some_iff.mp h).here
  exact fun object hobject => List.mem_append_right _ (List.mem_cons_of_mem _ hobject)

/-- A device has a last hop when one of the objects but the final one is a hop of it. -/
theorem lastHop?_hopTo?_isSome_iff :
    (lastHop? (hopTo? device) objects).isSome = true ↔
      device ∈ (objects.dropLast.filterMap hopOf?).map Hop.device := by
  rw [Option.isSome_iff_ne_none, ne_eq, lastHop?_eq_none_iff]
  simp only [hopTo?, List.mem_map, List.mem_filterMap, Option.filter_eq_none_iff]
  push Not
  constructor
  · rintro ⟨object, hobject, h, hhop, hdevice⟩
    exact ⟨h, ⟨object, hobject, hhop⟩, by simpa using hdevice⟩
  · rintro ⟨h, ⟨object, hobject, hhop⟩, hdevice⟩
    exact ⟨object, hobject, h, hhop, by simpa using hdevice⟩

/-! ## Hops of well-typed objects -/

/-- A hop of a device of the scheme is a managed hop, and there is no other managed one. -/
theorem lastHop?_managedHop? (h : ∀ object ∈ objects, WellTyped object) (scheme device : String) :
    lastHop? (managedHop? scheme device) objects
      = if scheme.toList.isPrefixOf device.toList then lastHop? (hopTo? device) objects
        else none := by
  have hmanaged (object : Json) (hobject : object ∈ objects) : managedHop? scheme device object
      = if scheme.toList.isPrefixOf device.toList then hopTo? device object else none := by
    rw [managedHop?, hopIn?_of_wellTyped (h object hobject), hopTo?]
    cases hopOf? object with
    | none => simp
    | some hop =>
      rw [Option.filter_some, Option.filter_some]
      by_cases hdevice : hop.device = device
      · subst hdevice
        cases scheme.toList.isPrefixOf hop.device.toList <;> simp
      · cases scheme.toList.isPrefixOf hop.device.toList <;> simp [hdevice]
  rw [lastHop?_congr hmanaged]
  cases scheme.toList.isPrefixOf device.toList with
  | true => rfl
  | false => exact lastHop?_eq_none_iff.mpr fun _ _ => rfl

/-- An object names a device when it is a hop of it. -/
theorem lastHop?_namedHop? (h : ∀ object ∈ objects, WellTyped object) (device : String) :
    lastHop? (namedHop? device) objects
      = (lastHop? (hopTo? device) objects).map fun last => ((), last.2) := by
  have hnamed (object : Json) (hobject : object ∈ objects) :
      namedHop? device object = (hopTo? device object).map fun _ => () := by
    rw [namedHop?, names_of_wellTyped (h object hobject)]
    cases hopTo? device object <;> rfl
  rw [lastHop?_congr hnamed, lastHop?_map]

/-! ## Following a route -/

/-- Entering the backward powers of a hop never fails on well-typed objects. -/
theorem exists_enterBackward (h : Hop) (hobjects : ∀ object ∈ objects, WellTyped object)
    (m : PowerMap) : ∃ m', enterBackward h objects m = .ok m' := by
  induction objects generalizing m with
  | nil => exact ⟨m, rfl⟩
  | cons object rest ih =>
    obtain ⟨hobject, hrest⟩ := List.forall_mem_cons.mp hobjects
    cases rest with
    | nil => exact ⟨m, rfl⟩
    | cons next rest =>
      rw [enterBackward, names_of_wellTyped hobject]
      cases (hopTo? h.device object).isSome with
      | false => exact ih hrest m
      | true =>
        obtain ⟨m', hm'⟩ := ih hrest (OrderedMap.put m h.device (powerBehind h (next :: rest)))
        refine ⟨m', Outcome.bind_eq_ok_iff.mpr ⟨true, rfl, ?_⟩⟩
        exact Outcome.bind_eq_ok_iff.mpr ⟨_, h.power_of_wellTyped hrest, hm'⟩

/-- **Well-typed objects can be followed.** -/
theorem exists_follow {reverse : Json} (scheme : String)
    (hobjects : ∀ object ∈ objects, WellTyped object)
    (hpositions : reverse.positions = .ok positions)
    (hreverse : ∀ object ∈ positions, WellTyped object) (r : Route) :
    ∃ r', follow scheme reverse objects r = .ok r' := by
  induction objects generalizing r with
  | nil => exact ⟨r, rfl⟩
  | cons object rest ih =>
    obtain ⟨hobject, hrest⟩ := List.forall_mem_cons.mp hobjects
    cases rest with
    | nil => exact ⟨r, rfl⟩
    | cons next rest =>
      rw [follow, hopIn?_of_wellTyped hobject]
      cases (hopOf? object).filter fun h => scheme.toList.isPrefixOf h.device.toList with
      | none => exact ih hrest r
      | some h =>
        obtain ⟨backward, hbackward⟩ := exists_enterBackward h hreverse r.backward
        obtain ⟨r', hr'⟩ := ih hrest ⟨r.devices ++ [h.device],
          OrderedMap.put r.forward h.device (powerBehind h (next :: rest)), backward⟩
        refine ⟨r', Outcome.bind_eq_ok_iff.mpr ⟨some h, rfl, ?_⟩⟩
        refine Outcome.bind_eq_ok_iff.mpr ⟨_, h.power_of_wellTyped hrest, ?_⟩
        refine Outcome.bind_eq_ok_iff.mpr ⟨_, hpositions, ?_⟩
        exact Outcome.bind_eq_ok_iff.mpr ⟨_, hbackward, hr'⟩

/-- A device has one backward power. -/
theorem keys_nodup_enterBackward (hm : (OrderedMap.keys m).Nodup)
    (henter : enterBackward h objects m = .ok m') : (OrderedMap.keys m').Nodup := by
  induction objects generalizing m with
  | nil => rwa [← Except.ok.inj henter]
  | cons object rest ih =>
    cases rest with
    | nil => rwa [← Except.ok.inj henter]
    | cons next rest =>
      rw [enterBackward] at henter
      obtain ⟨named, -, henter⟩ := Outcome.bind_eq_ok_iff.mp henter
      cases named with
      | false => exact ih hm henter
      | true =>
        simp only [if_true] at henter
        obtain ⟨power, -, henter⟩ := Outcome.bind_eq_ok_iff.mp henter
        exact ih (OrderedMap.keys_nodup_put hm _ _) henter

/-- No device stands twice in a map of powers. -/
theorem keys_nodup_follow {reverse : Json} (hforward : (OrderedMap.keys r.forward).Nodup)
    (hbackward : (OrderedMap.keys r.backward).Nodup)
    (hfollow : follow scheme reverse objects r = .ok r') :
    (OrderedMap.keys r'.forward).Nodup ∧ (OrderedMap.keys r'.backward).Nodup := by
  induction objects generalizing r with
  | nil =>
    rw [← Except.ok.inj hfollow]
    exact ⟨hforward, hbackward⟩
  | cons object rest ih =>
    cases rest with
    | nil =>
      rw [← Except.ok.inj hfollow]
      exact ⟨hforward, hbackward⟩
    | cons next rest =>
      obtain ⟨-, hfollow⟩ | ⟨h, power, ps, backward, -, -, -, henter, hfollow⟩ :=
        follow_cons_cons hfollow
      · exact ih hforward hbackward hfollow
      · exact ih (OrderedMap.keys_nodup_put hforward _ _)
          (keys_nodup_enterBackward hbackward henter) hfollow

/-! ## What is followed -/

/-- The devices of the hops among some route objects, in their order; the final object is none. -/
def hopDevices (objects : List Json) : List String :=
  (objects.dropLast.filterMap hopOf?).map Hop.device

section Followed

variable {reverseObjects : Json} (hforward : ∀ object ∈ forward, WellTyped object)
  (hfollow : follow scheme reverseObjects forward ⟨[], [], []⟩ = .ok r)

include hforward hfollow

/-- The devices of a route are the managed ones among the hops, in their order. -/
theorem devices_of_wellTyped :
    r.devices = (hopDevices forward).filter fun d => scheme.toList.isPrefixOf d.toList := by
  rw [devices_of_follow hfollow, hopDevices, List.filter_map, List.filter_filterMap,
    List.map_filterMap, List.nil_append]
  refine List.filterMap_congr fun object hobject => ?_
  rw [hopIn?_of_wellTyped (hforward object (List.dropLast_subset forward hobject))]
  rfl

/-- A device of the route belongs to the scheme and has a last forward hop. -/
theorem mem_devices_of_wellTyped (d : String) :
    d ∈ r.devices ↔ scheme.toList.isPrefixOf d.toList = true ∧
      (lastHop? (hopTo? d) forward).isSome = true := by
  rw [devices_of_wellTyped hforward hfollow, List.mem_filter, lastHop?_hopTo?_isSome_iff,
    hopDevices, and_comm]

/-- The forward power of a managed device is told behind its last hop, -/
theorem get?_forward_of_wellTyped (d : String) :
    OrderedMap.get? r.forward d = if scheme.toList.isPrefixOf d.toList then
      (lastHop? (hopTo? d) forward).map fun last => powerBehind last.1 last.2 else none := by
  rw [get?_forward_of_follow hfollow, lastHop?_managedHop? hforward]
  cases scheme.toList.isPrefixOf d.toList with
  | false => rfl
  | true =>
    simp only [if_true]
    cases hlast : lastHop? (hopTo? d) forward with
    | none => rfl
    | some last =>
      have hpower := last.1.power_of_wellTyped fun object hobject =>
        hforward object (mem_of_lastHop? hlast object hobject)
      show (last.1.power last.2).toOption = _
      rw [hpower]
      rfl

/-- and the backward one behind its last reverse hop. -/
theorem get?_backward_of_wellTyped (hpositions : reverseObjects.positions = .ok reverse)
    (hreverse : ∀ object ∈ reverse, WellTyped object) (d : String) :
    OrderedMap.get? r.backward d = if scheme.toList.isPrefixOf d.toList then
      (lastHop? (hopTo? d) forward).bind fun hop =>
        (lastHop? (hopTo? d) reverse).map fun last => powerBehind hop.1 last.2 else none := by
  have hsame (ps : List Json) (hps : reverseObjects.positions = .ok ps) : ps = reverse :=
    Except.ok.inj (hps.symm.trans hpositions)
  rw [get?_backward_of_follow hsame hfollow, lastHop?_managedHop? hforward,
    lastHop?_namedHop? hreverse]
  cases scheme.toList.isPrefixOf d.toList with
  | false => rfl
  | true =>
    simp only [if_true]
    cases lastHop? (hopTo? d) forward with
    | none => rfl
    | some hop =>
      cases hlast : lastHop? (hopTo? d) reverse with
      | none => rfl
      | some last =>
        have hpower := hop.1.power_of_wellTyped fun object hobject =>
          hreverse object (mem_of_lastHop? hlast object hobject)
        show (hop.1.power last.2).toOption = _
        rw [hpower]
        rfl

end Followed

/-! ## Routes -/

/-- **What a route is made of**, when the reply has these route objects in either direction. -/
structure MadeOf (scheme : String) (forward reverse : List Json) (route : Route) : Prop where
  /-- The devices of the forward hops that belong to the scheme, in their order and with repeats. -/
  devices : route.devices = (hopDevices forward).filter fun d => scheme.toList.isPrefixOf d.toList
  forwardOnce : (OrderedMap.keys route.forward).Nodup
  /-- Each device has a forward power, -/
  forwardKeys : ∀ d, d ∈ OrderedMap.keys route.forward ↔ d ∈ route.devices
  /-- which is told behind its last forward hop. -/
  forwardPower : ∀ d ∈ route.devices, ∃ h after, LastHop (hopTo? d) forward h after ∧
    OrderedMap.get? route.forward d = some (powerBehind h after)
  backwardOnce : (OrderedMap.keys route.backward).Nodup
  /-- A device that has a reverse hop too has a backward power, -/
  backwardKeys : ∀ d,
    d ∈ OrderedMap.keys route.backward ↔ d ∈ route.devices ∧ d ∈ hopDevices reverse
  /-- which is told behind its last reverse hop. The last forward hop tells whether the device is a
  transceiver. -/
  backwardPower : ∀ d ∈ OrderedMap.keys route.backward, ∃ h behind back after,
    LastHop (hopTo? d) forward h behind ∧ LastHop (hopTo? d) reverse back after ∧
    OrderedMap.get? route.backward d = some (powerBehind h after)

/-- **A route is made of its objects** as far as these are well-typed. -/
theorem madeOf_of_follow {reverseObjects : Json} (hforward : ∀ object ∈ forward, WellTyped object)
    (hpositions : reverseObjects.positions = .ok reverse)
    (hreverse : ∀ object ∈ reverse, WellTyped object)
    (hfollow : follow scheme reverseObjects forward ⟨[], [], []⟩ = .ok r) :
    MadeOf scheme forward reverse r := by
  have honce := keys_nodup_follow (r := ⟨[], [], []⟩) List.nodup_nil List.nodup_nil hfollow
  have hdevices := mem_devices_of_wellTyped hforward hfollow
  have hget := get?_forward_of_wellTyped hforward hfollow
  have hgetBack := get?_backward_of_wellTyped hforward hfollow hpositions hreverse
  have hback (d : String) : d ∈ OrderedMap.keys r.backward ↔
      d ∈ r.devices ∧ (lastHop? (hopTo? d) reverse).isSome = true := by
    rw [OrderedMap.mem_keys_iff, hgetBack, hdevices]
    cases scheme.toList.isPrefixOf d.toList <;> cases lastHop? (hopTo? d) forward <;> simp
  refine
    { devices := devices_of_wellTyped hforward hfollow
      forwardOnce := honce.1
      forwardKeys := fun d => ?_
      forwardPower := fun d hd => ?_
      backwardOnce := honce.2
      backwardKeys := fun d => ?_
      backwardPower := fun d hd => ?_ }
  · rw [OrderedMap.mem_keys_iff, hget, hdevices]
    cases scheme.toList.isPrefixOf d.toList <;> simp
  · obtain ⟨hscheme, hsome⟩ := (hdevices d).mp hd
    obtain ⟨last, hlast⟩ := Option.isSome_iff_exists.mp hsome
    refine ⟨last.1, last.2, lastHop?_eq_some_iff.mp hlast, ?_⟩
    rw [hget, if_pos hscheme, hlast]
    rfl
  · rw [hback, lastHop?_hopTo?_isSome_iff, hopDevices]
  · obtain ⟨hroute, hsome⟩ := (hback d).mp hd
    obtain ⟨hscheme, hsomeHop⟩ := (hdevices d).mp hroute
    obtain ⟨hop, hhop⟩ := Option.isSome_iff_exists.mp hsomeHop
    obtain ⟨last, hlast⟩ := Option.isSome_iff_exists.mp hsome
    refine ⟨hop.1, hop.2, last.1, last.2, lastHop?_eq_some_iff.mp hhop,
      lastHop?_eq_some_iff.mp hlast, ?_⟩
    rw [hgetBack, if_pos hscheme, hhop, hlast]
    rfl

/-! ## Whole replies -/

/-- The reverse objects of a reply that has a path can always be told. -/
theorem exists_reverseObjects (hreverse : both = true → HasReverse reply reverse)
    {properties : Json} (hpath : pathIn? reply = some properties) {name : String} {v : Json}
    (hfield : properties.field? name = some v) :
    ∃ objects, reverseObjects properties both = .ok objects ∧
      objects.positions = .ok (if both then reverse else []) := by
  cases both with
  | false => exact ⟨.arr [], rfl, rfl⟩
  | true =>
    obtain ⟨properties', hpath', hobjects⟩ := hreverse rfl
    obtain rfl := Option.some.inj (hpath.symm.trans hpath')
    have hlooked := Json.lookup_of_field? hfield "reversed-path-route-objects"
    obtain hobjects | ⟨rfl, hnone⟩ := hobjects
    · rw [hobjects] at hlooked
      refine ⟨if (Json.arr reverse).truthy then .arr reverse else .arr [],
        Outcome.bind_eq_ok_iff.mpr ⟨.arr reverse, hlooked, rfl⟩, ?_⟩
      cases reverse <;> rfl
    · rw [hnone] at hlooked
      exact ⟨.arr [], Outcome.bind_eq_ok_iff.mpr ⟨.null, hlooked, rfl⟩, rfl⟩

/-- **A reply with well-typed route objects has a route, and it is made of these objects.** In one
direction only the reverse objects do not count, whatever they are. -/
theorem exists_routeOf (scheme : String) (hforward : HasForward reply forward)
    (htyped : ∀ object ∈ forward, WellTyped object)
    (hreverse : both = true → HasReverse reply reverse)
    (htypedReverse : both = true → ∀ object ∈ reverse, WellTyped object) :
    ∃ route, routeOf scheme reply both = .ok route ∧
      MadeOf scheme forward (if both then reverse else []) route := by
  obtain ⟨properties, hpath, hobjects⟩ := hforward
  obtain ⟨objects, hreverseObjects, hpositions⟩ := exists_reverseObjects hreverse hpath hobjects
  have hwellTyped : ∀ object ∈ (if both then reverse else []), WellTyped object := by
    cases both with
    | false => exact fun _ hobject => absurd hobject List.not_mem_nil
    | true => exact htypedReverse rfl
  obtain ⟨route, hfollow⟩ := exists_follow scheme htyped hpositions hwellTyped ⟨[], [], []⟩
  refine ⟨route, ?_, madeOf_of_follow htyped hpositions hwellTyped hfollow⟩
  rw [routeOf]
  refine Outcome.bind_eq_ok_iff.mpr ⟨properties, pathProperties_of_pathIn? hpath, ?_⟩
  refine Outcome.bind_eq_ok_iff.mpr ⟨.arr forward, Json.item_of_field? hobjects, ?_⟩
  refine Outcome.bind_eq_ok_iff.mpr ⟨objects, hreverseObjects, ?_⟩
  exact Outcome.bind_eq_ok_iff.mpr ⟨forward, rfl, hfollow⟩

/-! ## A device that comes again -/

open Planner (hopObject plainObject powerObject)

/-- A route object of a transceiver. -/
def transceiverObject (device : String) : Json :=
  .obj [("path-route-object", .obj [("num-unnum-hop", .obj [("node-id", .str device),
    ("gnpy-node-type", .str "transceiver")])])]

/-- Nothing is asked of a part that an object does not have. -/
theorem of_part?_eq_none {object : Json} {name : String} {holds : Json → Prop}
    (h : part? object name = none) (part : Json) (hpart : part? object name = some part) :
    holds part := by
  rw [h] at hpart
  exact absurd hpart.symm (Option.some_ne_none part)

theorem wellTyped_hopObject (device : String) : WellTyped (hopObject device) where
  record := ⟨_, rfl⟩
  hop := fun _ hhop => ⟨device, by rw [← Option.some.inj hhop]; rfl⟩
  power := of_part?_eq_none rfl

theorem wellTyped_transceiverObject (device : String) : WellTyped (transceiverObject device) where
  record := ⟨_, rfl⟩
  hop := fun _ hhop => ⟨device, by rw [← Option.some.inj hhop]; rfl⟩
  power := of_part?_eq_none rfl

theorem wellTyped_powerObject (power : Float) : WellTyped (powerObject power) where
  record := ⟨_, rfl⟩
  hop := of_part?_eq_none rfl
  power := fun _ htarget => ⟨.float power, power, by rw [← Option.some.inj htarget]; rfl, rfl⟩

theorem wellTyped_plainObject : WellTyped plainObject where
  record := ⟨_, rfl⟩
  hop := of_part?_eq_none rfl
  power := of_part?_eq_none rfl

/-- A route that passes a device twice and then a transceiver. -/
def againObjects : List Json :=
  [hopObject "netconf:a", plainObject, powerObject (-2.0), hopObject "netconf:a", plainObject,
    powerObject (-5.0), transceiverObject "netconf:t", plainObject, powerObject (-1.0), plainObject]

/-- A route in the reverse direction that ends on its last device. -/
def shortObjects : List Json :=
  [transceiverObject "netconf:t", hopObject "netconf:a", hopObject "netconf:x"]

/-- A reply with these route objects. -/
def againReply : Json :=
  .obj [("result", .obj [("response", .arr [.obj [("path-properties", .obj [
    ("path-route-objects", .arr againObjects),
    ("reversed-path-route-objects", .arr shortObjects)])]])])]

/-- The route of this reply: the last power counts, the transceiver has none, and the final object
of the reverse route is no hop. -/
theorem exists_routeOf_againReply :
    ∃ route, routeOf "netconf:" againReply true = .ok route ∧
      MadeOf "netconf:" againObjects shortObjects route ∧
      route.devices = ["netconf:a", "netconf:a", "netconf:t"] ∧
      OrderedMap.keys route.backward = ["netconf:a", "netconf:t"] := by
  have htyped : ∀ object ∈ againObjects, WellTyped object := by
    simp [againObjects, wellTyped_hopObject, wellTyped_plainObject, wellTyped_powerObject,
      wellTyped_transceiverObject]
  have htypedReverse : ∀ object ∈ shortObjects, WellTyped object := by
    simp [shortObjects, wellTyped_hopObject, wellTyped_transceiverObject]
  have hforward : HasForward againReply againObjects := ⟨_, rfl, rfl⟩
  have hreverse : HasReverse againReply shortObjects := ⟨_, rfl, Or.inl rfl⟩
  obtain ⟨route, hroute, hmade⟩ : ∃ route, routeOf "netconf:" againReply true = .ok route ∧ _ :=
    exists_routeOf "netconf:" hforward htyped (fun _ => hreverse) fun _ => htypedReverse
  have hkeys : (routeOf "netconf:" againReply true).toOption.map
      (fun route => (route.devices, OrderedMap.keys route.backward))
      = some (["netconf:a", "netconf:a", "netconf:t"], ["netconf:a", "netconf:t"]) := by
    decide +kernel
  rw [hroute] at hkeys
  obtain ⟨hdevices, hbackward⟩ := Prod.mk.inj (Option.some.inj hkeys)
  exact ⟨route, hroute, hmade, hdevices, hbackward⟩

end Lightpath.PathPlan
