import Lightpath.PathPlan.Reply
import Lightpath.Proofs.OrderedMap
import Lightpath.Proofs.Outcome

/-!
# The powers in a reply

A route may pass a device again and again. Of its hops the last one tells its power, and the final
route object counts as none. Main statements: the powers that a plan knows are those that the reply
tells behind the last hops of each device (`known?_forward_iff`, `known?_backward_iff`), and its launch
power is that of the first metric of this kind (`known_launchPower_iff`).
-/

namespace Lightpath.PathPlan

variable {α : Type} {scheme device : String} {h : Hop} {object : Json} {objects after : List Json}

/-! ## The last hop -/

/-- **The last of some route objects that is a hop of the kind sought**, with the objects behind it. The
final object is never one. -/
structure LastHop (hopIn : Json → Option α) (objects : List Json) (a : α) (after : List Json) : Prop where
  here : ∃ before object, objects = before ++ object :: after ∧ hopIn object = some a
  notFinal : after ≠ []
  last : ∀ object ∈ after.dropLast, hopIn object = none

/-- Looks for the last hop. -/
def lastHop? (hopIn : Json → Option α) : List Json → Option (α × List Json)
  | object :: next :: rest =>
    match lastHop? hopIn (next :: rest) with
    | some found => some found
    | none => (hopIn object).map fun a => (a, next :: rest)
  | _ => none

variable {hopIn : Json → Option α} {a : α}

/-- No last hop is found just when no object but the final one is a hop. -/
theorem lastHop?_eq_none_iff :
    lastHop? hopIn objects = none ↔ ∀ object ∈ objects.dropLast, hopIn object = none := by
  induction objects with
  | nil => simp [lastHop?]
  | cons object objects ih =>
    cases objects with
    | nil => simp [lastHop?]
    | cons next rest =>
      rw [lastHop?, List.dropLast_cons_cons, List.forall_mem_cons, ← ih]
      cases lastHop? hopIn (next :: rest) with
      | none => simp
      | some found => simp

/-- What is found is the last hop. -/
theorem lastHop?_eq_some_iff :
    lastHop? hopIn objects = some (a, after) ↔ LastHop hopIn objects a after := by
  induction objects with
  | nil =>
    refine ⟨fun h => absurd h (by simp [lastHop?]), fun h => ?_⟩
    obtain ⟨before, object, hobjects, -⟩ := h.here
    exact absurd hobjects (by simp)
  | cons object objects ih =>
    cases objects with
    | nil =>
      refine ⟨fun h => absurd h (by simp [lastHop?]), fun h => ?_⟩
      obtain ⟨before, object', hobjects, -⟩ := h.here
      have hlength := congrArg List.length hobjects
      have hafter := List.length_pos_of_ne_nil h.notFinal
      simp only [List.length_append, List.length_cons, List.length_nil] at hlength
      omega
    | cons next rest =>
      rw [lastHop?]
      constructor
      · intro h
        cases hfound : lastHop? hopIn (next :: rest) with
        | some found =>
          rw [hfound] at h
          obtain rfl := Option.some.inj h
          obtain ⟨⟨before, object', hobjects, hhop⟩, hfinal, hlast⟩ := ih.mp hfound
          exact ⟨⟨object :: before, object', by rw [hobjects, List.cons_append], hhop⟩, hfinal, hlast⟩
        | none =>
          rw [hfound] at h
          obtain ⟨b, hhop, hb⟩ := Option.map_eq_some_iff.mp h
          obtain ⟨rfl, rfl⟩ := Prod.mk.inj hb
          exact ⟨⟨[], object, rfl, hhop⟩, List.cons_ne_nil _ _, lastHop?_eq_none_iff.mp hfound⟩
      · rintro ⟨⟨before, object', hobjects, hhop⟩, hfinal, hlast⟩
        cases before with
        | nil =>
          obtain ⟨rfl, rfl⟩ := List.cons.inj hobjects
          rw [lastHop?_eq_none_iff.mpr hlast]
          simp [hhop]
        | cons b before =>
          obtain ⟨rfl, htail⟩ := List.cons.inj hobjects
          rw [ih.mpr ⟨⟨before, object', htail, hhop⟩, hfinal, hlast⟩]

/-! ## Hops of a device -/

/-- The hop of a managed device in a route object. -/
def managedHop? (scheme device : String) (object : Json) : Option Hop :=
  match hopIn? scheme object with
  | .ok (some h) => if h.device = device then some h else none
  | _ => none

/-- A route object names a device. -/
def namedHop? (device : String) (object : Json) : Option Unit :=
  match names object device with
  | .ok true => some ()
  | _ => none

theorem managedHop?_of_none (h : hopIn? scheme object = .ok none) :
    managedHop? scheme device object = none := by
  rw [managedHop?, h]

theorem managedHop?_of_some (hhop : hopIn? scheme object = .ok (some h)) :
    managedHop? scheme device object = if h.device = device then some h else none := by
  rw [managedHop?, hhop]

/-! ## Powers in the reverse direction -/

variable {m m' : PowerMap}

/-- The powers of other devices stay. -/
theorem get?_enterBackward_of_ne (henter : enterBackward h objects m = .ok m')
    (hne : h.device ≠ device) : OrderedMap.get? m' device = OrderedMap.get? m device := by
  induction objects generalizing m with
  | nil => rw [← Except.ok.inj henter]
  | cons object objects ih =>
    cases objects with
    | nil => rw [← Except.ok.inj henter]
    | cons next rest =>
      rw [enterBackward] at henter
      obtain ⟨named, -, henter⟩ := Outcome.bind_eq_ok_iff.mp henter
      cases named with
      | false => exact ih henter
      | true =>
        simp only [if_true] at henter
        obtain ⟨power, -, henter⟩ := Outcome.bind_eq_ok_iff.mp henter
        rw [ih henter, OrderedMap.get?_put_of_ne _ _ hne]

/-- The power of the device is the one behind its last hop. -/
theorem get?_enterBackward_self (henter : enterBackward h objects m = .ok m') :
    OrderedMap.get? m' h.device = (lastHop? (namedHop? h.device) objects).elim
      (OrderedMap.get? m h.device) fun last => (h.power last.2).toOption := by
  induction objects generalizing m with
  | nil => rw [← Except.ok.inj henter]; rfl
  | cons object objects ih =>
    cases objects with
    | nil => rw [← Except.ok.inj henter]; rfl
    | cons next rest =>
      rw [enterBackward] at henter
      obtain ⟨named, hnamed, henter⟩ := Outcome.bind_eq_ok_iff.mp henter
      rw [lastHop?, namedHop?, hnamed]
      cases named with
      | false =>
        rw [ih henter]
        cases lastHop? (namedHop? h.device) (next :: rest) <;> rfl
      | true =>
        simp only [if_true] at henter
        obtain ⟨power, hpower, henter⟩ := Outcome.bind_eq_ok_iff.mp henter
        rw [ih henter, OrderedMap.get?_put_self]
        cases lastHop? (namedHop? h.device) (next :: rest) with
        | some last => rfl
        | none =>
          show some power = (h.power (next :: rest)).toOption
          rw [hpower]
          rfl

/-! ## Following a route -/

variable {reverse : Json} {r r' : Route}

/-- One step along a route: an object that is no managed hop is passed by, and a managed hop is
entered in both directions. -/
theorem follow_cons_cons {next : Json} {rest : List Json}
    (hfollow : follow scheme reverse (object :: next :: rest) r = .ok r') :
    (hopIn? scheme object = .ok none ∧ follow scheme reverse (next :: rest) r = .ok r') ∨
      ∃ h power positions backward, hopIn? scheme object = .ok (some h) ∧
        h.power (next :: rest) = .ok power ∧ reverse.positions = .ok positions ∧
        enterBackward h positions r.backward = .ok backward ∧
        follow scheme reverse (next :: rest)
          ⟨r.devices ++ [h.device], OrderedMap.put r.forward h.device power, backward⟩ = .ok r' := by
  rw [follow] at hfollow
  obtain ⟨found, hhop, hfollow⟩ := Outcome.bind_eq_ok_iff.mp hfollow
  cases found with
  | none => exact Or.inl ⟨hhop, hfollow⟩
  | some h =>
    obtain ⟨power, hpower, hfollow⟩ := Outcome.bind_eq_ok_iff.mp hfollow
    obtain ⟨positions, hpositions, hfollow⟩ := Outcome.bind_eq_ok_iff.mp hfollow
    obtain ⟨backward, hbackward, hfollow⟩ := Outcome.bind_eq_ok_iff.mp hfollow
    exact Or.inr ⟨h, power, positions, backward, hhop, hpower, hpositions, hbackward, hfollow⟩

/-- **The forward power of a device is the one behind its last hop.** -/
theorem get?_forward_of_follow (hfollow : follow scheme reverse objects r = .ok r')
    (device : String) :
    OrderedMap.get? r'.forward device = (lastHop? (managedHop? scheme device) objects).elim
      (OrderedMap.get? r.forward device) fun last => (last.1.power last.2).toOption := by
  induction objects generalizing r with
  | nil => rw [← Except.ok.inj hfollow]; rfl
  | cons object objects ih =>
    cases objects with
    | nil => rw [← Except.ok.inj hfollow]; rfl
    | cons next rest =>
      rw [lastHop?]
      obtain ⟨hhop, hfollow⟩ | ⟨h, power, positions, backward, hhop, hpower, -, -, hfollow⟩ :=
        follow_cons_cons hfollow
      · rw [ih hfollow, managedHop?_of_none hhop]
        cases lastHop? (managedHop? scheme device) (next :: rest) <;> rfl
      · rw [ih hfollow, managedHop?_of_some hhop]
        cases lastHop? (managedHop? scheme device) (next :: rest) with
        | some last => rfl
        | none =>
          by_cases hdevice : h.device = device
          · subst hdevice
            simp [OrderedMap.get?_put_self, hpower, Except.toOption]
          · simp [OrderedMap.get?_put_of_ne _ _ hdevice, hdevice]

/-- **The backward power of a device is the one behind its last hop in the reverse direction**, if it
has a hop in the forward one. The last forward hop tells whether the device is a transceiver. -/
theorem get?_backward_of_follow {positions : List Json}
    (hpositions : ∀ ps, reverse.positions = .ok ps → ps = positions)
    (hfollow : follow scheme reverse objects r = .ok r') (device : String) :
    OrderedMap.get? r'.backward device = (lastHop? (managedHop? scheme device) objects).elim
      (OrderedMap.get? r.backward device) fun hop =>
        (lastHop? (namedHop? device) positions).elim (OrderedMap.get? r.backward device) fun last =>
          (hop.1.power last.2).toOption := by
  induction objects generalizing r with
  | nil => rw [← Except.ok.inj hfollow]; rfl
  | cons object objects ih =>
    cases objects with
    | nil => rw [← Except.ok.inj hfollow]; rfl
    | cons next rest =>
      rw [lastHop?]
      obtain ⟨hhop, hfollow⟩ | ⟨h, power, ps, backward, hhop, -, hps, hbackward, hfollow⟩ :=
        follow_cons_cons hfollow
      · rw [ih hfollow, managedHop?_of_none hhop]
        cases lastHop? (managedHop? scheme device) (next :: rest) <;> rfl
      · obtain rfl := hpositions ps hps
        rw [ih hfollow, managedHop?_of_some hhop]
        by_cases hdevice : h.device = device
        · subst hdevice
          -- a later hop of the device enters the same place again
          have hentered := get?_enterBackward_self hbackward
          cases lastHop? (managedHop? scheme h.device) (next :: rest) <;>
            cases hlast : lastHop? (namedHop? h.device) ps <;> simp_all
        · have hentered := get?_enterBackward_of_ne hbackward hdevice
          cases lastHop? (managedHop? scheme device) (next :: rest) <;> simp [hentered, hdevice]

/-- The devices of a route are those of its managed hops, each as often as it has one. -/
theorem devices_of_follow (hfollow : follow scheme reverse objects r = .ok r') :
    r'.devices = r.devices ++ objects.dropLast.filterMap fun object =>
      match hopIn? scheme object with
      | .ok found => found.map Hop.device
      | .error _ => none := by
  induction objects generalizing r with
  | nil => rw [← Except.ok.inj hfollow]; simp
  | cons object objects ih =>
    cases objects with
    | nil => rw [← Except.ok.inj hfollow]; simp
    | cons next rest =>
      obtain ⟨hhop, hfollow⟩ | ⟨h, power, ps, backward, hhop, -, -, -, hfollow⟩ :=
        follow_cons_cons hfollow
      · rw [ih hfollow]
        simp [hhop]
      · rw [ih hfollow]
        simp [hhop]

/-- The route has the devices that have a managed hop. -/
theorem mem_devices_of_follow {d : String}
    (hfollow : follow scheme reverse objects ⟨[], [], []⟩ = .ok r') :
    d ∈ r'.devices ↔ ∃ h after, LastHop (managedHop? scheme d) objects h after := by
  have hhops : d ∈ r'.devices ↔ ∃ object ∈ objects.dropLast, managedHop? scheme d object ≠ none := by
    rw [devices_of_follow hfollow, List.nil_append, List.mem_filterMap]
    refine exists_congr fun object => and_congr_right fun _ => ?_
    rw [managedHop?]
    cases hopIn? scheme object with
    | error f => simp
    | ok found => cases found <;> simp
  rw [hhops]
  cases hlast : lastHop? (managedHop? scheme d) objects with
  | some last =>
    have hnone := lastHop?_eq_none_iff.not.mp (Option.ne_none_iff_exists'.mpr ⟨last, hlast⟩)
    push Not at hnone
    exact iff_of_true hnone ⟨last.1, last.2, lastHop?_eq_some_iff.mp hlast⟩
  | none =>
    have hnone := lastHop?_eq_none_iff.mp hlast
    refine iff_of_false ?_ ?_
    · push Not
      exact hnone
    · rintro ⟨h, after, hlast'⟩
      exact absurd (lastHop?_eq_some_iff.mpr hlast') (by simp [hlast])

/-! ## The powers that a reply gives -/

/-- The forward route objects of a reply. -/
def forwardList (reply : Json) : Outcome (List Json) := do
  (← forwardObjects (← pathProperties reply)).positions

/-- The reverse route objects of a reply: none unless both directions are planned. -/
def reverseList (reply : Json) (both : Bool) : Outcome (List Json) := do
  (← reverseObjects (← pathProperties reply) both).positions

/-- Of the objects behind a hop the second one tells a power that is known. -/
def TellsPower (after : List Json) (v : Float) : Prop :=
  ∃ object, after[1]? = some object ∧ perHopPower object = .ok v ∧ (v == unknownPower) = false

/-- **A reply gives a device a forward power**: its last forward hop is no transceiver, and the power is
told behind it. -/
def ForwardPower (scheme : String) (reply : Json) (device : String) (v : Float) : Prop :=
  ∃ objects h after, forwardList reply = .ok objects ∧
    LastHop (managedHop? scheme device) objects h after ∧ h.isTransceiver = false ∧
    TellsPower after v

/-- **A reply gives a device a backward power**: its last forward hop is no transceiver, and the power is
told behind its last reverse hop. -/
def BackwardPower (scheme : String) (reply : Json) (both : Bool) (device : String) (v : Float) :
    Prop :=
  ∃ objects h behind positions after, forwardList reply = .ok objects ∧
    LastHop (managedHop? scheme device) objects h behind ∧ h.isTransceiver = false ∧
    reverseList reply both = .ok positions ∧ LastHop (namedHop? device) positions () after ∧
    TellsPower after v

/-- The power of a device, if it is known. -/
def PowerMap.known? (m : PowerMap) (device : String) : Option Float :=
  (OrderedMap.get? m device).filter fun v => !(v == unknownPower)

/-- A power is known if it is entered and is not the marker. -/
theorem PowerMap.known?_eq_some_iff {m : PowerMap} {v : Float} :
    m.known? device = some v ↔ OrderedMap.get? m device = some v ∧ (v == unknownPower) = false := by
  rw [known?, Option.filter_eq_some_iff, Bool.not_eq_true']

theorem unknownPower_beq_self : (unknownPower == unknownPower) = true := by decide +kernel

/-- A power of a hop is known when it is told behind it and the hop is no transceiver. -/
theorem known_power_iff {v : Float} :
    (h.power after).toOption = some v ∧ (v == unknownPower) = false ↔
      h.isTransceiver = false ∧ TellsPower after v := by
  have hunknown {w : Float} (hw : some unknownPower = some w) (hknown : (w == unknownPower) = false) :
      False := by
    rw [← Option.some.inj hw, unknownPower_beq_self] at hknown
    exact absurd hknown (by simp)
  rw [Hop.power]
  cases h.isTransceiver with
  | true => exact iff_of_false (fun h => hunknown h.1 h.2) (by simp)
  | false =>
    match after with
    | [] => exact iff_of_false (fun h => hunknown h.1 h.2) (by simp [TellsPower])
    | [_] => exact iff_of_false (fun h => hunknown h.1 h.2) (by simp [TellsPower])
    | _ :: object :: _ =>
      simp only [Bool.false_eq_true, if_false, powerAfter, true_and, TellsPower, List.getElem?_cons_succ,
        List.getElem?_cons_zero, Option.some.injEq, exists_eq_left']
      refine and_congr_left fun _ => ⟨Outcome.eq_ok_of_toOption, fun hpower => ?_⟩
      rw [hpower]
      rfl

variable {reply : Json} {both : Bool} {route : Route}

/-- A route was followed through the route objects of the reply. -/
theorem follow_of_routeOf (hroute : routeOf scheme reply both = .ok route) :
    ∃ objects reverse, forwardList reply = .ok objects ∧ reverseList reply both = reverse.positions ∧
      follow scheme reverse objects ⟨[], [], []⟩ = .ok route := by
  rw [routeOf] at hroute
  obtain ⟨properties, hproperties, hroute⟩ := Outcome.bind_eq_ok_iff.mp hroute
  obtain ⟨forward, hforward, hroute⟩ := Outcome.bind_eq_ok_iff.mp hroute
  obtain ⟨reverse, hreverse, hroute⟩ := Outcome.bind_eq_ok_iff.mp hroute
  obtain ⟨objects, hobjects, hfollow⟩ := Outcome.bind_eq_ok_iff.mp hroute
  refine ⟨objects, reverse, ?_, ?_, hfollow⟩
  · exact Outcome.bind_eq_ok_iff.mpr
      ⟨properties, hproperties, Outcome.bind_eq_ok_iff.mpr ⟨forward, hforward, hobjects⟩⟩
  · rw [reverseList, hproperties]
    show (reverseObjects properties both >>= Json.positions) = reverse.positions
    rw [hreverse]
    rfl

/-- **The forward powers of a plan are those that the reply gives.** -/
theorem known?_forward_iff (hroute : routeOf scheme reply both = .ok route) {v : Float} :
    route.forward.known? device = some v ↔ ForwardPower scheme reply device v := by
  obtain ⟨objects, reverse, hobjects, -, hfollow⟩ := follow_of_routeOf hroute
  rw [PowerMap.known?_eq_some_iff, get?_forward_of_follow hfollow]
  constructor
  · rintro ⟨hget, hknown⟩
    cases hlast : lastHop? (managedHop? scheme device) objects with
    | none =>
      rw [hlast] at hget
      exact absurd hget (by simp)
    | some last =>
      rw [hlast] at hget
      obtain ⟨hplain, htells⟩ := known_power_iff.mp ⟨hget, hknown⟩
      exact ⟨objects, last.1, last.2, hobjects, lastHop?_eq_some_iff.mp hlast, hplain, htells⟩
  · rintro ⟨objects', h, after, hobjects', hlast, hplain, htells⟩
    obtain rfl := Except.ok.inj (hobjects.symm.trans hobjects')
    rw [lastHop?_eq_some_iff.mpr hlast]
    exact known_power_iff.mpr ⟨hplain, htells⟩

/-- **The backward powers of a plan are those that the reply gives.** -/
theorem known?_backward_iff (hroute : routeOf scheme reply both = .ok route) {v : Float} :
    route.backward.known? device = some v ↔ BackwardPower scheme reply both device v := by
  obtain ⟨objects, reverse, hobjects, hreverse, hfollow⟩ := follow_of_routeOf hroute
  have hpositions (ps : List Json) (hps : reverse.positions = .ok ps) :
      ps = reverse.positions.toOption.getD [] := by
    rw [hps]
    rfl
  rw [PowerMap.known?_eq_some_iff, get?_backward_of_follow hpositions hfollow]
  constructor
  · rintro ⟨hget, hknown⟩
    cases hlast : lastHop? (managedHop? scheme device) objects with
    | none =>
      rw [hlast] at hget
      exact absurd hget (by simp)
    | some hop =>
      cases hback : lastHop? (namedHop? device) (reverse.positions.toOption.getD []) with
      | none =>
        rw [hlast, hback] at hget
        exact absurd hget (by simp)
      | some last =>
        rw [hlast, hback] at hget
        obtain ⟨hplain, htells⟩ := known_power_iff.mp ⟨hget, hknown⟩
        cases hps : reverse.positions with
        | error f =>
          rw [hps] at hback
          exact absurd hback (by simp [Except.toOption, lastHop?])
        | ok ps =>
          rw [hps] at hback
          exact ⟨objects, hop.1, hop.2, ps, last.2, hobjects, lastHop?_eq_some_iff.mp hlast, hplain,
            hreverse.trans hps, lastHop?_eq_some_iff.mp hback, htells⟩
  · rintro ⟨objects', h, behind, ps, after, hobjects', hlast, hplain, hps, hback, htells⟩
    obtain rfl := Except.ok.inj (hobjects.symm.trans hobjects')
    have hpositions : reverse.positions = .ok ps := hreverse.symm.trans hps
    rw [lastHop?_eq_some_iff.mpr hlast, hpositions]
    show ((lastHop? (namedHop? device) ps).elim _ _ = some v) ∧ _
    rw [lastHop?_eq_some_iff.mpr hback]
    exact known_power_iff.mpr ⟨hplain, htells⟩

/-- A device has no power unless it is on the route. -/
theorem mem_devices_of_forwardPower {v : Float} (hroute : routeOf scheme reply both = .ok route)
    (hpower : ForwardPower scheme reply device v ∨ BackwardPower scheme reply both device v) :
    device ∈ route.devices := by
  obtain ⟨objects, reverse, hobjects, -, hfollow⟩ := follow_of_routeOf hroute
  rw [mem_devices_of_follow hfollow]
  obtain ⟨objects', h, after, hobjects', hlast, -⟩ | ⟨objects', h, after, -, -, hobjects', hlast, -⟩ :=
    hpower
  · obtain rfl := Except.ok.inj (hobjects.symm.trans hobjects')
    exact ⟨h, after, hlast⟩
  · obtain rfl := Except.ok.inj (hobjects.symm.trans hobjects')
    exact ⟨h, after, hlast⟩

/-- In one direction only, no backward power is given. -/
theorem not_backwardPower_oneWay {v : Float} : ¬ BackwardPower scheme reply false device v := by
  rintro ⟨-, -, -, positions, after, -, -, -, hpositions, hlast, -⟩
  rw [reverseList] at hpositions
  obtain ⟨properties, -, hpositions⟩ := Outcome.bind_eq_ok_iff.mp hpositions
  obtain rfl : [] = positions := Except.ok.inj hpositions
  obtain ⟨before, object, hobjects, -⟩ := hlast.here
  exact absurd hobjects (by simp)

/-! ## The launch power -/

/-- A metric is of a kind. -/
def isMetric (kind : String) (metric : Json) : Bool :=
  match metric.lookup "metric-type" with
  | .ok type => type.isText kind
  | .error _ => false

/-- The metrics of a reply. -/
def metricList (reply : Json) : Outcome (List Json) := do
  metricsOf (← pathProperties reply)

/-- **A reply carries a launch power**: the first metric of this kind has one that is known. -/
def LaunchPower (reply : Json) (v : Float) : Prop :=
  ∃ metrics metric, metricList reply = .ok metrics ∧
    metrics.find? (isMetric "reference_power") = some metric ∧
    (metric.item "accumulative-value" >>= Json.toFloat) = .ok v ∧ (v == unknownPower) = false

/-- A reply with a path has a response. -/
theorem hasResponse_of_pathProperties {properties : Json}
    (h : pathProperties reply = .ok properties) : hasResponse reply = .ok true := by
  rw [pathProperties] at h
  obtain ⟨result, hresult, h⟩ := Outcome.bind_eq_ok_iff.mp h
  obtain ⟨responses, hresponse, -⟩ := Outcome.bind_eq_ok_iff.mp h
  cases reply with
  | obj fields =>
    cases hget : OrderedMap.get? fields "result" with
    | none => simp [Json.item, hget] at hresult
    | some found =>
      obtain rfl : found = result := by simpa [Json.item, hget] using hresult
      cases found with
      | obj inner =>
        cases hinner : OrderedMap.get? inner "response" with
        | none => simp [Json.item, hinner] at hresponse
        | some response =>
          have hhas : OrderedMap.has inner "response" = true := by
            rw [OrderedMap.has, hinner]
            rfl
          have htruthy : (Json.obj inner).truthy = true := by
            cases inner with
            | nil => exact absurd hinner (by simp [OrderedMap.get?])
            | cons f rest => rfl
          rw [hasResponse, hget]
          simp [htruthy, Json.holds, hhas]
      | _ => simp [Json.item] at hresponse
  | _ => simp [Json.item] at hresult

/-- The value of a metric is that of the first one of its kind, if there is one. -/
theorem find?_of_metricIn {kind : String} {default v : Float} {metrics : List Json}
    (h : metricIn kind default metrics = .ok v) :
    (∃ metric, metrics.find? (isMetric kind) = some metric ∧
        (metric.item "accumulative-value" >>= Json.toFloat) = .ok v) ∨
      metrics.find? (isMetric kind) = none ∧ v = default := by
  induction metrics with
  | nil => exact Or.inr ⟨rfl, (Except.ok.inj h).symm⟩
  | cons metric metrics ih =>
    rw [metricIn] at h
    obtain ⟨type, htype, h⟩ := Outcome.bind_eq_ok_iff.mp h
    cases hkind : type.isText kind with
    | true =>
      rw [hkind] at h
      exact Or.inl ⟨metric, by simp [isMetric, htype, hkind], h⟩
    | false =>
      rw [hkind] at h
      simpa [isMetric, htype, hkind] using ih h

/-- **The launch power of a plan is the one that the reply carries.** -/
theorem known_launchPower_iff {properties : Json} {launch v : Float}
    (hproperties : pathProperties reply = .ok properties) (hlaunch : launchPowerOf reply = .ok launch) :
    launch = v ∧ (v == unknownPower) = false ↔ LaunchPower reply v := by
  rw [launchPowerOf, metricOf, hasResponse_of_pathProperties hproperties] at hlaunch
  obtain ⟨responds, hresponds, hlaunch⟩ := Outcome.bind_eq_ok_iff.mp hlaunch
  obtain rfl := Except.ok.inj hresponds
  obtain ⟨properties', hproperties', hlaunch⟩ := Outcome.bind_eq_ok_iff.mp hlaunch
  obtain ⟨metrics, hmetrics, hlaunch⟩ := Outcome.bind_eq_ok_iff.mp hlaunch
  have hlist : metricList reply = .ok metrics :=
    Outcome.bind_eq_ok_iff.mpr ⟨properties', hproperties', hmetrics⟩
  constructor
  · rintro ⟨rfl, hknown⟩
    obtain ⟨metric, hfound, hvalue⟩ | ⟨-, rfl⟩ := find?_of_metricIn hlaunch
    · exact ⟨metrics, metric, hlist, hfound, hvalue, hknown⟩
    · rw [unknownPower_beq_self] at hknown
      exact absurd hknown (by simp)
  · rintro ⟨metrics', metric, hlist', hfound, hvalue, hknown⟩
    obtain rfl := Except.ok.inj (hlist.symm.trans hlist')
    obtain ⟨metric', hfound', hvalue'⟩ | ⟨hnone, -⟩ := find?_of_metricIn hlaunch
    · obtain rfl := Option.some.inj (hfound.symm.trans hfound')
      exact ⟨Except.ok.inj (hvalue'.symm.trans hvalue), hknown⟩
    · exact absurd (hnone.symm.trans hfound) (by simp)

end Lightpath.PathPlan
