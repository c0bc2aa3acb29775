import Lightpath.Proofs.PathPlan.LinkedPath
import Lightpath.Proofs.PathPlan.Malformed
import Lightpath.Proofs.PathPlan.PowerCalls

/-!
# Which powers reach a device

A power comes from a reply of any shape, and between the reply and the control of powers there is one test:
whether it is the power that stands for an unknown one. So every power that is passed on is another one, and
it is the one that the reply gives to its device. Nothing asks whether it is finite: it is if the powers in
the reply are. Main statement: `passesOnly_obtain`, for every engine, adjacency and control of powers.
-/

/-! ## Calls that are made -/

namespace Lightpath.Power

open Lightpath.Site

variable {α : Type} {P : Call → Prop} {control other : Control} {step : Control → Act α} {s : State}

/-- One control of powers can stand in for another one as long as all calls are of a kind. -/
structure Control.AgreesOn (P : Call → Prop) (other control : Control) : Prop where
  supports : other.supports = control.supports
  take : ∀ c, P c → other.take c = control.take c

/-- **Only calls of a kind are passed to a control of powers**: no other control that does the same on these
calls makes a difference. On a call that is not of the kind it may do whatever it likes, or fail, and nobody
notices. -/
def PassesOnly (P : Call → Prop) (step : Control → Act α) (control : Control) (s : State) : Prop :=
  ∀ other : Control, other.AgreesOn P control → Act.exec (step other) s = Act.exec (step control) s

/-! ### Calls that are noted -/

open Classical in
/-- A control that ignores each call that is not of the kind. -/
noncomputable def Control.guarded (P : Call → Prop) (control : Control) : Control where
  supports := control.supports
  set := fun device port component value =>
    if P ⟨device, port, component, value⟩ then control.set device port component value else pure true

/-- A control does the same on calls of the kind when it is guarded. -/
theorem Control.agreesOn_guarded (P : Call → Prop) (control : Control) :
    (control.guarded P).AgreesOn P control :=
  ⟨rfl, fun _ hc => if_pos hc⟩

open Classical in
/-- A message that gives a power on a call of the kind, or that gives none at all. -/
noncomputable def isNoteOf (P : Call → Prop) : Event → Bool
  | .power device port component value => decide (P ⟨device, port, component, value⟩)
  | _ => true

theorem isNoteOf_of_toStore {e : Event} (h : e.toStore = true) : isNoteOf P e = true := by
  cases e <;> first | rfl | exact absurd h (by simp [Event.toStore])

/-- A control that takes notes notes nothing else when it is guarded. -/
theorem confined_guarded_notes (P : Call → Prop) (capable : Option (List String)) (device : String)
    (port : Int) (component : Component) (value : Json) :
    Confined (isNoteOf P) (((Control.notes capable).guarded P).set device port component value) := by
  classical
  unfold Control.guarded
  simp only
  split
  case isTrue hc => exact (Confined.send (decide_eq_true hc)).bind fun _ => Confined.pure _ _
  case isFalse => exact Confined.pure _ _

/-- **What is noted are calls of the kind**, if only such calls are passed and nobody else gives powers. -/
theorem PassesOnly.of_mem_messages (h : PassesOnly P step control s)
    (hconfined : Confined (isNoteOf P) (step (control.guarded P))) {c : Call}
    (hc : c.event ∈ messages (step control) s) : P c := by
  classical
  obtain ⟨-, es, hevents, hes⟩ := hconfined s
  rw [h _ (Control.agreesOn_guarded P control)] at hevents
  rw [messages, hevents, List.drop_left] at hc
  exact of_decide_eq_true (hes _ hc)

end Lightpath.Power

namespace Lightpath.PathPlan

open Lightpath.Numeral

variable {reply object : Json} {after objects : List Json} {v : Float} {both : Bool}
  {scheme device : String} {P : String → Json → Prop}

/-! ## Finite powers -/

/-- Each power and each metric of a value that can be read as a number is finite. -/
def FinitePower (name : String) (v : Json) : Prop :=
  name = "value" ∨ name = "accumulative-value" → ∀ x, v.toFloat = .ok x → (parts x).isFinite = true

/-- A power that a route object tells is finite where all powers are. -/
theorem finite_of_perHopPower (h : object.Everywhere FinitePower) (hpower : perHopPower object = .ok v)
    (hknown : (v == unknownPower) = false) : (parts v).isFinite = true := by
  unfold perHopPower at hpower
  obtain ⟨target, htarget, hpower⟩ := Outcome.bind_eq_ok_iff.mp hpower
  have hfields := (yields_partOf h "target-channel-power").of_eq_ok htarget
  split at hpower
  · rw [← Except.ok.inj hpower, unknownPower_beq_self] at hknown
    exact absurd hknown (by simp)
  · obtain ⟨value, hvalue, hfloat⟩ := Outcome.bind_eq_ok_iff.mp hpower
    exact ((yields_item hfields "value").of_eq_ok hvalue).1 (Or.inl rfl) v hfloat

/-- A power that is told behind a hop is finite where all powers are. -/
theorem finite_of_tellsPower (h : ∀ object ∈ after, object.Everywhere FinitePower)
    (htells : TellsPower after v) : (parts v).isFinite = true := by
  obtain ⟨object, hobject, hpower, hknown⟩ := htells
  exact finite_of_perHopPower (h object (List.mem_of_getElem? hobject)) hpower hknown

theorem yields_forwardList (h : reply.Everywhere P) :
    Yields (fun objects => ∀ object ∈ objects, object.Everywhere P) (forwardList reply) :=
  (yields_pathProperties h).bind fun _ hproperties =>
    (yields_forwardObjects hproperties).bind fun _ hobjects => yields_positions hobjects

theorem yields_reverseList (h : reply.Everywhere P) (both : Bool) :
    Yields (fun objects => ∀ object ∈ objects, object.Everywhere P) (reverseList reply both) :=
  (yields_pathProperties h).bind fun _ hproperties =>
    (yields_reverseObjects hproperties both).bind fun _ hobjects => yields_positions hobjects

theorem yields_metricList (h : reply.Everywhere P) :
    Yields (fun metrics => ∀ metric ∈ metrics, metric.Everywhere P) (metricList reply) :=
  (yields_pathProperties h).bind fun _ hproperties => yields_metricsOf hproperties

/-- What stands behind the last hop stands among the objects. -/
theorem LastHop.forall_mem {α : Type} {hopIn : Json → Option α} {a : α} {Q : Json → Prop}
    (h : LastHop hopIn objects a after) (hall : ∀ object ∈ objects, Q object) :
    ∀ object ∈ after, Q object := by
  obtain ⟨before, hop, rfl, -⟩ := h.here
  intro object hobject
  exact hall object (List.mem_append_right before (List.mem_cons_of_mem hop hobject))

/-- A forward power is finite where all powers are, -/
theorem ForwardPower.finite (h : ForwardPower scheme reply device v)
    (hfinite : reply.Everywhere FinitePower) : (parts v).isFinite = true := by
  obtain ⟨objects, hop, after, hobjects, hlast, -, htells⟩ := h
  exact finite_of_tellsPower (hlast.forall_mem ((yields_forwardList hfinite).of_eq_ok hobjects)) htells

/-- and so is a backward one -/
theorem BackwardPower.finite (h : BackwardPower scheme reply both device v)
    (hfinite : reply.Everywhere FinitePower) : (parts v).isFinite = true := by
  obtain ⟨-, -, -, positions, after, -, -, -, hpositions, hlast, htells⟩ := h
  exact finite_of_tellsPower (hlast.forall_mem ((yields_reverseList hfinite both).of_eq_ok hpositions))
    htells

/-- and the one at both ends. -/
theorem LaunchPower.finite (h : LaunchPower reply v) (hfinite : reply.Everywhere FinitePower) :
    (parts v).isFinite = true := by
  obtain ⟨metrics, metric, hmetrics, hfound, hpower, -⟩ := h
  obtain ⟨value, hvalue, hfloat⟩ := Outcome.bind_eq_ok_iff.mp hpower
  have hmetric := (yields_metricList hfinite).of_eq_ok hmetrics metric (List.mem_of_find?_eq_some hfound)
  exact ((yields_item hmetric "accumulative-value").of_eq_ok hvalue).1 (Or.inr rfl) v hfloat

namespace Planner

open Lightpath.Site Lightpath.Topology Lightpath.Spectrum Lightpath.Power

variable {p : Planner} {s t : State} {plan : Plan} {other : Control} {ingress egress : ConnectPoint}
  {flag : Json}

/-! ## The calls of a plan -/

/-- **A call passes a power of a reply on**: a float that is not the one for an unknown power, which the
reply gives to the device in one of the directions, or as the launch power. -/
structure PassesOn (scheme : String) (reply : Json) (both : Bool) (c : Call) (v : Float) : Prop where
  value : c.value = .float v
  known : (v == unknownPower) = false
  told : (∃ slot, c.component = .slot slot ∧
      (ForwardPower scheme reply c.device v ∨ BackwardPower scheme reply both c.device v)) ∨
    c.component = .direction .all ∧ LaunchPower reply v
  finite : reply.Everywhere FinitePower → (parts v).isFinite = true

/-- A call for a point gives it the power that is known of its device. -/
theorem mem_hopCall?_iff {control : Control} {slot : Option Slot} {powers : PowerMap}
    {point : ConnectPoint} {c : Call} :
    c ∈ hopCall? control slot powers point ↔ control.supports point.device = true ∧
      ∃ v, powers.known? point.device = some v ∧ c = ⟨point.device, point.port, .slot slot, .float v⟩ := by
  rw [hopCall?, Option.mem_def]
  cases control.supports point.device with
  | false => simp
  | true =>
    simp only [if_true, Option.map_eq_some_iff, true_and]
    constructor
    · rintro ⟨v, hv, rfl⟩
      exact ⟨v, hv, rfl⟩
    · rintro ⟨v, hv, rfl⟩
      exact ⟨v, hv, rfl⟩

/-- The call for a point passes on what the reply gives to its device. -/
theorem passesOn_of_mem_hopCall? {control : Control} {powers : PowerMap} {point : ConnectPoint} {c : Call}
    (hpowers : ∀ v, powers.known? point.device = some v →
      ForwardPower scheme reply point.device v ∨ BackwardPower scheme reply both point.device v)
    (hc : c ∈ hopCall? control plan.slot powers point) : ∃ v, PassesOn scheme reply both c v := by
  obtain ⟨-, v, hv, rfl⟩ := mem_hopCall?_iff.mp hc
  refine ⟨v, rfl, (PowerMap.known?_eq_some_iff.mp hv).2, Or.inl ⟨_, rfl, hpowers v hv⟩, fun hfinite => ?_⟩
  rcases hpowers v hv with h | h
  · exact h.finite hfinite
  · exact h.finite hfinite

/-- **Each call of a plan passes a power of the reply on.** -/
theorem passesOn_of_mem_planCalls {control : Control} {c : Call} (h : TellsPowers scheme reply both plan)
    (hc : c ∈ planCalls control plan ingress egress) : ∃ v, PassesOn scheme reply both c v := by
  rw [planCalls, List.mem_append, List.mem_flatMap] at hc
  rcases hc with ⟨l, -, hc⟩ | hc
  · rw [linkCalls, List.mem_append, Option.mem_toList, Option.mem_toList] at hc
    rcases hc with hc | hc
    · exact passesOn_of_mem_hopCall? (fun v hv => Or.inl ((h.forward_iff _ v).mp hv)) hc
    · exact passesOn_of_mem_hopCall? (fun v hv => Or.inr ((h.backward_iff _ v).mp hv)) hc
  · rw [launchCalls] at hc
    split at hc
    · exact absurd hc List.not_mem_nil
    · rename_i hunknown
      have hlaunch : LaunchPower reply plan.launchPower :=
        (h.launch_iff plan.launchPower).mp ⟨rfl, Bool.eq_false_iff.mpr hunknown⟩
      have hpasses (point : ConnectPoint) (hpoint : c ∈ launchCall? control plan point) :
          ∃ v, PassesOn scheme reply both c v := by
        rw [launchCall?, Option.mem_def] at hpoint
        split at hpoint
        · obtain rfl := Option.some.inj hpoint
          exact ⟨plan.launchPower, rfl, Bool.eq_false_iff.mpr hunknown, Or.inr ⟨rfl, hlaunch⟩,
            hlaunch.finite⟩
        · exact absurd hpoint (by simp)
      rw [List.mem_append, Option.mem_toList, Option.mem_toList] at hc
      exact hc.elim (hpasses ingress) (hpasses egress)

/-! ## Another control -/

/-- A planner with another control of powers. -/
def withPower (p : Planner) (other : Control) : Planner :=
  { p with power := other }

/-- Links are looked up without the control of powers, -/
theorem linksAlong_withPower (p : Planner) (other : Control) (hops : List (String × String)) :
    (p.withPower other).linksAlong hops = p.linksAlong hops := by
  induction hops with
  | nil => rfl
  | cons hop rest ih =>
    unfold linksAlong
    rw [ih]
    rfl

/-- and so is a reply decoded. -/
theorem decode_withPower (p : Planner) (other : Control) (reply : Json) (both : Bool) :
    (p.withPower other).decode reply both = p.decode reply both := by
  unfold decode
  simp only [linksAlong_withPower]
  rfl

section Agreement

variable (hsupports : other.supports = p.power.supports)

include hsupports

/-- A control that takes the call of a point in the same way makes no difference to it, -/
theorem setHopPower_withPower {powers : PowerMap} {point : ConnectPoint}
    (h : ∀ c ∈ hopCall? p.power plan.slot powers point, other.take c = p.power.take c) :
    (p.withPower other).setHopPower plan powers point = p.setHopPower plan powers point := by
  unfold setHopPower
  show (if other.supports point.device then _ else _) = _
  rw [hsupports]
  cases htakes : p.power.supports point.device with
  | false => rfl
  | true =>
    cases hknown : (OrderedMap.get? powers point.device).getD unknownPower == unknownPower with
    | true => simp only [hknown, if_true]
    | false =>
      have hpower : powers.known? point.device
          = some ((OrderedMap.get? powers point.device).getD unknownPower) := by
        rw [known?_eq_ite, hknown]
        rfl
      have hset : (p.withPower other).power.set point.device point.port (.slot plan.slot)
            (.float ((OrderedMap.get? powers point.device).getD unknownPower))
          = p.power.set point.device point.port (.slot plan.slot)
            (.float ((OrderedMap.get? powers point.device).getD unknownPower)) :=
        h _ (mem_hopCall?_iff.mpr ⟨htakes, _, hpower, rfl⟩)
      simp only [hknown, hset]

/-- nor one that takes the calls of all links in the same way, -/
theorem setLinkPowers_withPower {links : List Link}
    (h : ∀ c ∈ links.flatMap (linkCalls p.power plan), other.take c = p.power.take c) :
    (p.withPower other).setLinkPowers plan links = p.setLinkPowers plan links := by
  induction links with
  | nil => rfl
  | cons l ls ih =>
    rw [List.flatMap_cons] at h
    obtain ⟨hlink, hrest⟩ := List.forall_mem_append.mp h
    rw [linkCalls] at hlink
    obtain ⟨hsrc, hdst⟩ := List.forall_mem_append.mp hlink
    unfold setLinkPowers
    rw [ih hrest, setHopPower_withPower hsupports fun c hc => hsrc c (Option.mem_toList.mpr hc),
      setHopPower_withPower hsupports fun c hc => hdst c (Option.mem_toList.mpr hc)]

/-- nor one that takes the call of an end of the circuit in the same way. -/
theorem setLaunchPower_withPower {point : ConnectPoint}
    (h : ∀ c ∈ launchCall? p.power plan point, other.take c = p.power.take c) :
    (p.withPower other).setLaunchPower plan point = p.setLaunchPower plan point := by
  unfold setLaunchPower
  show (if other.supports point.device then _ else _) = _
  rw [hsupports]
  cases htakes : p.power.supports point.device with
  | false => rfl
  | true =>
    have hset : (p.withPower other).power.set point.device point.port (.direction .all)
          (.float plan.launchPower)
        = p.power.set point.device point.port (.direction .all) (.float plan.launchPower) :=
      h ⟨point.device, point.port, .direction .all, .float plan.launchPower⟩
        (by rw [launchCall?, if_pos htakes]; rfl)
    simp only [hset]

/-- **Giving out the powers of a plan only depends on what the control does on the calls of the plan.** -/
theorem applyPowers_withPower
    (h : ∀ c ∈ planCalls p.power plan ingress egress, other.take c = p.power.take c) :
    (p.withPower other).applyPowers plan ingress egress = p.applyPowers plan ingress egress := by
  rw [planCalls] at h
  obtain ⟨hlinks, hlaunch⟩ := List.forall_mem_append.mp h
  unfold applyPowers
  rw [setLinkPowers_withPower hsupports hlinks]
  rw [launchCalls] at hlaunch
  cases hknown : plan.launchPower == unknownPower with
  | true => rfl
  | false =>
    rw [hknown] at hlaunch
    obtain ⟨hfirst, hlast⟩ := List.forall_mem_append.mp hlaunch
    rw [setLaunchPower_withPower hsupports fun c hc => hfirst c (Option.mem_toList.mpr hc),
      setLaunchPower_withPower hsupports fun c hc => hlast c (Option.mem_toList.mpr hc)]

end Agreement

/-! ## Whole runs -/

/-- An answer of the engine is the answer to the request for a path. -/
theorem post_of_exec_ask {text : String}
    (h : Act.exec (p.ask ingress egress flag) s = (.ok (some text), t)) :
    ∃ request, (Request.between p.transceiverType ingress egress flag).outcome = .ok request ∧
      Act.exec (Engine.post request.toJson) s = (.ok text, t) := by
  cases hrequest : (Request.between p.transceiverType ingress egress flag).outcome with
  | error f =>
    rw [exec_ask_of_no_request hrequest s] at h
    exact absurd h (by simp)
  | ok request =>
    obtain ⟨answer, u, hpost, hask⟩ | ⟨f, out, u, v, -, hask, -, hout⟩ := exec_ask_cases hrequest s
    · obtain ⟨htext, rfl⟩ := Prod.mk.inj (hask.symm.trans h)
      obtain rfl := Option.some.inj (Except.ok.inj htext)
      exact ⟨request, rfl, hpost⟩
    · obtain ⟨rfl, -⟩ := Prod.mk.inj (hask.symm.trans h)
      exact absurd hout (by simp)

/-- Taking an answer up only depends on what the control does on the calls of the plan in it. -/
theorem exec_takeUp_withPower {text : String} (hsupports : other.supports = p.power.supports)
    (h : ∀ reply plan u, Json.parse text = .ok reply → reply.truthy = true →
      Act.exec (p.decode reply flag.truthy) t = (.ok (some plan), u) →
      ∀ c ∈ planCalls p.power plan ingress egress, other.take c = p.power.take c) :
    Act.exec ((p.withPower other).takeUp ingress egress flag text) t
      = Act.exec (p.takeUp ingress egress flag text) t := by
  unfold takeUp
  obtain ⟨reply, hparse, htruthy, hreply⟩ | ⟨u, hreply, -, -⟩ := exec_replyIn_cases text t
  · rw [exec_bind_ok hreply, exec_bind_ok hreply]
    simp only [followUp, decode_withPower]
    refine exec_bind_congr fun found u hdecode => ?_
    cases found with
    | none => rfl
    | some plan =>
      unfold carryOut
      simp only [applyPowers_withPower hsupports (h reply plan u hparse htruthy hdecode)]
  · rw [exec_bind_ok hreply, exec_bind_ok hreply]

/-- **A run only depends on what the control does on the calls of the plan that is decoded in it.** -/
theorem exec_obtain_withPower (hsupports : other.supports = p.power.supports)
    (h : ∀ request reply plan u,
      (Request.between p.transceiverType ingress egress flag).outcome = .ok request →
      p.Decoded request flag.truthy s reply plan u →
      ∀ c ∈ planCalls p.power plan ingress egress, other.take c = p.power.take c) :
    Act.exec ((p.withPower other).obtain ingress egress flag) s
      = Act.exec (p.obtain ingress egress flag) s := by
  unfold obtain
  rw [exec_bind_ok (Engine.exec_isConnected s), exec_bind_ok (Engine.exec_isConnected s)]
  split
  · rfl
  · refine exec_bind_congr fun answer t hask => ?_
    cases answer with
    | none => rfl
    | some text =>
      obtain ⟨request, hrequest, hpost⟩ := post_of_exec_ask (p := p) hask
      exact exec_takeUp_withPower hsupports fun reply plan u hparse htruthy hdecode =>
        h request reply plan u hrequest ⟨text, t, hpost, hparse, htruthy, hdecode⟩

/-- The power that a call of a run passes on, with the reply that it comes from. -/
def Passes (p : Planner) (ingress egress : ConnectPoint) (flag : Json) (s : State) (c : Call) : Prop :=
  ∃ request reply plan u v,
    (Request.between p.transceiverType ingress egress flag).outcome = .ok request ∧
      p.Decoded request flag.truthy s reply plan u ∧ PassesOn p.scheme reply flag.truthy c v

/-- **Every power that a run passes to a device comes from the reply and is not the unknown one.** Whatever
the engine replies, whatever the adjacency tells and whoever controls powers: each call passes on a float
that is not the power that stands for an unknown one. The reply gives it to the device in this direction, or
as the launch power, and it is finite if each power and each metric of the reply that can be read as a number
is. A control that takes notes notes such powers only, if the adjacency gives none itself. -/
theorem passesOnly_obtain (p : Planner) (ingress egress : ConnectPoint) (flag : Json) (s : State) :
    PassesOnly (p.Passes ingress egress flag s)
        (fun control => (p.withPower control).obtain ingress egress flag) p.power s ∧
      ∀ capable, p.power = .notes capable → (∀ device, Confined Event.toStore (p.adjacency device)) →
        ∀ c : Call, c.event ∈ messages (p.obtain ingress egress flag) s →
          p.Passes ingress egress flag s c := by
  have hpasses : PassesOnly (p.Passes ingress egress flag s)
      (fun control => (p.withPower control).obtain ingress egress flag) p.power s := by
    intro other hagrees
    refine exec_obtain_withPower hagrees.supports fun request reply plan u hrequest hdecoded c hc => ?_
    obtain ⟨v, hcall⟩ := passesOn_of_mem_planCalls hdecoded.tells.powers hc
    exact hagrees.take c ⟨request, reply, plan, u, v, hrequest, hdecoded, hcall⟩
  refine ⟨hpasses, fun capable hnotes hadj c hc => hpasses.of_mem_messages ?_ hc⟩
  refine along_obtain (Engine.confined_post fun _ _ _ _ => rfl) (fun device => ?_) ?_
    (fun _ _ _ _ _ => Confined.send rfl) ingress egress flag
  · exact Confined.mono (hadj device) fun e he => isNoteOf_of_toStore he
  · intro device port component value
    rw [hnotes]
    exact confined_guarded_notes _ capable device port component value

/-! ## Powers that are not finite -/

/-- A site whose engine answers with a path without route objects and with a launch power. -/
def launchSite (power : String) : State :=
  { answeringSite with
    answers := [.reply 200 "OK" ("\x7b\"result\": \x7b\"response\": [\x7b\"path-properties\": "
      ++ "\x7b\"path-route-objects\": [], \"path-metric\": [\x7b\"metric-type\": \"reference_power\", "
      ++ "\"accumulative-value\": " ++ power ++ "\x7d]\x7d\x7d]\x7d\x7d")] }

/-- The device that a message gives a power to, and whether the power is finite. -/
def noted? : Event → Option (String × Bool)
  | .power device _ _ (.float v) => some (device, (parts v).isFinite)
  | _ => none

theorem exists_call_of_noted? {e : Event} {device : String} {finite : Bool}
    (h : noted? e = some (device, finite)) :
    ∃ port component v, e = (Call.mk device port component (.float v)).event ∧
      (parts v).isFinite = finite := by
  unfold noted? at h
  split at h
  · obtain ⟨rfl, hfinite⟩ := Prod.mk.inj (Option.some.inj h)
    exact ⟨_, _, _, rfl, hfinite⟩
  · exact absurd h (by simp)

/-- The powers that are noted in a run whose reply has no number as its launch power. -/
theorem noted_launchSite :
    (messages ((overLinks []).obtain ⟨"netconf:a", 1⟩ ⟨"netconf:b", 1⟩ (.bool true))
      (launchSite "NaN")).filterMap noted? = [("netconf:a", false), ("netconf:b", false)] := by
  decide +kernel

/-- What is noted is the launch power of the reply. -/
theorem passesOnly_obtain_launch :
    ∃ c : Call, c.event ∈ messages ((overLinks []).obtain ⟨"netconf:a", 1⟩ ⟨"netconf:b", 1⟩ (.bool true))
        (launchSite "NaN") ∧
      (overLinks []).Passes ⟨"netconf:a", 1⟩ ⟨"netconf:b", 1⟩ (.bool true) (launchSite "NaN") c := by
  obtain ⟨e, he, hnoted⟩ := List.mem_filterMap.mp
    (noted_launchSite ▸ List.mem_cons_self : ("netconf:a", false) ∈ _)
  obtain ⟨port, component, v, rfl, -⟩ := exists_call_of_noted? hnoted
  exact ⟨_, he, (passesOnly_obtain (overLinks []) _ _ _ _).2 none rfl (fun _ => Confined.pure _ _) _ he⟩

/-- **A launch power that is not a number is passed to a device.** -/
theorem passes_notANumber :
    ∃ port component v,
      (Call.mk "netconf:a" port component (.float v)).event
        ∈ messages ((overLinks []).obtain ⟨"netconf:a", 1⟩ ⟨"netconf:b", 1⟩ (.bool true))
          (launchSite "NaN") ∧
      (parts v).isFinite = false := by
  obtain ⟨e, he, hnoted⟩ := List.mem_filterMap.mp
    (noted_launchSite ▸ List.mem_cons_self : ("netconf:a", false) ∈ _)
  obtain ⟨port, component, v, rfl, hfinite⟩ := exists_call_of_noted? hnoted
  exact ⟨port, component, v, he, hfinite⟩

end Planner

end Lightpath.PathPlan
