import Lightpath.Proofs.PathPlan.LinkedPath
import Lightpath.Proofs.PathPlan.ReplyPower

/-!
# Who gets which power

The powers of a plan are given out link by link, first at the start and then at the end of the link,
and the launch power at both ends of the circuit follows. Main statement: `calls_of_decoded`. Whoever
controls powers is called for exactly the powers that the reply gives to the devices of the path, each
call with the port of the point and the slot of the plan.
-/

/-! ## Calls -/

namespace Lightpath.Power

open Lightpath.Site

/-- A call that gives a power to a port. -/
structure Call where
  device : String
  port : Int
  component : Component
  value : Json

/-- What a control of powers does on a call. -/
def Control.take (control : Control) (c : Call) : Act Bool :=
  control.set c.device c.port c.component c.value

/-- **Some calls are made one after the other**, with nothing but log lines between them. -/
inductive Makes (control : Control) : List Call → State → State → Prop
  | nil {s t : State} (logs : Logs s t) : Makes control [] s t
  | cons {c : Call} {cs : List Call} {taken : Bool} {s t u v : State} (logs : Logs s t)
      (call : Act.exec (control.take c) t = (.ok taken, u)) (more : Makes control cs u v) :
      Makes control (c :: cs) s v

/-- Some calls break off at one that fails. -/
def Breaks (control : Control) (cs : List Call) (f : Failure) (s t : State) : Prop :=
  ∃ made c rest u, cs = made ++ c :: rest ∧ Makes control made s u ∧
    Act.exec (control.take c) u = (.error f, t)

/-- **A step makes some calls** and yields a value, unless one of the calls fails: with its failure the
step ends. -/
def Calls {α : Type} (control : Control) (cs : List Call) (a : Act α) (out : α) : Prop :=
  ∀ s, (∃ t, Act.exec a s = (.ok out, t) ∧ Makes control cs s t) ∨
    ∃ f t, Act.exec a s = (.error f, t) ∧ Breaks control cs f s t

variable {control : Control} {cs ds : List Call} {s t u : State}

/-- Lines of the log may stand in front of the calls. -/
theorem Makes.after_logs (h : Logs s t) (k : Makes control cs t u) : Makes control cs s u := by
  cases k with
  | nil logs => exact Makes.nil (h.trans logs)
  | cons logs call more => exact Makes.cons (h.trans logs) call more

/-- Calls that are made one after the other add up. -/
theorem Makes.append (h : Makes control cs s t) (k : Makes control ds t u) :
    Makes control (cs ++ ds) s u := by
  induction h with
  | nil logs => exact k.after_logs logs
  | cons logs call more ih => exact Makes.cons logs call (ih k)

namespace Calls

variable {α β : Type} {a : Act α} {out : α}

/-- A value makes no calls, -/
theorem pure (control : Control) (out : α) : Calls control [] (Pure.pure out : Act α) out :=
  fun s => Or.inl ⟨s, rfl, Makes.nil (Logs.refl s)⟩

/-- and neither does a line of the log. -/
theorem log (control : Control) (level : Controller.LogLevel) (text : String) :
    Calls control [] (Site.log level text) () := by
  intro s
  obtain ⟨t, hlog, hst⟩ := onlyLogs_log level text s
  exact Or.inl ⟨t, hlog, Makes.nil hst⟩

/-- What a call yields does not matter. -/
theorem take (control : Control) (c : Call) : Calls control [c] (discard (control.take c)) () := by
  intro s
  rw [exec_discard]
  cases hrun : Act.exec (control.take c) s with
  | mk o t =>
    cases o with
    | ok taken => exact Or.inl ⟨t, rfl, Makes.cons (Logs.refl s) hrun (Makes.nil (Logs.refl t))⟩
    | error f => exact Or.inr ⟨f, t, rfl, [], c, [], s, rfl, Makes.nil (Logs.refl s), hrun⟩

/-- One step behind another makes its calls behind those of the other. -/
theorem bind {f : α → Act β} {out' : β} (ha : Calls control cs a out)
    (hf : Calls control ds (f out) out') : Calls control (cs ++ ds) (a >>= f) out' := by
  intro s
  obtain ⟨t, hrun, hmakes⟩ | ⟨e, t, hrun, made, c, rest, u, rfl, hmade, hfails⟩ := ha s
  · rw [exec_bind_ok hrun]
    obtain ⟨v, hrest, hmore⟩ | ⟨e, v, hrest, made, c, rest, u, rfl, hmade, hfails⟩ := hf t
    · exact Or.inl ⟨v, hrest, hmakes.append hmore⟩
    · exact Or.inr ⟨e, v, hrest, cs ++ made, c, rest, u, (List.append_assoc _ _ _).symm,
        hmakes.append hmade, hfails⟩
  · rw [exec_bind_error hrun]
    refine Or.inr ⟨e, t, rfl, made, c, rest ++ ds, u, ?_, hmade, hfails⟩
    rw [List.append_assoc, List.cons_append]

end Calls

/-! ## A control that takes notes -/

/-- The message that is sent for a call to a control that takes notes. -/
def Call.event (c : Call) : Event :=
  .power c.device c.port c.component c.value

end Lightpath.Power

namespace Lightpath.PathPlan.Planner

open Lightpath.Site Lightpath.Topology Lightpath.Spectrum Lightpath.Power

variable {p : Planner} {s t : State} {reply : Json} {plan : Plan} {both : Bool}

/-! ## The calls of a plan -/

/-- The call that gives a point its power, if its device takes one and one is known. -/
def hopCall? (control : Control) (slot : Option Slot) (powers : PowerMap) (point : ConnectPoint) :
    Option Call :=
  if control.supports point.device then
    (powers.known? point.device).map fun v => ⟨point.device, point.port, .slot slot, .float v⟩
  else none

/-- The calls for a link: the one for its start, with the forward power, stands before the one for its
end, with the backward power. -/
def linkCalls (control : Control) (plan : Plan) (l : Link) : List Call :=
  (hopCall? control plan.slot plan.route.forward l.src).toList
    ++ (hopCall? control plan.slot plan.route.backward l.dst).toList

/-- The call that gives an end of the circuit the launch power, if its device takes one. -/
def launchCall? (control : Control) (plan : Plan) (point : ConnectPoint) : Option Call :=
  if control.supports point.device then
    some ⟨point.device, point.port, .direction .all, .float plan.launchPower⟩
  else none

/-- The calls for both ends of the circuit, if the launch power is known. -/
def launchCalls (control : Control) (plan : Plan) (ingress egress : ConnectPoint) : List Call :=
  if plan.launchPower == unknownPower then []
  else (launchCall? control plan ingress).toList ++ (launchCall? control plan egress).toList

/-- **The calls of a plan**: those for the links of its path and then those for the ends. -/
def planCalls (control : Control) (plan : Plan) (ingress egress : ConnectPoint) : List Call :=
  plan.path.links.flatMap (linkCalls control plan) ++ launchCalls control plan ingress egress

/-- A power that is not entered counts as not known. -/
theorem known?_eq_ite (powers : PowerMap) (device : String) :
    powers.known? device =
      if (OrderedMap.get? powers device).getD unknownPower == unknownPower then none
      else some ((OrderedMap.get? powers device).getD unknownPower) := by
  rw [PowerMap.known?]
  cases hget : OrderedMap.get? powers device with
  | none => simp [unknownPower_beq_self]
  | some v =>
    rw [Option.getD_some]
    cases hknown : v == unknownPower <;> simp [hknown]

/-- Giving a point its power makes its call, if it has one. -/
theorem calls_setHopPower (p : Planner) (plan : Plan) (powers : PowerMap) (point : ConnectPoint) :
    Calls p.power (hopCall? p.power plan.slot powers point).toList (p.setHopPower plan powers point)
      (hopCall? p.power plan.slot powers point).toList.length := by
  rw [setHopPower, hopCall?, known?_eq_ite]
  cases p.power.supports point.device with
  | false => exact Calls.pure _ _
  | true =>
    simp only [if_true]
    cases (OrderedMap.get? powers point.device).getD unknownPower == unknownPower with
    | true => exact (Calls.log _ _ _).bind (Calls.pure _ _)
    | false => exact (Calls.log _ _ _).bind ((Calls.take p.power _).bind (Calls.pure _ _))

/-- Giving links their powers makes the calls of each link in turn. -/
theorem calls_setLinkPowers (p : Planner) (plan : Plan) (links : List Link) :
    Calls p.power (links.flatMap (linkCalls p.power plan)) (p.setLinkPowers plan links)
      (links.flatMap (linkCalls p.power plan)).length := by
  induction links with
  | nil => exact Calls.pure _ _
  | cons l ls ih =>
    have hcalls := (calls_setHopPower p plan plan.route.forward l.src).bind
      (f := fun src => do
        let dst ← p.setHopPower plan plan.route.backward l.dst
        return src + dst + (← p.setLinkPowers plan ls))
      ((calls_setHopPower p plan plan.route.backward l.dst).bind (ih.bind (Calls.pure p.power _)))
    rw [List.append_nil, ← List.append_assoc] at hcalls
    rw [List.flatMap_cons, List.length_append, linkCalls, List.length_append]
    exact hcalls

/-- Giving an end of the circuit the launch power makes its call, if it has one. -/
theorem calls_setLaunchPower (p : Planner) (plan : Plan) (point : ConnectPoint) :
    Calls p.power (launchCall? p.power plan point).toList (p.setLaunchPower plan point)
      (launchCall? p.power plan point).toList.length := by
  rw [setLaunchPower, launchCall?]
  cases p.power.supports point.device with
  | false => exact Calls.pure _ _
  | true => exact (Calls.log _ _ _).bind ((Calls.take p.power _).bind (Calls.pure _ _))

/-- **Giving out the powers of a plan makes the calls of the plan**, and their number is told. -/
theorem calls_applyPowers (p : Planner) (plan : Plan) (ingress egress : ConnectPoint) :
    Calls p.power (planCalls p.power plan ingress egress) (p.applyPowers plan ingress egress)
      (planCalls p.power plan ingress egress).length := by
  rw [applyPowers, planCalls, launchCalls, List.length_append]
  refine (calls_setLinkPowers p plan plan.path.links).bind ?_
  cases plan.launchPower == unknownPower with
  | true => exact Calls.pure _ _
  | false =>
    have hcalls (inner : Nat) := (calls_setLaunchPower p plan ingress).bind
      (f := fun first => do return inner + first + (← p.setLaunchPower plan egress))
      ((calls_setLaunchPower p plan egress).bind (Calls.pure p.power _))
    simp only [List.append_nil] at hcalls
    simp only [Bool.false_eq_true, if_false, List.length_append, ← Nat.add_assoc]
    exact hcalls _

/-! ## The powers of a decoded plan -/

/-- **The powers that a plan knows are those that the reply gives.** -/
structure TellsPowers (scheme : String) (reply : Json) (both : Bool) (plan : Plan) : Prop where
  forward_iff : ∀ device v, plan.route.forward.known? device = some v ↔
    ForwardPower scheme reply device v
  backward_iff : ∀ device v, plan.route.backward.known? device = some v ↔
    BackwardPower scheme reply both device v
  launch_iff : ∀ v, plan.launchPower = v ∧ (v == unknownPower) = false ↔ LaunchPower reply v
  /-- A device that is not on the route has none, -/
  onRoute : ∀ device v, ForwardPower scheme reply device v ∨
    BackwardPower scheme reply both device v → device ∈ plan.route.devices
  /-- and in one direction only there are no backward powers. -/
  oneWay : both = false → ∀ device v, ¬ BackwardPower scheme reply both device v

/-- A reply that tells a plan tells its powers. -/
theorem Tells.powers {scheme : String} (h : Tells scheme reply both plan) :
    TellsPowers scheme reply both plan := by
  obtain ⟨properties, hproperties, -⟩ := Outcome.bind_eq_ok_iff.mp h.route
  exact
    { forward_iff := fun _ _ => known?_forward_iff h.route
      backward_iff := fun _ _ => known?_backward_iff h.route
      launch_iff := fun _ => known_launchPower_iff hproperties h.launchPower
      onRoute := fun _ _ => mem_devices_of_forwardPower h.route
      oneWay := fun hboth _ _ => hboth ▸ not_backwardPower_oneWay }

/-- **Each device gets its own power, in its own direction.** Whatever reply is decoded, whatever links
are found along its route, whoever controls powers and whatever the ends of the circuit are: the calls for
powers are those of the plan, in their order, and the powers in them are those that the reply gives. -/
theorem calls_of_decoded (h : Act.exec (p.decode reply both) s = (.ok (some plan), t)) :
    slotOf reply = .ok plan.slot ∧
      Act.exec (p.linksAlong (hops plan.route.devices)) s = (.ok plan.path.links, t) ∧
      TellsPowers p.scheme reply both plan ∧
      ∀ ingress egress, Calls p.power (planCalls p.power plan ingress egress)
        (p.applyPowers plan ingress egress) (planCalls p.power plan ingress egress).length := by
  obtain ⟨htells, hlinks⟩ := of_exec_decode h
  exact ⟨htells.slot, hlinks, htells.powers, calls_applyPowers p plan⟩

/-! ## Two terminals -/

/-- A reply with powers for two terminals in both directions, and with a launch power. -/
def poweredReply : Json :=
  .obj [("result", .obj [("response", .arr [.obj [("path-properties", .obj [
    ("path-route-objects", .arr [hopObject "netconf:a", plainObject, powerObject (-2.0),
      hopObject "netconf:b", plainObject, powerObject (-1.0), plainObject]),
    ("reversed-path-route-objects", .arr [hopObject "netconf:b", plainObject, powerObject (-3.0),
      hopObject "netconf:a", plainObject, powerObject (-4.0), plainObject]),
    ("path-metric", .arr [.obj [("metric-type", .str "reference_power"),
      ("accumulative-value", .float 0.001)]])])]])])]

/-- The calls for these powers: one at each end of the link and one at each end of the circuit. -/
theorem calls_of_decoded_terminals :
    ∃ plan t, Act.exec ((overLinks [terminalLink]).decode poweredReply true) (State.ofDevices [])
        = (.ok (some plan), t) ∧
      (planCalls (.notes none) plan ⟨"netconf:a", 1⟩ ⟨"netconf:b", 1⟩).map
          (fun c => (c.device, c.port))
        = [("netconf:a", 2), ("netconf:b", 2), ("netconf:a", 1), ("netconf:b", 1)] ∧
      slotOf poweredReply = .ok plan.slot ∧
      Act.exec ((overLinks [terminalLink]).linksAlong (hops plan.route.devices)) (State.ofDevices [])
        = (.ok plan.path.links, t) ∧
      TellsPowers "netconf:" poweredReply true plan ∧
      ∀ ingress egress, Calls (.notes none) (planCalls (.notes none) plan ingress egress)
        ((overLinks [terminalLink]).applyPowers plan ingress egress)
        (planCalls (.notes none) plan ingress egress).length := by
  have hports : ((Act.exec ((overLinks [terminalLink]).decode poweredReply true)
      (State.ofDevices [])).1.toOption.bind id).map (fun plan =>
        (planCalls (.notes none) plan ⟨"netconf:a", 1⟩ ⟨"netconf:b", 1⟩).map
          fun c => (c.device, c.port))
      = some [("netconf:a", 2), ("netconf:b", 2), ("netconf:a", 1), ("netconf:b", 1)] := by
    decide +kernel
  cases hrun : Act.exec ((overLinks [terminalLink]).decode poweredReply true) (State.ofDevices []) with
  | mk o t =>
    rw [hrun] at hports
    match o with
    | .error f => exact absurd hports (by simp [Except.toOption])
    | .ok none => exact absurd hports (by simp [Except.toOption])
    | .ok (some plan) =>
      exact ⟨plan, t, rfl, Option.some.inj hports, calls_of_decoded (p := overLinks [terminalLink]) hrun⟩

end Lightpath.PathPlan.Planner
