import Lightpath.Proofs.Json.Equality
import Lightpath.Proofs.PathPlan.Provision
import Lightpath.Proofs.PathPlan.ReplyPower
import Lightpath.Proofs.PathPlan.Usable

/-!
# Malformed replies

Every part of a plan is looked for where a reply should have it, and what is not as it should be is a
fault of shape, which the planner answers with no plan. Two things escape it: the test for a
response looks into the result of a reply before anything else, and a number or a truth value has
nothing to look into; and a label or a power can be too large to be one. Main statement:
`answers_malformed`.
-/

namespace Lightpath.PathPlan

variable {reply object properties : Json} {objects : List Json} {P : String → Json → Prop}

/-! ## Numbers that are read -/

/-- **The label that some route objects are read for**: that of the first one that has any. -/
inductive LabelRead : List Json → Json → Prop
  | here {object label v : Json} {rest : List Json} (hlabel : partOf object "label-hop" = .ok label)
      (hv : label.item "N" = .ok v) : LabelRead (object :: rest) v
  | there {object v : Json} {rest : List Json} (hnone : partOf object "label-hop" = .ok .null)
      (h : LabelRead rest v) : LabelRead (object :: rest) v

/-- The power that the second of some route objects tells. -/
def SecondTells (objects : List Json) (v : Json) : Prop :=
  ∃ object target, objects[1]? = some object ∧ partOf object "target-channel-power" = .ok target ∧
    target.item "value" = .ok v

/-- **A power that some route objects are read for**: one that is told behind a hop. -/
inductive PowerRead (isHop : Json → Prop) : List Json → Json → Prop
  | here {hop v : Json} {after : List Json} (hhop : isHop hop) (hv : SecondTells after v) :
      PowerRead isHop (hop :: after) v
  | there {object v : Json} {rest : List Json} (h : PowerRead isHop rest v) :
      PowerRead isHop (object :: rest) v

/-- A route object is a managed hop whose power is asked for. -/
def IsPowered (scheme : String) (h : Hop) (object : Json) : Prop :=
  hopIn? scheme object = .ok (some h) ∧ h.isTransceiver = false

/-- The label of a reply. -/
def ReadAsLabel (reply v : Json) : Prop :=
  ∃ properties forward objects, pathProperties reply = .ok properties ∧
    forwardObjects properties = .ok forward ∧ forward.elements = .ok objects ∧ LabelRead objects v

/-- **The powers and the qualities that a reply is read for**: those behind the forward hops, those behind the
reverse hops of the same devices, and the first metric of either kind. -/
inductive ReadAsPower (scheme : String) (reply : Json) (both : Bool) : Json → Prop
  | forward {v : Json} {objects : List Json} (hobjects : forwardList reply = .ok objects)
      (hread : PowerRead (fun object => ∃ h, IsPowered scheme h object) objects v) :
      ReadAsPower scheme reply both v
  | backward {hop v : Json} {objects positions : List Json} {h : Hop}
      (hobjects : forwardList reply = .ok objects) (hhop : hop ∈ objects.dropLast)
      (hpowered : IsPowered scheme h hop) (hpositions : reverseList reply both = .ok positions)
      (hread : PowerRead (fun object => names object h.device = .ok true) positions v) :
      ReadAsPower scheme reply both v
  | metric {kind : String} {metric v : Json} {metrics : List Json}
      (hkind : kind = "reference_power" ∨ kind = "OSNR-0.1nm") (hmetrics : metricList reply = .ok metrics)
      (hfound : metrics.find? (isMetric kind) = some metric)
      (hv : metric.item "accumulative-value" = .ok v) : ReadAsPower scheme reply both v

/-- **Each number that a reply is read for is in range.** -/
structure InRange (scheme : String) (reply : Json) (both : Bool) : Prop where
  label : ∀ v, ReadAsLabel reply v → LabelInRange v
  power : ∀ v, ReadAsPower scheme reply both v → PowerInRange v

/-- A reply without a path is read for no number. -/
theorem inRange_of_no_path (scheme : String) (both : Bool)
    (h : ∀ properties, pathProperties reply ≠ .ok properties) : InRange scheme reply both where
  label := by
    rintro v ⟨properties, forward, objects, hpath, -⟩
    exact absurd hpath (h properties)
  power := by
    intro v hv
    have hno {α : Type} {f : Json → Outcome α} {a : α} (hlist : pathProperties reply >>= f = .ok a) : False := by
      obtain ⟨properties, hpath, -⟩ := Outcome.bind_eq_ok_iff.mp hlist
      exact h properties hpath
    cases hv with
    | forward hobjects => exact (hno hobjects).elim
    | backward hobjects => exact (hno hobjects).elim
    | metric hkind hmetrics => exact (hno hmetrics).elim

/-! ## Powers -/

/-- A part of a route object is looked for in the record in it. -/
theorem yields_partOf (h : object.Everywhere P) (name : String) :
    Yields (Json.Everywhere P) (partOf object name) :=
  (yields_item h "path-route-object").bind fun _ hw => yields_lookup hw.2 name

/-- A power that is told is read as a number. -/
theorem yields_perHopPower (h : object.Everywhere P)
    (hrange : ∀ target v, partOf object "target-channel-power" = .ok target → target.item "value" = .ok v →
      PowerInRange v) :
    Yields (fun _ => True) (perHopPower object) := by
  refine (yields_partOf h "target-channel-power").bind_eq fun target hpart htarget => ?_
  split
  · exact trivial
  · exact (yields_item htarget "value").bind_eq fun value hvalue _ =>
      yields_toFloat (hrange _ _ hpart hvalue)

/-- The power behind a hop is looked for unless it is one of a transceiver. -/
theorem Hop.yields_power (hop : Hop) (h : ∀ object ∈ objects, object.Everywhere P)
    (hrange : hop.isTransceiver = false → ∀ v, SecondTells objects v → PowerInRange v) :
    Yields (fun _ => True) (hop.power objects) := by
  rw [Hop.power]
  cases hkind : hop.isTransceiver with
  | true => exact trivial
  | false =>
    simp only [Bool.false_eq_true, if_false]
    unfold powerAfter
    split
    case h_1 next object rest =>
      exact yields_perHopPower (h object (by simp)) fun target v htarget hv =>
        hrange hkind v ⟨object, target, rfl, htarget, hv⟩
    case h_2 => exact trivial

/-! ## The route -/

/-- A hop is told by the name of its node, which has to be a text. -/
theorem yields_hopIn? (h : object.Everywhere P) (scheme : String) :
    Yields (fun _ => True) (hopIn? scheme object) := by
  refine (yields_partOf h "num-unnum-hop").bind fun hop hhop => ?_
  split
  · exact trivial
  · refine (yields_item hhop "node-id").bind fun node _ => ?_
    split
    · split
      · exact (yields_lookup hhop "gnpy-node-type").bind fun _ _ => trivial
      · exact trivial
    · rfl

theorem yields_names (h : object.Everywhere P) (device : String) :
    Yields (fun _ => True) (names object device) := by
  refine (yields_partOf h "num-unnum-hop").bind fun hop hhop => ?_
  split
  · exact trivial
  · exact (yields_item hhop "node-id").bind fun _ _ => trivial

/-- Reverse route objects are looked at one by one, each with what comes behind it. -/
theorem yields_enterBackward (hop : Hop) (h : ∀ object ∈ objects, object.Everywhere P)
    (hrange : hop.isTransceiver = false → ∀ v,
      PowerRead (fun object => names object hop.device = .ok true) objects v → PowerInRange v)
    (m : PowerMap) :
    Yields (fun _ => True) (enterBackward hop objects m) := by
  induction objects generalizing m with
  | nil => exact trivial
  | cons object rest ih =>
    obtain ⟨hobject, hrest⟩ := List.forall_mem_cons.mp h
    have hlater := ih hrest fun hpowered v hv => hrange hpowered v (.there hv)
    cases rest with
    | nil => exact trivial
    | cons next rest =>
      rw [enterBackward]
      refine (yields_names hobject hop.device).bind_eq fun named hnamed _ => ?_
      cases named with
      | true =>
        exact (hop.yields_power hrest fun hpowered v hv => hrange hpowered v (.here hnamed hv)).bind
          fun power _ => hlater _
      | false => exact hlater m

/-- **Forward route objects are followed one by one**, and the reverse ones are looked at for each managed
hop. -/
theorem yields_follow {scheme : String} {reverse : Json} (hreverse : reverse.Everywhere P)
    (h : ∀ object ∈ objects, object.Everywhere P)
    (hforward : ∀ v, PowerRead (fun object => ∃ h, IsPowered scheme h object) objects v → PowerInRange v)
    (hbackward : ∀ hop ∈ objects.dropLast, ∀ h positions, IsPowered scheme h hop →
      reverse.positions = .ok positions → ∀ v,
        PowerRead (fun object => names object h.device = .ok true) positions v → PowerInRange v)
    (r : Route) :
    Yields (fun _ => True) (follow scheme reverse objects r) := by
  induction objects generalizing r with
  | nil => exact trivial
  | cons object rest ih =>
    obtain ⟨hobject, hrest⟩ := List.forall_mem_cons.mp h
    cases rest with
    | nil => exact trivial
    | cons next rest =>
      rw [List.dropLast_cons_cons, List.forall_mem_cons] at hbackward
      obtain ⟨hhere, hbehind⟩ := hbackward
      have hlater := ih hrest (fun v hv => hforward v (.there hv)) hbehind
      rw [follow]
      refine (yields_hopIn? hobject scheme).bind_eq fun found hfound _ => ?_
      cases found with
      | none => exact hlater r
      | some hop =>
        refine (hop.yields_power hrest fun hpowered v hv =>
          hforward v (.here ⟨hop, hfound, hpowered⟩ hv)).bind fun power _ => ?_
        refine (yields_positions hreverse).bind_eq fun positions hpositions hall => ?_
        exact (yields_enterBackward hop hall (fun hpowered =>
          hhere hop positions ⟨hfound, hpowered⟩ hpositions) r.backward).bind fun _ _ => hlater _

/-- The path is that of the first response. -/
theorem yields_pathProperties (h : reply.Everywhere P) :
    Yields (Json.Everywhere P) (pathProperties reply) :=
  (yields_item h "result").bind fun _ hresult =>
    (yields_item hresult.2 "response").bind fun _ hresponse =>
      (yields_first hresponse.2).bind fun _ hfirst =>
        (yields_item hfirst "path-properties").mono fun _ hproperties => hproperties.2

theorem yields_forwardObjects (h : properties.Everywhere P) :
    Yields (Json.Everywhere P) (forwardObjects properties) :=
  (yields_item h "path-route-objects").mono fun _ hobjects => hobjects.2

/-- Reverse route objects that are not there are no fault. -/
theorem yields_reverseObjects (h : properties.Everywhere P) (both : Bool) :
    Yields (Json.Everywhere P) (reverseObjects properties both) := by
  rw [reverseObjects]
  split
  · refine (yields_lookup h "reversed-path-route-objects").bind fun found hfound => ?_
    show Json.Everywhere P (if found.truthy then found else .arr [])
    split
    · exact hfound
    · exact trivial
  · exact trivial

/-- The route of a reply is read, or the reply is at fault for its shape. -/
theorem yields_routeOf {scheme : String} {both : Bool} (h : reply.Everywhere P)
    (hrange : ∀ v, ReadAsPower scheme reply both v → PowerInRange v) :
    Yields (fun _ => True) (routeOf scheme reply both) := by
  refine (yields_pathProperties h).bind_eq fun properties hpath hproperties => ?_
  refine (yields_forwardObjects hproperties).bind_eq fun forward hforward hall => ?_
  refine (yields_reverseObjects hproperties both).bind_eq fun reverse hreverse hallReverse => ?_
  refine (yields_positions hall).bind_eq fun objects hobjects hobject => ?_
  have hlist : forwardList reply = .ok objects :=
    Outcome.bind_eq_ok_iff.mpr ⟨properties, hpath, Outcome.bind_eq_ok_iff.mpr ⟨forward, hforward, hobjects⟩⟩
  refine yields_follow hallReverse hobject (fun v hv => hrange v (.forward hlist hv))
    (fun hop hhop h positions hpowered hpositions v hv => ?_) _
  have hreverseList : reverseList reply both = .ok positions :=
    Outcome.bind_eq_ok_iff.mpr ⟨properties, hpath, Outcome.bind_eq_ok_iff.mpr ⟨reverse, hreverse, hpositions⟩⟩
  exact hrange v (.backward hlist hhop hpowered hreverseList hv)

/-! ## The slot -/

/-- The label of a route has a slot. -/
theorem yields_labelOf (h : ∀ object ∈ objects, ShortInside object)
    (hrange : ∀ v, LabelRead objects v → LabelInRange v) :
    Yields (fun n => n.natAbs < 2 ^ labelBits) (labelOf objects) := by
  induction objects with
  | nil => exact Nat.two_pow_pos labelBits
  | cons object rest ih =>
    obtain ⟨hobject, hrest⟩ := List.forall_mem_cons.mp h
    refine (yields_partOf hobject "label-hop").bind_eq fun label hpart hlabel => ?_
    split
    · exact ih hrest fun v hv => hrange v (.there hpart hv)
    · exact (yields_item hlabel "N").bind_eq fun n hn hshort =>
        yields_toWhole hshort.1 (hrange n (.here hpart hn))

/-! ## Responses -/

/-- A value with nothing in it to look for: a number or a truth value. -/
def Bare : Json → Prop
  | .bool _ => True
  | .int _ => True
  | .float _ => True
  | _ => False

/-- **The result of a reply is there and has nothing in it to look for.** -/
def BareResult (reply : Json) : Prop :=
  ∃ result, reply.lookup "result" = .ok result ∧ result.truthy = true ∧ Bare result

/-- Nothing but a bare result keeps a reply from telling whether it has a response. -/
theorem hasResponse_cases (reply : Json) :
    BareResult reply ∧ hasResponse reply = .error .wrongKind ∨
      ¬ BareResult reply ∧ ∃ responds, hasResponse reply = .ok responds := by
  cases reply with
  | obj fields =>
    have hbare : BareResult (.obj fields) ↔
        ((OrderedMap.get? fields "result").getD .null).truthy = true ∧
          Bare ((OrderedMap.get? fields "result").getD .null) := by
      constructor
      · rintro ⟨result, hresult, h⟩
        rwa [← Except.ok.inj hresult] at h
      · exact fun h => ⟨_, rfl, h⟩
    rw [hbare, hasResponse]
    generalize (OrderedMap.get? fields "result").getD .null = result
    by_cases htruthy : result.truthy = true
    · simp only [htruthy, if_true, true_and]
      cases result with
      | bool b => exact Or.inl ⟨trivial, rfl⟩
      | int n => exact Or.inl ⟨trivial, rfl⟩
      | float x => exact Or.inl ⟨trivial, rfl⟩
      | null => exact absurd htruthy (by simp [Json.truthy])
      | _ => exact Or.inr ⟨not_false, _, rfl⟩
    · simp only [htruthy]
      exact Or.inr ⟨fun h => absurd h.1 (by simp), false, rfl⟩
  | _ =>
    refine Or.inr ⟨?_, false, rfl⟩
    rintro ⟨result, hresult, -⟩
    exact absurd hresult (by simp [Json.lookup])

theorem yields_hasResponse (reply : Json) : Yields (fun _ => True) (hasResponse reply) := by
  obtain ⟨-, h⟩ | ⟨-, responds, h⟩ := hasResponse_cases reply
  · rw [h]
    rfl
  · rw [h]
    exact trivial

/-- The slot of a reply is read, or the reply is at fault for its shape. -/
theorem yields_slotOf (h : ShortInside reply) (hrange : ∀ v, ReadAsLabel reply v → LabelInRange v) :
    Yields (fun _ => True) (slotOf reply) := by
  refine (yields_hasResponse reply).bind fun responds _ => ?_
  split
  · refine (yields_pathProperties h).bind_eq fun properties hpath hproperties => ?_
    refine (yields_forwardObjects hproperties).bind_eq fun forward hforward hall => ?_
    refine (yields_elements hall).bind_eq fun objects hobjects hobject => ?_
    refine (yields_labelOf hobject fun v hv =>
      hrange v ⟨properties, forward, objects, hpath, hforward, hobjects, hv⟩).bind fun n hn => ?_
    obtain ⟨slot, hslot⟩ := exists_slotOfLabel hn
    rw [hslot]
    exact trivial
  · exact trivial

/-! ## Metrics -/

/-- Metrics are looked at up to the first one of the kind. -/
theorem yields_metricIn (kind : String) (default : Float) {metrics : List Json}
    (h : ∀ metric ∈ metrics, metric.Everywhere P)
    (hrange : ∀ metric v, metrics.find? (isMetric kind) = some metric →
      metric.item "accumulative-value" = .ok v → PowerInRange v) :
    Yields (fun _ => True) (metricIn kind default metrics) := by
  induction metrics with
  | nil => exact trivial
  | cons metric rest ih =>
    obtain ⟨hmetric, hrest⟩ := List.forall_mem_cons.mp h
    refine (yields_lookup hmetric "metric-type").bind_eq fun found hfound _ => ?_
    have hmetricKind : isMetric kind metric = found.isText kind := by rw [isMetric, hfound]
    rw [List.find?_cons, hmetricKind] at hrange
    cases hkind : found.isText kind with
    | true =>
      rw [hkind] at hrange
      exact (yields_item hmetric "accumulative-value").bind_eq fun value hvalue _ =>
        yields_toFloat (hrange metric value rfl hvalue)
    | false =>
      rw [hkind] at hrange
      exact ih hrest hrange

/-- Metrics that are not there are none. -/
theorem yields_metricsOf (h : properties.Everywhere P) :
    Yields (fun metrics => ∀ metric ∈ metrics, metric.Everywhere P) (metricsOf properties) := by
  cases properties with
  | obj fields => exact yields_elements (h.getD "path-metric" trivial)
  | _ => rfl

/-- A metric of a reply is read, or the reply is at fault for its shape. -/
theorem yields_metricOf (h : reply.Everywhere P) (kind : String) (default : Float)
    (hrange : ∀ metrics metric v, metricList reply = .ok metrics →
      metrics.find? (isMetric kind) = some metric → metric.item "accumulative-value" = .ok v →
        PowerInRange v) :
    Yields (fun _ => True) (metricOf kind default reply) := by
  refine (yields_hasResponse reply).bind fun responds _ => ?_
  split
  · refine (yields_pathProperties h).bind_eq fun properties hpath hproperties => ?_
    refine (yields_metricsOf hproperties).bind_eq fun metrics hmetrics hall => ?_
    have hlist : metricList reply = .ok metrics :=
      Outcome.bind_eq_ok_iff.mpr ⟨properties, hpath, hmetrics⟩
    exact yields_metricIn kind default hall fun metric v => hrange metrics metric v hlist
  · exact trivial

/-! ## Whole replies -/

section Replies

variable {scheme : String} {both : Bool} (h : ShortInside reply) (hrange : InRange scheme reply both)

include h hrange

/-- **A reply whose numbers are in range becomes a plan, or it is no plan for its shape.** -/
theorem yields_planIn : Yields (fun _ => True) (planIn scheme reply both) := by
  have hmetric {kind : String} (hkind : kind = "reference_power" ∨ kind = "OSNR-0.1nm") (metrics : List Json)
      (metric v : Json) (hmetrics : metricList reply = .ok metrics)
      (hfound : metrics.find? (isMetric kind) = some metric)
      (hv : metric.item "accumulative-value" = .ok v) : PowerInRange v :=
    hrange.power v (.metric hkind hmetrics hfound hv)
  exact (yields_slotOf h hrange.label).bind fun _ _ =>
    (yields_routeOf h hrange.power).bind fun _ _ =>
      (yields_metricOf h "reference_power" unknownPower (hmetric (Or.inl rfl))).bind fun _ _ =>
        (yields_metricOf h "OSNR-0.1nm" unknownOsnr (hmetric (Or.inr rfl))).bind fun _ _ => trivial

/-- A reply whose numbers are in range is read unless its result is bare. -/
theorem readReply_cases :
    BareResult reply ∧ readReply scheme reply both = .error .wrongKind ∨
      ¬ BareResult reply ∧ ∃ reading, readReply scheme reply both = .ok reading := by
  rw [readReply]
  obtain ⟨hbare, hfault⟩ | ⟨hbare, responds, hresponds⟩ := hasResponse_cases reply
  · rw [hfault]
    exact Or.inl ⟨hbare, rfl⟩
  · rw [hresponds]
    refine Or.inr ⟨hbare, ?_⟩
    cases responds with
    | false => exact ⟨_, rfl⟩
    | true =>
      have hplan := yields_planIn h hrange
      cases hout : planIn scheme reply both with
      | ok plan => exact ⟨.plan plan, by simp [pure, Except.pure, bind, Except.bind]⟩
      | error f =>
        rw [hout] at hplan
        have hshape : isShapeFault f = true := hplan
        exact ⟨.malformed, by simp [hshape, pure, Except.pure, bind, Except.bind]⟩

end Replies

namespace Planner

open Lightpath.Site Lightpath.Topology

variable {p : Planner} {s t u : State} {both : Bool}

/-! ## Decoding -/

/-- Looking up links along a route answers when looking up those of a device does. -/
theorem exists_exec_linksAlong
    (hadj : ∀ device s, ∃ links t, Act.exec (p.adjacency device) s = (.ok links, t))
    (hops : List (String × String)) (s : State) :
    ∃ links t, Act.exec (p.linksAlong hops) s = (.ok links, t) := by
  induction hops generalizing s with
  | nil => exact ⟨[], s, rfl⟩
  | cons hop rest ih =>
    obtain ⟨links, t, hlinks⟩ := hadj hop.1 s
    rw [linksAlong, exec_bind_ok hlinks]
    cases links.find? fun l => l.dst.device == hop.2 with
    | none => exact ih _
    | some l =>
      obtain ⟨more, u, hmore⟩ := ih t
      exact ⟨l :: more, u, exec_bind_ok hmore _⟩

/-- **A reply whose numbers are in range is answered with a plan or with none, unless its result is
bare.** -/
theorem exec_decode_cases
    (hadj : ∀ device s, ∃ links t, Act.exec (p.adjacency device) s = (.ok links, t))
    (h : ShortInside reply) (hrange : InRange p.scheme reply both) (s : State) :
    BareResult reply ∧ Act.exec (p.decode reply both) s = (.error .wrongKind, s) ∨
      ¬ BareResult reply ∧ ∃ answer t, Act.exec (p.decode reply both) s = (.ok answer, t) := by
  rw [decode]
  obtain ⟨hbare, hfault⟩ | ⟨hbare, reading, hreading⟩ := readReply_cases h hrange
  · rw [hfault]
    exact Or.inl ⟨hbare, exec_bind_error (exec_yield_error _ s) _⟩
  · rw [hreading, exec_bind_ok (exec_yield_ok reading s)]
    refine Or.inr ⟨hbare, ?_⟩
    cases reading with
    | unanswered => exact ⟨none, _, rfl⟩
    | malformed => exact ⟨none, _, rfl⟩
    | plan bare =>
      obtain ⟨links, t, hlinks⟩ := exists_exec_linksAlong hadj (hops bare.route.devices) s
      exact ⟨some _, t, exec_bind_ok hlinks _⟩

/-! ## Whole runs -/

section Runs

variable {ingress egress : ConnectPoint} {flag : Json} {request : Request} {text : String}

/-- Nothing comes of a text that becomes no plan. -/
theorem exec_takeUp_none (ingress egress : ConnectPoint)
    (h : ∀ reply, Json.parse text = .ok reply → reply.truthy = true →
      ∃ u, Act.exec (p.decode reply flag.truthy) t = (.ok none, u)) :
    ∃ u, Act.exec (p.takeUp ingress egress flag text) t = (.ok none, u) := by
  rw [takeUp]
  obtain ⟨reply, hparse, htruthy, hreply⟩ | ⟨u, hreply, -, -⟩ := exec_replyIn_cases text t
  · obtain ⟨u, hdecode⟩ := h reply hparse htruthy
    rw [exec_bind_ok hreply]
    exact ⟨u, exec_bind_ok hdecode _⟩
  · exact ⟨u, exec_bind_ok hreply _⟩

/-- **Malformed replies are answered with none.** Whatever text the engine sends, as long as the label that
it is read for is not infinite and no power or quality that it is read for is a whole number beyond the
floating-point ones: decoding yields a plan or none just when the result of the reply is not bare, and then a
run that gets no plan yields none. -/
theorem answers_malformed
    (hadj : ∀ device s, ∃ links t, Act.exec (p.adjacency device) s = (.ok links, t)) :
    (∀ reply, Json.parse text = .ok reply → ∀ both s, InRange p.scheme reply both →
      ((∃ answer t, Act.exec (p.decode reply both) s = (.ok answer, t)) ↔ ¬ BareResult reply)) ∧
    ∀ ingress egress flag request s t,
      (Request.between p.transceiverType ingress egress flag).outcome = .ok request →
      Act.exec (Engine.post request.toJson) s = (.ok text, t) →
      (∀ reply, Json.parse text = .ok reply →
        InRange p.scheme reply flag.truthy ∧ ¬ BareResult reply) →
      (∀ reply plan u, ¬ p.Decoded request flag.truthy s reply plan u) →
      ∃ u, Act.exec (p.obtain ingress egress flag) s = (.ok none, u) := by
  have hdecode {reply : Json} (hparse : Json.parse text = .ok reply) {both : Bool}
      (hrange : InRange p.scheme reply both) (s : State) :=
    exec_decode_cases hadj (Json.written_of_parse hparse).2 hrange s
  constructor
  · intro reply hparse both s hrange
    obtain ⟨hbare, hfault⟩ | ⟨hbare, hanswer⟩ := hdecode hparse hrange s
    · rw [hfault]
      exact iff_of_false (by simp) (not_not_intro hbare)
    · exact iff_of_true hanswer hbare
  · intro ingress egress flag request s t hrequest hpost hfits hno
    rw [exec_obtain_of_post hrequest hpost]
    refine exec_takeUp_none ingress egress fun reply hparse htruthy => ?_
    obtain ⟨hrange, hbare⟩ := hfits reply hparse
    obtain ⟨kbare, -⟩ | ⟨-, answer, u, hanswer⟩ := hdecode hparse hrange t
    · exact absurd kbare hbare
    · cases answer with
      | none => exact ⟨u, hanswer⟩
      | some plan => exact absurd ⟨text, t, hpost, hparse, htruthy, hanswer⟩ (hno reply plan u)

end Runs

/-! ## A response without a path -/

/-- The text that `answeringSite` gets from its engine. -/
def pathlessText : String :=
  "\x7b\"result\": \x7b\"response\": []\x7d\x7d"

/-- The reply in it: a response without a path. -/
def pathless : Json :=
  .obj [("result", .obj [("response", .arr [])])]

theorem parse_pathless : Json.parse pathlessText = .ok pathless :=
  Outcome.eq_ok_of_toOption (by decide +kernel)

/-- The result of this reply is a record. -/
theorem not_bareResult_pathless : ¬ BareResult pathless := by
  rintro ⟨result, hresult, -, hbare⟩
  rw [← Except.ok.inj hresult] at hbare
  exact hbare

/-- A response without a path is answered with none. -/
theorem answers_malformed_pathless :
    (∃ answer t, Act.exec (notingPlanner.decode pathless true) answeringSite = (.ok answer, t)) ∧
      ∃ u, Act.exec (notingPlanner.obtain ⟨"netconf:a", 1⟩ ⟨"netconf:b", 1⟩ (.bool true))
        answeringSite = (.ok none, u) := by
  have hparsed (reply : Json) (h : Json.parse pathlessText = .ok reply) : pathless = reply :=
    Except.ok.inj (parse_pathless.symm.trans h)
  have hadj (device : String) (s : State) :
      ∃ links t, Act.exec (notingPlanner.adjacency device) s = (.ok links, t) := by
    obtain ⟨t, hlinks, -⟩ := LinkStore.exec_deviceLinks device s
    exact ⟨_, t, hlinks⟩
  obtain ⟨hdecode, hobtain⟩ := @answers_malformed notingPlanner pathlessText hadj
  have hpath (properties : Json) : pathProperties pathless ≠ .ok properties := by
    rw [show pathProperties pathless = .error .missingPosition from rfl]
    simp
  have hrange (both : Bool) : InRange notingPlanner.scheme pathless both := inRange_of_no_path _ both hpath
  refine ⟨(hdecode pathless parse_pathless true answeringSite (hrange true)).mpr
    not_bareResult_pathless, ?_⟩
  refine hobtain ⟨"netconf:a", 1⟩ ⟨"netconf:b", 1⟩ (.bool true) terminalRequest answeringSite _ rfl rfl
    (fun reply h => hparsed reply h ▸ ⟨hrange true, not_bareResult_pathless⟩) ?_
  intro reply plan u hdecoded
  obtain ⟨hparse, -, hplan⟩ := (decoded_iff rfl).mp hdecoded
  obtain rfl := hparsed reply hparse
  exact absurd (congrArg Prod.fst hplan) (by
    show (.ok none : Outcome (Option Plan)) ≠ .ok (some plan)
    simp)

/-! ## What escapes -/

/-- What makes a plan of a reply fails for another reason than its shape, and so does decoding. -/
theorem exec_decode_of_planIn_error {f : Failure} (hresponds : hasResponse reply = .ok true)
    (hplan : planIn p.scheme reply both = .error f) (hf : isShapeFault f = false) (s : State) :
    Act.exec (p.decode reply both) s = (.error f, s) := by
  have hreading : readReply p.scheme reply both = .error f := by
    rw [readReply, hresponds]
    simp [hplan, hf, bind, Except.bind, throw, throwThe, MonadExceptOf.throw]
  rw [decode, hreading]
  exact exec_bind_error (exec_yield_error f s) _

/-- A reply is decoded as far as its label can be read. -/
theorem exec_decode_labelled {label : Json} {f : Failure} (hlabel : label.toWhole = .error f)
    (hf : isShapeFault f = false) (p : Planner) (both : Bool) (s : State) :
    Act.exec (p.decode (labelled label) both) s = (.error f, s) := by
  have hslot : slotOf (labelled label) = .error f := by
    show (do return some (← slotOfLabel (← label.toWhole))) = _
    rw [hlabel]
    rfl
  refine exec_decode_of_planIn_error rfl ?_ hf s
  rw [planIn, hslot]
  rfl

/-- A reply whose path has a quality and nothing else. -/
def qualified (quality : Json) : Json :=
  .obj [("result", .obj [("response", .arr [.obj [("path-properties", .obj [("path-route-objects", .arr []),
    ("path-metric", .arr [.obj [("metric-type", .str "OSNR-0.1nm"), ("accumulative-value", quality)]])])]])])]

/-- Such a reply is decoded as far as its quality can be read. -/
theorem exec_decode_qualified {quality : Json} {f : Failure} (hquality : quality.toFloat = .error f)
    (hf : isShapeFault f = false) (p : Planner) (both : Bool) (s : State) :
    Act.exec (p.decode (qualified quality) both) s = (.error f, s) := by
  have hlabel : slotOfLabel 0 = .ok ⟨.dwdm, .ghz50, 0, 4⟩ := Outcome.eq_ok_of_toOption (by decide +kernel)
  have hslot : slotOf (qualified quality) = .ok (some ⟨.dwdm, .ghz50, 0, 4⟩) := by
    show (do return some (← slotOfLabel 0)) = _
    rw [hlabel]
    rfl
  have hroute : routeOf p.scheme (qualified quality) both = .ok ⟨[], [], []⟩ := by
    cases both <;> rfl
  have hlaunch : launchPowerOf (qualified quality) = .ok unknownPower := rfl
  have hosnr : osnrOf (qualified quality) = .error f := hquality
  refine exec_decode_of_planIn_error rfl ?_ hf s
  rw [planIn, hslot, hroute, hlaunch, hosnr]
  rfl

/-- **The reply in a text escapes**: decoding it fails, and so does the run of an engine that answers with
it. -/
def Escapes (answer : String) (reply : Json) (f : Failure) : Prop :=
  Json.parse answer = .ok reply ∧
    Act.exec (notingPlanner.decode reply true) answeringSite = (.error f, answeringSite) ∧
    (Act.exec (notingPlanner.obtain ⟨"netconf:a", 1⟩ ⟨"netconf:b", 1⟩ (.bool true))
      (provisioningSite answer)).1 = .error f

/-- A reply that cannot be decoded anywhere escapes. -/
theorem escapes_of_decode {answer : String} {f : Failure} (hparse : Json.parse answer = .ok reply)
    (htruthy : reply.truthy = true)
    (hdecode : ∀ s, Act.exec (notingPlanner.decode reply true) s = (.error f, s)) :
    Escapes answer reply f := by
  refine ⟨hparse, hdecode _, ?_⟩
  rw [exec_obtain_provisioning hparse htruthy, followUp]
  exact congrArg Prod.fst (exec_bind_error (hdecode _) _)

/-- The text of a reply whose result is a number. -/
def bareText : String :=
  String.ofList (Json.fieldText "result" ['5'])

/-- The text of a reply with an infinite label. -/
def infiniteText : String :=
  String.ofList (labelText "Infinity".toList)

/-- A whole number beyond the floating-point ones. -/
def hugeQuality : Int := 10 ^ 400

/-- No floating-point number is near it. -/
theorem toFloat_hugeQuality : (Json.int hugeQuality).toFloat = .error .outOfRange := by
  have hlarge : ¬ (Numeral.parts (Numeral.nearestWhole hugeQuality)).isFinite = true := by decide +kernel
  rw [Json.toFloat, Json.floatOfInt]
  exact if_neg hlarge

/-- The text of a reply with this quality. -/
def hugeText : String :=
  String.ofList ("\x7b\"result\": \x7b\"response\": [\x7b\"path-properties\": \x7b".toList
    ++ "\"path-route-objects\": [], \"path-metric\": [\x7b\"metric-type\": \"OSNR-0.1nm\", ".toList
    ++ "\"accumulative-value\": 1".toList ++ List.replicate 400 '0' ++ "\x7d]\x7d\x7d]\x7d\x7d".toList)

/-- **Three kinds of replies escape**: a number as the result, an infinite label, and a quality beyond the
floating-point numbers. -/
theorem escapes_bare_infinite_huge :
    Escapes bareText (.obj [("result", .int 5)]) .wrongKind ∧
      Escapes infiniteText (labelled (.float (Numeral.infinity false))) .outOfRange ∧
      Escapes hugeText (qualified (.int hugeQuality)) .outOfRange := by
  have hinfinite : Numeral.parts (Numeral.infinity false) = .infinite false := by decide +kernel
  have hlabel : (Json.float (Numeral.infinity false)).toWhole = .error .outOfRange := by
    rw [Json.toWhole, hinfinite]
  have hbare : Json.parse bareText = .ok (.obj [("result", .int 5)]) :=
    Json.parse_of_parseChars (Outcome.eq_ok_of_toOption (by decide +kernel)) (by decide)
  have hinfiniteText : Json.parse infiniteText = .ok (labelled (.float (Numeral.infinity false))) :=
    Json.parse_of_parseChars (Outcome.eq_ok_of_toOption (by decide +kernel)) (by decide)
  have hhugeText : Json.parse hugeText = .ok (qualified (.int hugeQuality)) :=
    Json.parse_of_parseChars (Outcome.eq_ok_of_toOption (by decide +kernel)) (by decide)
  refine ⟨escapes_of_decode hbare rfl fun s => rfl,
    escapes_of_decode hinfiniteText rfl fun s => exec_decode_labelled hlabel rfl _ _ s,
    escapes_of_decode hhugeText rfl fun s => exec_decode_qualified toFloat_hugeQuality rfl _ _ s⟩

end Planner

end Lightpath.PathPlan
