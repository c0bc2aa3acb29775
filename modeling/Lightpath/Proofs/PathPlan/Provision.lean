import Lightpath.Controller.Services
import Lightpath.Proofs.Json.Equality
import Lightpath.Proofs.Json.Spelling
import Lightpath.Proofs.Outcome
import Lightpath.Proofs.PathPlan.Along
import Lightpath.Proofs.Site.Confined

/-!
# Nothing is done before a plan is complete

A circuit is provisioned in four phases: the engine is asked, links are looked up, powers are given
out, and the circuit is asked for. Each of them can end the run. Powers are given out only when the
whole reply of the engine has become a plan, and the circuit is asked for at most once and last.
Main statement: `obtain_in_order`, for every engine, power control, adjacency and circuit service.
-/

namespace Lightpath.PathPlan.Planner

open Lightpath.Site Lightpath.Topology Lightpath.Spectrum

variable {p : Planner} {s t u : State} {ingress egress : ConnectPoint} {flag reply : Json}
  {request : Request} {plan : Plan} {both : Bool}

/-! ## Asking the engine -/

/-- The engine is asked once, and a path that it cannot compute is no failure. -/
theorem exec_ask_cases
    (hrequest : (Request.between p.transceiverType ingress egress flag).outcome = .ok request)
    (s : State) :
    (∃ text t, Act.exec (Engine.post request.toJson) s = (.ok text, t) ∧
        Act.exec (p.ask ingress egress flag) s = (.ok (some text), t)) ∨
      ∃ f out t u, Act.exec (Engine.post request.toJson) s = (.error f, t) ∧
        Act.exec (p.ask ingress egress flag) s = (out, u) ∧ Logs t u ∧
        (out = .ok none ∨ out = .error f) := by
  rw [ask, hrequest, exec_bind_ok (exec_yield_ok request s)]
  rw [exec_tryCatch, exec_map]
  cases hpost : Act.exec (Engine.post request.toJson) s with
  | mk o t =>
    cases o with
    | ok text => exact Or.inl ⟨text, t, rfl, rfl⟩
    | error f =>
      refine Or.inr ⟨f, ?_⟩
      cases f with
      | computation reason => exact ⟨_, t, _, rfl, rfl, ⟨_, rfl⟩, Or.inl rfl⟩
      | _ => exact ⟨_, t, t, rfl, rfl, Logs.refl t, Or.inr rfl⟩

/-- The text of an answer is a reply when it can be read and counts as yes. -/
theorem exec_replyIn_cases (text : String) (s : State) :
    (∃ reply, Json.parse text = .ok reply ∧ reply.truthy = true ∧
        Act.exec (replyIn text) s = (.ok (some reply), s)) ∨
      ∃ t, Act.exec (replyIn text) s = (.ok none, t) ∧ Logs s t ∧
        ∀ reply, Json.parse text = .ok reply → ¬ reply.truthy = true := by
  rw [replyIn]
  cases hparse : Json.parse text with
  | error f => exact Or.inr ⟨_, rfl, ⟨_, rfl⟩, by simp⟩
  | ok reply =>
    by_cases htruthy : reply.truthy = true
    · exact Or.inl ⟨reply, rfl, htruthy, by simp [htruthy]⟩
    · refine Or.inr ⟨_, by simp only [htruthy]; rfl, ⟨_, rfl⟩, fun other hother => ?_⟩
      rwa [← Except.ok.inj hother]

/-! ## Decoding -/

/-- What a plan has of a reply: everything but the links. -/
structure Tells (scheme : String) (reply : Json) (both : Bool) (plan : Plan) : Prop where
  slot : slotOf reply = .ok plan.slot
  route : routeOf scheme reply both = .ok plan.route
  launchPower : launchPowerOf reply = .ok plan.launchPower
  osnr : osnrOf reply = .ok plan.osnr

/-- A plan is told by the reply that it is made of. -/
theorem tells_of_planIn {scheme : String} (h : planIn scheme reply both = .ok plan) :
    Tells scheme reply both plan := by
  rw [planIn] at h
  obtain ⟨slot, hslot, h⟩ := Outcome.bind_eq_ok_iff.mp h
  obtain ⟨route, hroute, h⟩ := Outcome.bind_eq_ok_iff.mp h
  obtain ⟨launch, hlaunch, h⟩ := Outcome.bind_eq_ok_iff.mp h
  obtain ⟨osnr, hosnr, h⟩ := Outcome.bind_eq_ok_iff.mp h
  obtain rfl := Except.ok.inj h
  exact ⟨hslot, hroute, hlaunch, hosnr⟩

/-- A reply that is read as a plan holds this plan. -/
theorem planIn_of_readReply {scheme : String} (h : readReply scheme reply both = .ok (.plan plan)) :
    planIn scheme reply both = .ok plan := by
  rw [readReply] at h
  obtain ⟨responds, -, h⟩ := Outcome.bind_eq_ok_iff.mp h
  cases responds with
  | false => exact absurd h (by simp [pure, Except.pure])
  | true =>
    cases hplan : planIn scheme reply both with
    | ok bare =>
      rw [hplan] at h
      obtain rfl : bare = plan := by simpa [pure, Except.pure] using h
      rfl
    | error f =>
      rw [hplan] at h
      cases hshape : isShapeFault f <;> simp [hshape, pure, Except.pure, throw, throwThe,
        MonadExceptOf.throw] at h

/-- A plan tells of the whole reply, and its path is what was looked up for its route. -/
theorem of_exec_decode (h : Act.exec (p.decode reply both) s = (.ok (some plan), t)) :
    Tells p.scheme reply both plan ∧
      Act.exec (p.linksAlong (hops plan.route.devices)) s = (.ok plan.path.links, t) := by
  rw [decode] at h
  cases hreading : readReply p.scheme reply both with
  | error f =>
    rw [hreading, exec_bind_error (exec_yield_error f s)] at h
    exact absurd (congrArg Prod.fst h) (by simp)
  | ok reading =>
    rw [hreading, exec_bind_ok (exec_yield_ok reading s)] at h
    cases reading with
    | unanswered =>
      have hnone : (.ok none : Outcome (Option Plan)) = .ok (some plan) := congrArg Prod.fst h
      exact absurd hnone (by simp)
    | malformed =>
      have hnone : (.ok none : Outcome (Option Plan)) = .ok (some plan) := congrArg Prod.fst h
      exact absurd hnone (by simp)
    | plan bare =>
      simp only at h
      cases hlinks : Act.exec (p.linksAlong (hops bare.route.devices)) s with
      | mk o u =>
        cases o with
        | error f =>
          rw [exec_bind_error hlinks] at h
          exact absurd (congrArg Prod.fst h) (by simp)
        | ok links =>
          rw [exec_bind_ok hlinks, exec_pure] at h
          obtain ⟨hplan, rfl⟩ := Prod.mk.inj h
          obtain rfl := Option.some.inj (Except.ok.inj hplan)
          have htells := tells_of_planIn (planIn_of_readReply hreading)
          exact ⟨⟨htells.slot, htells.route, htells.launchPower, htells.osnr⟩, hlinks⟩

/-- **The engine answers a request with a reply that becomes a whole plan**, at the site `u`. -/
def Decoded (p : Planner) (request : Request) (both : Bool) (s : State) (reply : Json) (plan : Plan)
    (u : State) : Prop :=
  ∃ text t, Act.exec (Engine.post request.toJson) s = (.ok text, t) ∧
    Json.parse text = .ok reply ∧ reply.truthy = true ∧
    Act.exec (p.decode reply both) t = (.ok (some plan), u)

/-- Nothing but the text of the answer decides what is decoded. -/
theorem decoded_iff {text : String} (hpost : Act.exec (Engine.post request.toJson) s = (.ok text, t)) :
    p.Decoded request both s reply plan u ↔ Json.parse text = .ok reply ∧ reply.truthy = true ∧
      Act.exec (p.decode reply both) t = (.ok (some plan), u) := by
  constructor
  · rintro ⟨other, v, kpost, hdecoded⟩
    obtain ⟨htext, rfl⟩ := Prod.mk.inj (hpost.symm.trans kpost)
    rwa [Except.ok.inj htext]
  · exact fun hdecoded => ⟨text, t, hpost, hdecoded⟩

/-- A site leads to one plan. -/
theorem Decoded.unique {other : Json} {plan' : Plan} (h : p.Decoded request both s reply plan u)
    (k : p.Decoded request both s other plan' t) : reply = other ∧ plan = plan' ∧ u = t := by
  obtain ⟨text, v, hpost, hparse, -, hdecode⟩ := h
  obtain ⟨kparse, -, kdecode⟩ := (decoded_iff hpost).mp k
  obtain rfl := Except.ok.inj (hparse.symm.trans kparse)
  obtain ⟨hplan, rfl⟩ := Prod.mk.inj (hdecode.symm.trans kdecode)
  exact ⟨rfl, Option.some.inj (Except.ok.inj hplan), rfl⟩

/-- A plan that is decoded is told by its reply. -/
theorem Decoded.tells (h : p.Decoded request both s reply plan u) :
    Tells p.scheme reply both plan := by
  obtain ⟨text, t, -, -, -, hdecode⟩ := h
  exact (of_exec_decode hdecode).1

/-! ## Asking for the circuit -/

/-- A slot that can be written; where there is none, this can. -/
def CanWrite (slot : Option Slot) : Prop :=
  ∃ text, slotText slot = .ok text

/-- A slot that cannot be written fails for its digits. -/
theorem slotText_of_not_canWrite {slot : Option Slot} (h : ¬ CanWrite slot) :
    slotText slot = .error .unreadable := by
  cases slot with
  | none => exact absurd ⟨_, rfl⟩ h
  | some slot =>
    rw [slotText, Slot.written]
    split
    · rename_i hwritable
      exact absurd ⟨slot.text, if_pos hwritable⟩ h
    · rfl

/-- **What comes of a circuit that was asked for.** If the circuit service has given it a name, this is yielded
with the quality of the plan, unless the slot of the plan cannot be written. -/
structure Concludes (plan : Plan) (answer : Except String String)
    (out : Outcome (Option (String × Float))) : Prop where
  pair_iff : ∀ id osnr, out = .ok (some (id, osnr)) ↔
    answer = .ok id ∧ CanWrite plan.slot ∧ osnr = plan.osnr
  unwritten : ∀ id, answer = .ok id → ¬ CanWrite plan.slot → out = .error .unreadable
  refused : ∀ text, answer = .error text → out = .ok none

/-- The circuit is asked for once, and the answer of the circuit service decides what comes of it. -/
theorem exec_submit (plan : Plan) (ingress egress : ConnectPoint) (flag : Json) (s : State) :
    ∃ out t, Act.exec (submit plan ingress egress flag) s = (out, t) ∧
      t.events = s.events ++ [submission plan ingress egress flag] ∧
      Concludes plan (s.circuits (submission plan ingress egress flag)) out := by
  rw [submit, exec_bind_ok (exec_send _ s), exec_bind_ok (exec_get _)]
  simp only
  cases s.circuits (submission plan ingress egress flag) with
  | error text =>
    exact ⟨.ok none, _, rfl, rfl, by simp, by simp, fun _ _ => rfl⟩
  | ok name =>
    simp only
    by_cases hslot : CanWrite plan.slot
    · obtain ⟨text, htext⟩ := id hslot
      rw [htext, exec_bind_ok (exec_yield_ok text _)]
      refine ⟨.ok (some (name, plan.osnr)), _, rfl, rfl, fun other osnr => ?_, ?_, by simp⟩
      · rw [Except.ok.injEq, Option.some.injEq, Prod.mk.injEq, Except.ok.injEq, eq_comm (b := osnr),
          and_iff_right hslot]
      · exact fun _ _ hno => absurd hslot hno
    · rw [slotText_of_not_canWrite hslot, exec_bind_error (exec_yield_error _ _)]
      exact ⟨.error .unreadable, _, rfl, rfl, by simp [hslot], fun _ _ _ => rfl, by simp⟩

/-! ## The order of messages -/

/-- **What is done of a circuit, and when.** The messages of a run are those to the engine, to the
link database, to devices and the control of powers and to the circuit service, in this order. -/
structure InOrder (p : Planner) (ingress egress : ConnectPoint) (flag : Json) (request : Request)
    (s : State) (out : Outcome (Option (String × Float)))
    (asked looked powered submitted : List Event) : Prop where
  /-- An engine without a session is asked nothing, and nothing comes of it. -/
  unasked : Engine.connectedIn s = false → asked = [] ∧ out = .ok none
  /-- An engine with a session is asked once, -/
  asked_eq : Engine.connectedIn s = true → asked = Engine.requestsFor s request.toJson
  /-- so exactly one request goes out, unless it cannot be sent at all. -/
  asked_one : ∀ c session address authorization, s.engine = some c → c.session = some session →
    Engine.prepare c session request.toJson = .ok (address, authorization) →
    asked = [.request address authorization c.timeout request.toJson]
  looked_store : ∀ e ∈ looked, e.toStore = true
  powered_power : ∀ e ∈ powered, e.toPower = true
  /-- No power is given out and no circuit is asked for unless the whole reply became a plan. -/
  complete : powered ≠ [] ∨ submitted ≠ [] →
    ∃ reply plan u, p.Decoded request flag.truthy s reply plan u
  /-- A circuit is asked for at most once, as it was decoded and as the caller wants it. -/
  submitted_eq : submitted ≠ [] → ∃ reply plan u, p.Decoded request flag.truthy s reply plan u ∧
    slotOf reply = .ok plan.slot ∧ submitted = [submission plan ingress egress flag]
  /-- A circuit is asked for unless a power cannot be given out. -/
  submits : ∀ reply plan u n v, p.Decoded request flag.truthy s reply plan u →
    Act.exec (p.applyPowers plan ingress egress) u = (.ok n, v) → submitted ≠ []
  /-- A pair is yielded just when the circuit service has given a name and the slot of the plan can be
  written. It is this name with the quality in the reply. -/
  pair_iff : ∀ id osnr, out = .ok (some (id, osnr)) ↔
    ∃ reply plan u, p.Decoded request flag.truthy s reply plan u ∧ submitted ≠ [] ∧
      s.circuits (submission plan ingress egress flag) = .ok id ∧ CanWrite plan.slot ∧
      osnrOf reply = .ok osnr
  /-- A slot that cannot be written makes a run fail, although the circuit has been given a name. -/
  unwritten : ∀ reply plan u id, p.Decoded request flag.truthy s reply plan u → submitted ≠ [] →
    s.circuits (submission plan ingress egress flag) = .ok id → ¬ CanWrite plan.slot →
    out = .error .unreadable
  /-- Nothing comes of a circuit that the service refuses. -/
  refused : ∀ reply plan u text, p.Decoded request flag.truthy s reply plan u → submitted ≠ [] →
    s.circuits (submission plan ingress egress flag) = .error text → out = .ok none

variable {out : Outcome (Option (String × Float))} {asked looked powered submitted : List Event}

/-- A run that ends before there is a plan does nothing more. -/
theorem inOrder_of_not_decoded
    (hno : ∀ reply plan u, ¬ p.Decoded request flag.truthy s reply plan u)
    (hasked : asked = Engine.requestsFor s request.toJson)
    (hunasked : Engine.connectedIn s = false → asked = [] ∧ out = .ok none)
    (hlooked : ∀ e ∈ looked, e.toStore = true) (hout : ∀ pair, out ≠ .ok (some pair)) :
    p.InOrder ingress egress flag request s out asked looked [] [] where
  unasked := hunasked
  asked_eq := fun _ => hasked
  asked_one := fun c session address authorization hengine hsession hprepare =>
    hasked.trans (Engine.requestsFor_of_prepare hengine hsession hprepare)
  looked_store := hlooked
  powered_power := by simp
  complete := by simp
  submitted_eq := by simp
  submits := fun reply plan u n v h => absurd h (hno reply plan u)
  pair_iff := fun id osnr => ⟨fun h => absurd h (hout (id, osnr)),
    fun ⟨reply, plan, u, h, _⟩ => absurd h (hno reply plan u)⟩
  unwritten := fun reply plan u id h => absurd h (hno reply plan u)
  refused := fun reply plan u text h => absurd h (hno reply plan u)

/-- A run that has a plan gives out its powers and then asks for its circuit. -/
theorem exists_inOrder_of_decoded (ingress egress : ConnectPoint)
    (hpower : ∀ device port component value,
      Confined Event.toPower (p.power.set device port component value))
    (h : p.Decoded request flag.truthy s reply plan u) (hcircuits : u.circuits = s.circuits)
    (hconnected : Engine.connectedIn s = true)
    (hasked : asked = Engine.requestsFor s request.toJson)
    (hlooked : ∀ e ∈ looked, e.toStore = true) :
    ∃ out t powered submitted,
      Act.exec (p.carryOut ingress egress flag plan) u = (out, t) ∧
      t.events = u.events ++ powered ++ submitted ∧
      p.InOrder ingress egress flag request s out asked looked powered submitted := by
  obtain ⟨kcircuits, powered, hevents, hpowered⟩ :=
    along_applyPowers hpower plan ingress egress u
  have hunasked (out : Outcome (Option (String × Float))) :
      Engine.connectedIn s = false → asked = [] ∧ out = .ok none :=
    fun hno => absurd (hconnected.symm.trans hno) (by simp)
  have hone : ∀ c session address authorization, s.engine = some c → c.session = some session →
      Engine.prepare c session request.toJson = .ok (address, authorization) →
      asked = [.request address authorization c.timeout request.toJson] :=
    fun c session address authorization hengine hsession hprepare =>
      hasked.trans (Engine.requestsFor_of_prepare hengine hsession hprepare)
  cases hrun : Act.exec (p.applyPowers plan ingress egress) u with
  | mk o v =>
    rw [hrun] at kcircuits hevents
    cases o with
    | error f =>
      have hfailed : Act.exec (discard (p.applyPowers plan ingress egress)) u = (.error f, v) := by
        rw [exec_discard, hrun]
        rfl
      refine ⟨_, v, powered, [], exec_bind_error hfailed _, by rw [hevents, List.append_nil],
        { unasked := hunasked _
          asked_eq := fun _ => hasked
          asked_one := hone
          looked_store := hlooked
          powered_power := hpowered
          complete := fun _ => ⟨reply, plan, u, h⟩
          submitted_eq := by simp
          submits := ?_
          pair_iff := by simp
          unwritten := by simp
          refused := by simp }⟩
      intro reply' plan' u' n w h' hfine
      obtain ⟨-, rfl, rfl⟩ := h.unique h'
      exact absurd (congrArg Prod.fst (hrun.symm.trans hfine)) (by simp)
    | ok n =>
      obtain ⟨out, t, hsubmit, hsubmitted, hconcludes⟩ := exec_submit plan ingress egress flag v
      have hdone : Act.exec (discard (p.applyPowers plan ingress egress)) u = (.ok (), v) := by
        rw [exec_discard, hrun]
        rfl
      rw [kcircuits, hcircuits] at hconcludes
      refine ⟨_, t, powered, _, (exec_bind_ok hdone _).trans hsubmit, by rw [hsubmitted, hevents],
        { unasked := hunasked _
          asked_eq := fun _ => hasked
          asked_one := hone
          looked_store := hlooked
          powered_power := hpowered
          complete := fun _ => ⟨reply, plan, u, h⟩
          submitted_eq := fun _ => ⟨reply, plan, u, h, h.tells.slot, rfl⟩
          submits := fun _ _ _ _ _ _ _ => List.cons_ne_nil _ _
          pair_iff := ?_
          unwritten := ?_
          refused := ?_ }⟩
      · intro id osnr
        rw [hconcludes.pair_iff]
        constructor
        · rintro ⟨hname, hslot, rfl⟩
          exact ⟨reply, plan, u, h, List.cons_ne_nil _ _, hname, hslot, h.tells.osnr⟩
        · rintro ⟨reply', plan', u', h', -, hname, hslot, hosnr⟩
          obtain ⟨rfl, rfl, -⟩ := h.unique h'
          exact ⟨hname, hslot, Except.ok.inj (hosnr.symm.trans h.tells.osnr)⟩
      · intro reply' plan' u' id h' _ hname hslot
        obtain ⟨-, rfl, -⟩ := h.unique h'
        exact hconcludes.unwritten id hname hslot
      · intro reply' plan' u' text h' _ hrefused
        obtain ⟨-, rfl, -⟩ := h.unique h'
        exact hconcludes.refused text hrefused

/-! ## Whole runs -/

/-- Without a session nothing is done but a line logged. -/
theorem exec_obtain_of_not_connected (h : Engine.connectedIn s = false) (p : Planner)
    (ingress egress : ConnectPoint) (flag : Json) :
    ∃ t, Act.exec (p.obtain ingress egress flag) s = (.ok none, t) ∧ Logs s t := by
  rw [obtain, exec_bind_ok (Engine.exec_isConnected s), h]
  exact ⟨_, rfl, _, rfl⟩

/-- A run that ends before there is a plan: only the link database has been asked since. -/
def Stops (p : Planner) (request : Request) (flag : Json) (s t : State)
    (run : Outcome (Option (String × Float)) × State) : Prop :=
  (∀ reply plan u, ¬ p.Decoded request flag.truthy s reply plan u) ∧
    (∀ pair, run.1 ≠ .ok (some pair)) ∧
    ∃ looked, run.2.events = t.events ++ looked ∧ ∀ e ∈ looked, e.toStore = true

/-- A run that goes on with a plan. -/
def GoesOn (p : Planner) (ingress egress : ConnectPoint) (request : Request) (flag : Json)
    (s t : State) (run : Outcome (Option (String × Float)) × State) : Prop :=
  ∃ reply plan u looked, p.Decoded request flag.truthy s reply plan u ∧
    run = Act.exec (p.carryOut ingress egress flag plan) u ∧ u.circuits = t.circuits ∧
    u.events = t.events ++ looked ∧ ∀ e ∈ looked, e.toStore = true

/-- The text of an answer is taken up if it becomes a plan. -/
theorem exec_takeUp_cases (hadj : ∀ device, Confined Event.toStore (p.adjacency device))
    {text : String} (hpost : Act.exec (Engine.post request.toJson) s = (.ok text, t)) :
    p.Stops request flag s t (Act.exec (p.takeUp ingress egress flag text) t) ∨
      p.GoesOn ingress egress request flag s t
        (Act.exec (p.takeUp ingress egress flag text) t) := by
  rw [takeUp]
  obtain ⟨reply, hparse, htruthy, hreply⟩ | ⟨u, hnone, htu, hno⟩ := exec_replyIn_cases text t
  · have hdecoded (other : Json) (plan : Plan) (u : State) :
        p.Decoded request flag.truthy s other plan u ↔
          reply = other ∧ Act.exec (p.decode other flag.truthy) t = (.ok (some plan), u) := by
      rw [decoded_iff hpost, hparse, Except.ok.injEq]
      refine and_congr_right fun hsame => and_iff_right ?_
      rwa [← hsame]
    obtain ⟨hcircuits, looked, hevents, hlooked⟩ := along_decode hadj reply flag.truthy t
    rw [exec_bind_ok hreply]
    simp only
    rw [followUp]
    cases hdecode : Act.exec (p.decode reply flag.truthy) t with
    | mk o u =>
      rw [hdecode] at hcircuits hevents
      have hundecoded (ho : ∀ plan, o ≠ .ok (some plan)) :
          ∀ other plan v, ¬ p.Decoded request flag.truthy s other plan v := by
        rintro other plan v hother
        obtain ⟨rfl, hplan⟩ := (hdecoded _ _ _).mp hother
        exact ho plan (congrArg Prod.fst (hdecode.symm.trans hplan))
      match o with
      | .error f =>
        rw [exec_bind_error hdecode]
        exact Or.inl ⟨hundecoded (by simp), by simp, looked, hevents, hlooked⟩
      | .ok none =>
        rw [exec_bind_ok hdecode]
        exact Or.inl ⟨hundecoded (by simp), by simp, looked, hevents, hlooked⟩
      | .ok (some plan) =>
        rw [exec_bind_ok hdecode]
        exact Or.inr ⟨reply, plan, u, looked, (hdecoded _ _ _).mpr ⟨rfl, hdecode⟩, rfl, hcircuits,
          hevents, hlooked⟩
  · rw [exec_bind_ok hnone]
    refine Or.inl ⟨fun reply plan v hdecoded => ?_, by simp, [], htu.sends.events, by simp⟩
    obtain ⟨hparse, htruthy, -⟩ := (decoded_iff hpost).mp hdecoded
    exact hno reply hparse htruthy

/-- **A run with a session ends without a plan, or it goes on with the plan in the reply.** -/
theorem exec_obtain_cases (hadj : ∀ device, Confined Event.toStore (p.adjacency device))
    (hrequest : (Request.between p.transceiverType ingress egress flag).outcome = .ok request)
    (h : Engine.connectedIn s = true) :
    ∃ t, t.events = s.events ++ Engine.requestsFor s request.toJson ∧ t.circuits = s.circuits ∧
      (p.Stops request flag s t (Act.exec (p.obtain ingress egress flag) s) ∨
        p.GoesOn ingress egress request flag s t
          (Act.exec (p.obtain ingress egress flag) s)) := by
  obtain ⟨hevents, hrest⟩ := Engine.exec_post request.toJson s
  have hcircuits := congrArg State.circuits hrest
  rw [obtain, exec_bind_ok (Engine.exec_isConnected s), h]
  simp only [Bool.not_true, Bool.false_eq_true, if_false]
  obtain ⟨text, t, hpost, hask⟩ | ⟨f, out, t, u, hpost, hask, htu, hout⟩ :=
    exec_ask_cases hrequest s
  · rw [hpost] at hevents hcircuits
    rw [exec_bind_ok hask]
    exact ⟨t, hevents, hcircuits, exec_takeUp_cases hadj hpost⟩
  · rw [hpost] at hevents hcircuits
    refine ⟨t, hevents, hcircuits, Or.inl ⟨fun reply plan v hdecoded => ?_, ?_⟩⟩
    · obtain ⟨text, w, hfine, -⟩ := hdecoded
      exact absurd (congrArg Prod.fst (hpost.symm.trans hfine)) (by simp)
    · obtain rfl | rfl := hout
      · rw [exec_bind_ok hask]
        exact ⟨by simp, [], htu.sends.events, by simp⟩
      · rw [exec_bind_error hask]
        exact ⟨by simp, [], htu.sends.events, by simp⟩

/-- **Nothing is done before a plan is complete.** However the engine, the adjacency, the control of
powers and the circuit service behave, the messages of a run are in order. -/
theorem obtain_in_order (hadj : ∀ device, Confined Event.toStore (p.adjacency device))
    (hpower : ∀ device port component value,
      Confined Event.toPower (p.power.set device port component value))
    (hrequest : (Request.between p.transceiverType ingress egress flag).outcome = .ok request)
    (s : State) :
    ∃ asked looked powered submitted,
      messages (p.obtain ingress egress flag) s = asked ++ looked ++ powered ++ submitted ∧
      p.InOrder ingress egress flag request s (Act.exec (p.obtain ingress egress flag) s).1
        asked looked powered submitted := by
  cases hconnected : Engine.connectedIn s with
  | false =>
    obtain ⟨hasked, f, hpost⟩ := Engine.post_of_not_connected hconnected request.toJson
    obtain ⟨t, hrun, hst⟩ := exec_obtain_of_not_connected hconnected p ingress egress flag
    rw [hst.sends.messages hrun, hrun]
    refine ⟨[], [], [], [], rfl, inOrder_of_not_decoded (fun reply plan u h => ?_) hasked.symm
      (fun _ => ⟨rfl, rfl⟩) (by simp) (by simp)⟩
    obtain ⟨text, v, hfine, -⟩ := h
    exact absurd (congrArg Prod.fst (hpost.symm.trans hfine)) (by simp)
  | true =>
    have hunasked (out : Outcome (Option (String × Float))) (asked : List Event) :
        Engine.connectedIn s = false → asked = [] ∧ out = .ok none :=
      fun hno => absurd (hconnected.symm.trans hno) (by simp)
    obtain ⟨t, hasked, hcircuits, hcases⟩ := exec_obtain_cases hadj hrequest hconnected
    obtain ⟨hno, hout, looked, hevents, hlooked⟩ |
      ⟨reply, plan, u, looked, hdecoded, hrun, kcircuits, hevents, hlooked⟩ := hcases
    · refine ⟨Engine.requestsFor s request.toJson, looked, [], [], ?_,
        inOrder_of_not_decoded hno rfl (hunasked _ _) hlooked hout⟩
      rw [messages, hevents, hasked]
      simp
    · obtain ⟨out, v, powered, submitted, hrest, hmore, horder⟩ :=
        exists_inOrder_of_decoded ingress egress hpower hdecoded (kcircuits.trans hcircuits)
          hconnected rfl hlooked
      refine ⟨Engine.requestsFor s request.toJson, looked, powered, submitted, ?_, ?_⟩
      · rw [messages, hrun, hrest, hmore, hevents, hasked]
        simp
      · rw [hrun, hrest]
        exact horder

/-! ## Runs whose engine answers -/

/-- A run in which the engine answers goes on with the text of the answer. -/
theorem exec_obtain_of_post {text : String}
    (hrequest : (Request.between p.transceiverType ingress egress flag).outcome = .ok request)
    (hpost : Act.exec (Engine.post request.toJson) s = (.ok text, t)) :
    Act.exec (p.obtain ingress egress flag) s
      = Act.exec (p.takeUp ingress egress flag text) t := by
  have hconnected : Engine.connectedIn s = true := by
    cases hno : Engine.connectedIn s with
    | true => rfl
    | false =>
      obtain ⟨-, f, hfault⟩ := Engine.post_of_not_connected hno request.toJson
      exact absurd (hpost.symm.trans hfault) (by simp)
  rw [obtain, exec_bind_ok (Engine.exec_isConnected s), hconnected]
  simp only [Bool.not_true, Bool.false_eq_true, if_false]
  obtain ⟨answer, u, kpost, hask⟩ | ⟨f, out, u, v, kpost, -⟩ := exec_ask_cases hrequest s
  · obtain ⟨htext, rfl⟩ := Prod.mk.inj (hpost.symm.trans kpost)
    rw [exec_bind_ok hask, Except.ok.inj htext]
  · exact absurd (hpost.symm.trans kpost) (by simp)

/-- A reply in the answer is followed up. -/
theorem exec_obtain_of_parse {text : String}
    (hrequest : (Request.between p.transceiverType ingress egress flag).outcome = .ok request)
    (hpost : Act.exec (Engine.post request.toJson) s = (.ok text, t))
    (hparse : Json.parse text = .ok reply) (htruthy : reply.truthy = true) :
    Act.exec (p.obtain ingress egress flag) s = Act.exec (p.followUp ingress egress flag reply) t := by
  rw [exec_obtain_of_post hrequest hpost, takeUp, replyIn, hparse]
  simp only [htruthy, if_true]
  exact exec_bind_ok (exec_pure _ t) _

/-! ## A planner that takes notes of powers -/

/-- A planner whose control of powers takes notes, and which asks the link database for links. -/
def notingPlanner : Planner :=
  ⟨"netconf:", "Cassini", Power.Control.notes none, LinkStore.deviceLinks⟩

/-- A site with a session to an engine, which answers that it has a response without a path. -/
def answeringSite : State :=
  { State.ofDevices [] with
    engine := some ⟨"http://engine:80", "/plan", 5.0, some ⟨none⟩⟩
    answers := [.reply 200 "OK" "\x7b\"result\": \x7b\"response\": []\x7d\x7d"] }

/-- The request for a path between two terminals. -/
def terminalRequest : Request :=
  ⟨[⟨"test", "netconf:a", "netconf:b", "netconf:a", "netconf:b", true,
    ⟨.unconstrained "Cassini"⟩⟩]⟩

/-- A site whose engine gives an answer and whose circuit service gives a name. In the link database there is
a link from one terminal to the other. -/
def provisioningSite (answer : String) : State :=
  { answeringSite with
    answers := [.reply 200 "OK" answer]
    circuits := fun _ => .ok "circuit-1"
    store := ⟨[("device_links:netconf:a", ["l1"])],
      [("link:l1", [("src", "netconf:a/2"), ("dst", "netconf:b/2")])]⟩ }

/-- This site when the engine has been asked for a path between the terminals. -/
def provisioningSiteAsked (answer : String) : State :=
  { provisioningSite answer with
    answers := []
    events := [.request "http://engine:80/plan" none 5.0 terminalRequest.toJson] }

/-- The run goes on with the reply in the answer. -/
theorem exec_obtain_provisioning {answer : String} (hparse : Json.parse answer = .ok reply)
    (htruthy : reply.truthy = true) :
    Act.exec (notingPlanner.obtain ⟨"netconf:a", 1⟩ ⟨"netconf:b", 1⟩ (.bool true)) (provisioningSite answer)
      = Act.exec (notingPlanner.followUp ⟨"netconf:a", 1⟩ ⟨"netconf:b", 1⟩ (.bool true) reply)
        (provisioningSiteAsked answer) := by
  have hpost : Act.exec (Engine.post terminalRequest.toJson) (provisioningSite answer)
      = (.ok answer, provisioningSiteAsked answer) := rfl
  exact exec_obtain_of_parse rfl hpost hparse htruthy

/-- A route object of a device. -/
def hopObject (device : String) : Json :=
  .obj [("path-route-object", .obj [("num-unnum-hop", .obj [("node-id", .str device)])])]

/-- A route object that tells a power. -/
def powerObject (power : Float) : Json :=
  .obj [("path-route-object", .obj [("target-channel-power", .obj [("value", .float power)])])]

/-- A route object that tells nothing. -/
def plainObject : Json :=
  .obj [("path-route-object", .obj [])]

/-- A reply with a route from one terminal to the other, a power for the first one and a launch power. -/
def provisioningReply : Json :=
  .obj [("result", .obj [("response", .arr [.obj [("path-properties", .obj [
    ("path-route-objects", .arr [hopObject "netconf:a", plainObject, powerObject (-2.0),
      hopObject "netconf:b", plainObject]),
    ("path-metric", .arr [.obj [("metric-type", .str "reference_power"),
      ("accumulative-value", .float 0.001)]])])]])])]

/-- This reply as a text. -/
def provisioningText : String :=
  String.ofList ("\x7b\"result\": \x7b\"response\": [\x7b\"path-properties\": \x7b".toList
    ++ "\"path-route-objects\": [\x7b\"path-route-object\": \x7b\"num-unnum-hop\": ".toList
    ++ "\x7b\"node-id\": \"netconf:a\"\x7d\x7d\x7d, \x7b\"path-route-object\": \x7b\x7d\x7d, ".toList
    ++ "\x7b\"path-route-object\": \x7b\"target-channel-power\": \x7b\"value\": -2.0\x7d\x7d\x7d, ".toList
    ++ "\x7b\"path-route-object\": \x7b\"num-unnum-hop\": \x7b\"node-id\": \"netconf:b\"\x7d\x7d\x7d, ".toList
    ++ "\x7b\"path-route-object\": \x7b\x7d\x7d], \"path-metric\": [\x7b\"metric-type\": ".toList
    ++ "\"reference_power\", \"accumulative-value\": 0.001\x7d]\x7d\x7d]\x7d\x7d".toList)

theorem parse_provisioningText : Json.parse provisioningText = .ok provisioningReply :=
  Json.parse_of_parseChars (Outcome.eq_ok_of_toOption (by decide +kernel)) (by decide)

/-- The circuit between the terminals is provisioned: after the request three powers are given out, the circuit
is asked for once, and its name is yielded. -/
theorem obtain_in_order_provisioning :
    (messages (notingPlanner.obtain ⟨"netconf:a", 1⟩ ⟨"netconf:b", 1⟩ (.bool true))
        (provisioningSite provisioningText)).map Event.toPower = [false, true, true, true, false] ∧
      ((Act.exec (notingPlanner.obtain ⟨"netconf:a", 1⟩ ⟨"netconf:b", 1⟩ (.bool true))
        (provisioningSite provisioningText)).1.toOption.bind id).map Prod.fst = some "circuit-1" ∧
      ∃ asked looked powered submitted,
        messages (notingPlanner.obtain ⟨"netconf:a", 1⟩ ⟨"netconf:b", 1⟩ (.bool true))
            (provisioningSite provisioningText)
          = asked ++ looked ++ powered ++ submitted ∧
        notingPlanner.InOrder ⟨"netconf:a", 1⟩ ⟨"netconf:b", 1⟩ (.bool true) terminalRequest
          (provisioningSite provisioningText)
          (Act.exec (notingPlanner.obtain ⟨"netconf:a", 1⟩ ⟨"netconf:b", 1⟩ (.bool true))
            (provisioningSite provisioningText)).1
          asked looked powered submitted := by
  have hrun := exec_obtain_provisioning parse_provisioningText rfl
  refine ⟨?_, ?_, obtain_in_order (p := notingPlanner) (LinkStore.confined_deviceLinks _)
    (Power.confined_notes none) rfl (provisioningSite provisioningText)⟩
  · rw [messages, hrun]
    decide +kernel
  · rw [hrun]
    decide +kernel

/-! ## A slot that cannot be written -/

/-- A reply whose path has one label and nothing else. -/
def labelled (label : Json) : Json :=
  .obj [("result", .obj [("response", .arr [.obj [("path-properties", .obj [("path-route-objects",
    .arr [.obj [("path-route-object", .obj [("label-hop", .obj [("N", label)])])]])])]])])]

/-- The text of such a reply. -/
def labelText (label : List Char) : List Char :=
  Json.fieldText "result" (Json.fieldText "response" (Json.itemText (Json.fieldText "path-properties"
    (Json.fieldText "path-route-objects" (Json.itemText (Json.fieldText "path-route-object"
      (Json.fieldText "label-hop" (Json.fieldText "N" label))))))))

/-- The text of a label is read as the label in its place. -/
theorem parse_labelText {label : List Char} {v : Json} (h : Json.Spells label v) :
    Json.parse (String.ofList (labelText label)) = .ok (labelled v) := by
  refine Json.parse_of_spells ?_ (by simp [labelText, Json.fieldText])
  exact .field (by decide) (.field (by decide) (.item (.field (by decide) (.field (by decide)
    (.item (.field (by decide) (.field (by decide) (.field (by decide) h))))))))

/-- The plan in such a reply: no route, no known powers and the slot of the label. -/
def labelPlan (slot : Slot) : Plan :=
  ⟨⟨[], [], []⟩, unknownPower, unknownOsnr, some slot, ⟨[]⟩⟩

/-- A label that has a slot makes a plan of the reply. -/
theorem exec_decode_of_slotOfLabel {label : Json} {n : Int} {slot : Slot} (hlabel : label.toWhole = .ok n)
    (hslot : slotOfLabel n = .ok slot) (p : Planner) (both : Bool) (s : State) :
    Act.exec (p.decode (labelled label) both) s = (.ok (some (labelPlan slot)), s) := by
  have hresponds : hasResponse (labelled label) = .ok true := rfl
  have hslotOf : slotOf (labelled label) = .ok (some slot) := by
    show (do return some (← slotOfLabel (← label.toWhole))) = _
    rw [hlabel]
    show (do return some (← slotOfLabel n)) = _
    rw [hslot]
    rfl
  have hroute : routeOf p.scheme (labelled label) both = .ok ⟨[], [], []⟩ := by
    cases both <;> rfl
  have hplan : planIn p.scheme (labelled label) both = .ok (labelPlan slot) := by
    rw [planIn, hslotOf, hroute]
    rfl
  have hreading : readReply p.scheme (labelled label) both = .ok (.plan (labelPlan slot)) := by
    rw [readReply, hresponds]
    simp [hplan, bind, Except.bind, pure, Except.pure]
  rw [decode, hreading]
  rfl

/-- The circuit of such a plan is asked for without any power. -/
theorem exec_carryOut_labelPlan (slot : Slot) (p : Planner) (ingress egress : ConnectPoint) (flag : Json)
    (s : State) :
    Act.exec (p.carryOut ingress egress flag (labelPlan slot)) s
      = Act.exec (submit (labelPlan slot) ingress egress flag) s := by
  have hpowers : Act.exec (p.applyPowers (labelPlan slot) ingress egress) s = (.ok 0, s) := by
    have hunknown : ((labelPlan slot).launchPower == unknownPower) = true :=
      (by decide +kernel : (unknownPower == unknownPower) = true)
    have hlinks : Act.exec (p.setLinkPowers (labelPlan slot) (labelPlan slot).path.links) s = (.ok 0, s) := rfl
    rw [applyPowers, exec_bind_ok hlinks, if_pos hunknown]
    rfl
  rw [carryOut, exec_bind_ok (by rw [exec_discard, hpowers]; rfl)]

/-- An answer with a label of as many digits as are read. -/
def longAnswer : String :=
  String.ofList (labelText (List.replicate Numeral.maxDigits '9'))

/-- The slot of this label: its multiplier has one digit more. -/
def longSlot : Slot :=
  ⟨.dwdm, .ghz50, 10 ^ Numeral.maxDigits, 4⟩

/-- Rounded to 28 digits, the nines are the power of ten. -/
theorem slotOfLabel_long : slotOfLabel (10 ^ Numeral.maxDigits - 1 : Nat) = .ok longSlot :=
  Outcome.eq_ok_of_toOption (by decide +kernel)

/-- A power of ten has one digit more than there are zeros. -/
theorem not_canWrite_longSlot : ¬ CanWrite (some longSlot) := by
  rintro ⟨text, htext⟩
  rw [slotText, Slot.written, if_neg fun hwritable => Numeral.not_writable_ten_pow hwritable.1] at htext
  exact absurd htext (by simp)

/-- **A circuit can be there although the run fails**: the circuit service is asked for it and gives it a name,
but its slot cannot be written into the log. -/
theorem obtain_fails_of_longSlot :
    (Act.exec (notingPlanner.obtain ⟨"netconf:a", 1⟩ ⟨"netconf:b", 1⟩ (.bool true))
        (provisioningSite longAnswer)).1 = .error .unreadable ∧
      submission (labelPlan longSlot) ⟨"netconf:a", 1⟩ ⟨"netconf:b", 1⟩ (.bool true)
        ∈ messages (notingPlanner.obtain ⟨"netconf:a", 1⟩ ⟨"netconf:b", 1⟩ (.bool true))
          (provisioningSite longAnswer) ∧
      (provisioningSite longAnswer).circuits
        (submission (labelPlan longSlot) ⟨"netconf:a", 1⟩ ⟨"netconf:b", 1⟩ (.bool true))
          = .ok "circuit-1" := by
  have hparse : Json.parse longAnswer = .ok (labelled (.int (10 ^ Numeral.maxDigits - 1 : Nat))) :=
    parse_labelText (Json.spells_nines (by decide) (Nat.le_refl _))
  have hrun := exec_obtain_provisioning hparse rfl
  rw [followUp, exec_bind_ok (exec_decode_of_slotOfLabel rfl slotOfLabel_long _ _ _)] at hrun
  obtain ⟨out, t, hsubmit, hevents, hconcludes⟩ := exec_submit (labelPlan longSlot) ⟨"netconf:a", 1⟩
    ⟨"netconf:b", 1⟩ (.bool true) (provisioningSiteAsked longAnswer)
  simp only [exec_carryOut_labelPlan, hsubmit] at hrun
  refine ⟨?_, ?_, rfl⟩
  · rw [hrun]
    exact hconcludes.unwritten "circuit-1" rfl not_canWrite_longSlot
  · rw [messages, hrun, hevents]
    exact List.mem_append_right _ (List.mem_singleton_self _)

end Lightpath.PathPlan.Planner
