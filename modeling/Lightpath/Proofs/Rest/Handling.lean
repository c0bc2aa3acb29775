import Lightpath.Rest.Handler
import Lightpath.Proofs.PathPlan.Along
import Lightpath.Proofs.Site.Confined

/-!
# Laws of answering requests

How a handling runs step by step, which relations it follows, and what the answer to a request does to the
site: what the handling of its route does, or nothing if there is no such route.
-/

namespace Lightpath.Rest

open Lightpath.Site Lightpath.Controller Lightpath.Topology

variable {α β : Type}

/-! ## Runs -/

section Runs

variable {s t : State} {reply : Reply}

/-- The second of two steps runs on what the first one yields. -/
theorem exec_run_bind_ok {x : Handling α} {a : α} (h : Act.exec x.run s = (.ok (.ok a), t))
    (f : α → Handling β) : Act.exec (x >>= f).run s = Act.exec (f a).run t := by
  rw [ExceptT.run_bind, exec_bind_ok h]

/-- A step that refuses the request is the last one. -/
theorem exec_run_bind_refused {x : Handling α} (h : Act.exec x.run s = (.ok (.error reply), t))
    (f : α → Handling β) : Act.exec (x >>= f).run s = (.ok (.error reply), t) := by
  rw [ExceptT.run_bind, exec_bind_ok h, exec_pure]

/-- A second step that only looks leaves what the first one leaves. -/
theorem snd_exec_run_bind {x : Handling α} {f : α → Handling β}
    (hf : ∀ a t, (Act.exec (f a).run t).2 = t) (s : State) :
    (Act.exec (x >>= f).run s).2 = (Act.exec x.run s).2 := by
  rw [ExceptT.run_bind, exec_bind]
  cases Act.exec x.run s with
  | mk o t =>
    cases o with
    | error f => rfl
    | ok step =>
      cases step with
      | ok a => exact hf a t
      | error reply => rfl

/-- A step that yields a value does so inside the handling of a request. -/
theorem exec_run_lift {a : Act α} {v : α} (h : Act.exec a s = (.ok v, t)) :
    Act.exec (liftM a : Handling α).run s = (.ok (.ok v), t) := by
  rw [ExceptT.run_liftM, exec_map, h]
  rfl

/-- A step that fails is the last one too. -/
theorem exec_run_bind_failed {a : Act α} {failure : Failure} (h : Act.exec a s = (.error failure, t))
    (f : α → Handling β) : Act.exec (liftM a >>= f : Handling β).run s = (.error failure, t) := by
  have hlift : Act.exec (liftM a : Handling α).run s = (.error failure, t) := by
    rw [ExceptT.run_liftM, exec_map, h]
    rfl
  rw [ExceptT.run_bind, exec_bind_error hlift]

/-- The handling of a request changes the site as the step in it does. -/
theorem snd_exec_run_lift (a : Act α) (s : State) :
    (Act.exec (liftM a : Handling α).run s).2 = (Act.exec a s).2 := by
  rw [ExceptT.run_liftM, exec_map]

end Runs

/-! ## Bodies -/

/-- The record that the body of a request holds, if it holds one. -/
def carried? (check : Form.Check α) (r : Request) : Option α :=
  match bodyOf r with
  | .error _ => none
  | .ok body =>
    match checkedBody check body with
    | .ok a => some a
    | .bad _ => none

/-- A request whose body passes the check carries what the check makes of it. -/
theorem carried?_of_bodyOf {request : Request} {check : Form.Check α} {body : Json} {a : α}
    (hbody : bodyOf request = .ok body) (hobj : ∃ fields, body = .obj fields)
    (h : check body = .ok a) : carried? check request = some a := by
  obtain ⟨fields, rfl⟩ := hobj
  rw [carried?, hbody]
  simp only
  rw [checkedBody, h]
  rfl

/-- A record is read off the body and handed on, or the request is refused and the site stays as it is. -/
theorem exec_run_record (check : Form.Check α) (r : Request) (f : α → Handling β) (s : State) :
    (∃ a, carried? check r = some a ∧
        Act.exec (readBody r >>= fun body => checkBody check body >>= f).run s = Act.exec (f a).run s) ∨
      carried? check r = none ∧ ∃ reply,
        Act.exec (readBody r >>= fun body => checkBody check body >>= f).run s
          = (.ok (.error reply), s) := by
  rw [carried?, readBody]
  cases bodyOf r with
  | error reply => exact Or.inr ⟨rfl, reply, exec_run_bind_refused rfl _⟩
  | ok body =>
    simp only [pure_bind]
    rw [checkBody]
    cases checkedBody check body with
    | ok a => exact Or.inl ⟨a, rfl, by rw [orFaulty, pure_bind]⟩
    | bad issues => exact Or.inr ⟨rfl, _, exec_run_bind_refused rfl _⟩

/-- Services that are there need not be asked for. -/
theorem discard_needServices (services : Services) :
    discard (needServices (some services)) = (pure () : Handling Unit) := rfl

/-! ## Sessions -/

/-- A request that needs a session to the engine is refused if there is none. -/
theorem exec_run_needEngine (services : Services) (s : State) :
    Act.exec (needEngine (some services)).run s
      = (.ok (if Engine.connectedIn s then .ok services.planner
          else .error (refused 503 "Path computation engine is not connected")), s) := by
  show Act.exec (liftM Engine.isConnected >>= fun connected => if connected then pure services.planner
    else refuse (refused 503 "Path computation engine is not connected") : Handling _).run s = _
  rw [exec_run_bind_ok (exec_run_lift (Engine.exec_isConnected s))]
  cases Engine.connectedIn s <;> rfl

/-! ## Handlings along a relation -/

section Along

variable {R : State → State → Prop}

/-- A step that is followed is followed inside the handling of a request; -/
theorem along_run_lift {a : Act α} (h : Along R a) : Along R (liftM a : Handling α).run := by
  rw [ExceptT.run_liftM]
  exact h.map _

variable [Followed R]

theorem along_run_pure (a : α) : Along R (pure a : Handling α).run :=
  Along.pure _

/-- a refusal is too, as it changes nothing, -/
theorem along_run_refuse (reply : Reply) : Along R (refuse reply : Handling α).run :=
  Along.pure _

/-- and so is one part of the handling behind another. -/
theorem along_run_bind {x : Handling α} {f : α → Handling β} (hx : Along R x.run)
    (hf : ∀ a, Along R (f a).run) : Along R (x >>= f).run := by
  rw [ExceptT.run_bind]
  refine hx.bind fun step => ?_
  cases step with
  | ok a => exact hf a
  | error reply => exact Along.pure _

/-- What is refused when it is missing changes nothing. -/
theorem along_run_orRefuse (status : Nat) (detail : String) (a : Option α) :
    Along R (orRefuse status detail a).run := by
  cases a with
  | none => exact along_run_refuse _
  | some a => exact along_run_pure a

/-- Reading the body changes nothing, -/
theorem along_run_readBody (r : Request) : Along R (readBody r).run := by
  rw [readBody]
  cases bodyOf r with
  | error reply => exact along_run_refuse _
  | ok body => exact along_run_pure body

/-- and neither does checking it. -/
theorem along_run_checkBody (check : Form.Check α) (body : Json) : Along R (checkBody check body).run := by
  rw [checkBody]
  cases checkedBody check body with
  | ok a => exact along_run_pure a
  | bad issues => exact along_run_refuse _

/-- A request for a circuit does what its planner does. -/
theorem along_run_connectivity {p : PathPlan.Planner}
    (hobtain : ∀ ingress egress flag, Along R (p.obtain ingress egress flag)) (r : ConnectivityRequest) :
    Along R (connectivity p r).run := by
  refine along_run_bind (along_run_lift (Along.yield _)) fun ingress => ?_
  refine along_run_bind (along_run_lift (Along.yield _)) fun egress => ?_
  refine along_run_bind (along_run_lift (hobtain _ _ _)) fun circuit => ?_
  exact along_run_bind (along_run_orRefuse _ _ _) fun _ => along_run_pure _

/-- **The route for circuits does what the planner does** and nothing else to the site. -/
theorem along_run_onRoute_connectivity {services : Services}
    (hobtain : ∀ ingress egress flag, Along R (services.planner.obtain ingress egress flag))
    (settings : Settings) (r : Request) :
    Along R (onRoute settings (some services) r .connectivity).run := by
  rw [onRoute]
  refine along_run_bind (along_run_readBody r) fun body => fun s => ?_
  have hneeded := exec_run_needEngine services s
  cases hconnected : Engine.connectedIn s with
  | false =>
    rw [hconnected] at hneeded
    rw [exec_run_bind_refused hneeded]
    exact refl_of R s
  | true =>
    rw [hconnected] at hneeded
    rw [exec_run_bind_ok hneeded]
    exact along_run_bind (along_run_checkBody _ _) (fun record => along_run_connectivity hobtain record) s

end Along

/-! ## Answers -/

variable {settings : Settings} {services : Option Services} {r : Request} {route : Route}

/-- A refusal is a reply like any other. -/
theorem exec_replyOf (h : Handling Reply) (s : State) :
    Act.exec (replyOf h) s = match Act.exec h.run s with
      | (.ok (.ok reply), t) => (.ok reply, t)
      | (.ok (.error reply), t) => (.ok reply, t)
      | (.error f, t) => (.error f, t) := by
  rw [replyOf, exec_bind]
  cases Act.exec h.run s with
  | mk o t =>
    cases o with
    | ok step => cases step <;> rfl
    | error f => rfl

/-- A handling that fails is answered without a word about it. -/
theorem exec_dispatch (hroute : Route.ofAddress r.address = some route) (hmethod : r.method = route.method)
    (s : State) :
    Act.exec (dispatch settings services r) s
      = match Act.exec (replyOf (onRoute settings services r route)) s with
        | (.ok reply, t) => (.ok reply, t)
        | (.error _, t) => (.ok ⟨500, .text "Internal Server Error"⟩, t) := by
  unfold dispatch
  rw [hroute]
  simp only [hmethod]
  rw [if_neg (by simp), exec_bind, exec_tryCatch, exec_bind]
  cases Act.exec (replyOf (onRoute settings services r route)) s with
  | mk o t =>
    cases o with
    | ok reply => rfl
    | error f => rfl

/-- On its route a request is handled without a look at its method. -/
theorem onRoute_method (r : Request) (route : Route) (method : String) :
    onRoute settings services { r with method := method } route = onRoute settings services r route := by
  cases route <;> rfl

/-- The reply that is made of how a handling ends: a failure is answered without a word about it. -/
def settled : Outcome (Except Reply Reply) → Reply
  | .ok (.ok reply) => reply
  | .ok (.error reply) => reply
  | .error _ => ⟨500, .text "Internal Server Error"⟩

/-- No route is for requests that only ask for the head. -/
theorem Route.method_ne_head (route : Route) : route.method ≠ "HEAD" := by
  cases route <;> simp [Route.method]

/-- **A request on a route does what its handling does, and it is always answered.** -/
theorem exec_handle (hroute : Route.ofAddress r.address = some route)
    (hmethod : r.method.map Char.toUpper = route.method) (s : State) :
    Act.exec (handle settings services r) s
      = (.ok (settled (Act.exec (onRoute settings services r route).run s).1),
        (Act.exec (onRoute settings services r route).run s).2) := by
  have hdispatch := @exec_dispatch settings services { r with method := route.method } route hroute rfl s
  rw [exec_replyOf, onRoute_method] at hdispatch
  have hanswered : Act.exec (dispatch settings services { r with method := route.method }) s
      = (.ok (settled (Act.exec (onRoute settings services r route).run s).1),
        (Act.exec (onRoute settings services r route).run s).2) := by
    rw [hdispatch]
    cases Act.exec (onRoute settings services r route).run s with
    | mk o t =>
      cases o with
      | ok step => cases step <;> rfl
      | error f => rfl
  rw [handle, hmethod, exec_bind_ok hanswered, if_neg route.method_ne_head, exec_pure]

/-- A request on a route does what its handling does. -/
theorem snd_exec_handle (hroute : Route.ofAddress r.address = some route)
    (hmethod : r.method.map Char.toUpper = route.method) (s : State) :
    (Act.exec (handle settings services r) s).2
      = (Act.exec (onRoute settings services r route).run s).2 := by
  rw [exec_handle hroute hmethod]

/-- The answer to a request has a status. -/
def AnswersWith (settings : Settings) (services : Option Services) (r : Request) (s : State) (status : Nat) :
    Prop :=
  ∃ reply t, Act.exec (handle settings services r) s = (.ok reply, t) ∧ reply.status = status

/-- The status is that of the handling of the route. -/
theorem answersWith_iff (hroute : Route.ofAddress r.address = some route)
    (hmethod : r.method.map Char.toUpper = route.method) {s : State} {status : Nat} :
    AnswersWith settings services r s status
      ↔ (settled (Act.exec (onRoute settings services r route).run s).1).status = status := by
  rw [AnswersWith, exec_handle hroute hmethod]
  constructor
  · rintro ⟨reply, t, heq, hstatus⟩
    rw [Except.ok.inj (Prod.mk.inj heq).1]
    exact hstatus
  · intro h
    exact ⟨_, _, rfl, h⟩

/-- A request with a record is answered by what is done with the record. -/
theorem answersWith_record_iff {check : Form.Check α} {a : α} {f : α → Handling Reply}
    (hroute : Route.ofAddress r.address = some route) (hmethod : r.method.map Char.toUpper = route.method)
    (hreads : onRoute settings services r route = readBody r >>= fun body => checkBody check body >>= f)
    (ha : carried? check r = some a) {s : State} {status : Nat} :
    AnswersWith settings services r s status ↔ (settled (Act.exec (f a).run s).1).status = status := by
  obtain ⟨b, hb, hrun⟩ | ⟨hnone, -⟩ := exec_run_record check r f s
  · obtain rfl : b = a := Option.some.inj (hb.symm.trans ha)
    rw [answersWith_iff hroute hmethod, hreads, hrun]
  · exact absurd (hnone.symm.trans ha) (by simp)

/-- An operation that may yield none decides alone on the answer: refused if it yields none, and without a
word about it if it fails. -/
def statusOf (refusal acceptance : Nat) : Outcome (Option α) → Nat
  | .ok (some _) => acceptance
  | .ok none => refusal
  | .error _ => 500

/-- How an operation that does not fail is answered. -/
theorem statusOf_ok {refusal acceptance : Nat} {o : Outcome (Option α)}
    (h : ∃ found, o = .ok found) :
    statusOf refusal acceptance o = acceptance ∨ statusOf refusal acceptance o = refusal := by
  obtain ⟨_ | found, rfl⟩ := h
  · exact Or.inr rfl
  · exact Or.inl rfl

/-- The handling of an operation that may yield none. -/
theorem status_settled_orRefuse (a : Act (Option α)) (refusal acceptance : Nat) (detail : String)
    (value : α → Json) (s : State) :
    (settled (Act.exec (liftM a >>= fun found => orRefuse refusal detail found >>= fun x =>
      pure (accepted acceptance (value x)) : Handling Reply).run s).1).status
        = statusOf refusal acceptance (Act.exec a s).1 := by
  cases h : Act.exec a s with
  | mk o t =>
    cases o with
    | error f =>
      rw [exec_run_bind_failed h]
      rfl
    | ok found =>
      rw [exec_run_bind_ok (exec_run_lift h)]
      cases found with
      | none => rfl
      | some x => rfl

/-- A request that asks for a route in a way that it does not take leaves the site as it is. -/
theorem snd_exec_handle_of_method (hroute : Route.ofAddress r.address = some route)
    (hmethod : r.method.map Char.toUpper ≠ route.method) (s : State) :
    (Act.exec (handle settings services r) s).2 = s := by
  rw [handle]
  unfold dispatch
  rw [hroute]
  simp only
  rw [if_pos hmethod]
  rfl

/-- The route that connects the engine changes the site by this call, if its body says what to connect. -/
theorem snd_exec_connectEngine (settings : Settings) (services : Services) (r : Request) (s : State) :
    (Act.exec (onRoute settings (some services) r .connectEngine).run s).2
      = match carried? EngineRequest.check r with
        | some e =>
          (Act.exec (Engine.connect settings e.protocol e.host e.port e.username e.password) s).2
        | none => s := by
  rw [onRoute]
  simp only [discard_needServices, pure_bind]
  obtain ⟨e, he, hrun⟩ | ⟨he, reply, hrun⟩ := exec_run_record EngineRequest.check r _ s
  · rw [hrun, he, snd_exec_run_bind (fun _ _ => rfl), snd_exec_run_lift]
  · rw [hrun, he]

/-- The route that gives the engine up changes the site by this call. -/
theorem snd_exec_disconnectEngine (settings : Settings) (services : Services) (r : Request) (s : State) :
    (Act.exec (onRoute settings (some services) r .disconnectEngine).run s).2
      = (Act.exec Engine.disconnect s).2 := by
  rw [onRoute]
  simp only [discard_needServices, pure_bind]
  rw [snd_exec_run_bind (fun _ _ => rfl), snd_exec_run_lift]

/-- Without a session to the engine no circuit can be asked for: the request is refused as soon as its body
is read, and nothing happens. -/
theorem exec_handle_connectivity_of_not_connected (settings : Settings) (services : Services) {r : Request}
    (hroute : Route.ofAddress r.address = some .connectivity)
    (hmethod : r.method.map Char.toUpper = "POST") {body : Json} (hbody : bodyOf r = .ok body) {s : State}
    (h : Engine.connectedIn s = false) :
    Act.exec (handle settings (some services) r) s
      = (.ok (refused 503 "Path computation engine is not connected"), s) := by
  have hneeded := exec_run_needEngine services s
  rw [h] at hneeded
  have hrun : Act.exec (onRoute settings (some services) r .connectivity).run s
      = (.ok (.error (refused 503 "Path computation engine is not connected")), s) := by
    rw [onRoute, readBody, hbody]
    simp only [pure_bind]
    exact exec_run_bind_refused hneeded _
  rw [exec_handle hroute hmethod, hrun]
  rfl

end Lightpath.Rest
