import Lightpath.Controller.Services
import Lightpath.Proofs.Outcome
import Lightpath.Proofs.PathPlan.Along
import Lightpath.Proofs.Site.Confined

/-!
# Steps that keep the session to the engine

Most steps neither open nor close the session to the engine; what they ask of the engine, they ask in the
session that is there. All that provisions a circuit is of this kind.
-/

namespace Lightpath.Engine

open Lightpath.Site

/-! ## Requests -/

/-- An authorization is that of some credentials, or there are neither. -/
def AuthorizedBy (credentials? : Option Credentials) (authorization : Option String) : Prop :=
  match credentials? with
  | none => authorization = none
  | some c => ∃ text, c.authorization = .ok text ∧ authorization = some text

/-- A request goes to the address of the client, with the credentials of the session or else with those in the
address. -/
theorem authorizedBy_of_prepare {c : Client} {session : Session} {body : Json} {address : String}
    {authorization : Option String} (h : prepare c session body = .ok (address, authorization)) :
    normalForm c.url = .ok address ∧
      AuthorizedBy (session.credentials <|> Credentials.inAddress? address) authorization := by
  rw [prepare] at h
  cases hform : normalForm c.url with
  | error text =>
    rw [hform] at h
    exact absurd h (by simp [Outcome.throw_eq, Outcome.error_bind])
  | ok found =>
    rw [hform] at h
    simp only [pure_bind] at h
    split at h
    · exact absurd h (by simp [Outcome.throw_eq, Outcome.error_bind])
    · cases hrefusal : refusal? found with
      | some text =>
        -- refused with whatever credentials
        rw [hrefusal] at h
        cases hcredentials : session.credentials <|> Credentials.inAddress? found with
        | none =>
          rw [hcredentials] at h
          exact absurd h (by simp [Outcome.throw_eq])
        | some credentials =>
          rw [hcredentials] at h
          obtain ⟨proof, -, h⟩ := Outcome.bind_eq_ok_iff.mp h
          exact absurd h (by simp [Outcome.throw_eq])
      | none =>
        rw [hrefusal] at h
        cases hcredentials : session.credentials <|> Credentials.inAddress? found with
        | none =>
          rw [hcredentials] at h
          obtain ⟨rfl, rfl⟩ := Prod.mk.inj (Except.ok.inj h)
          exact ⟨rfl, by rw [hcredentials]; rfl⟩
        | some credentials =>
          rw [hcredentials] at h
          obtain ⟨proof, hproof, h⟩ := Outcome.bind_eq_ok_iff.mp h
          obtain ⟨text, htext, rfl⟩ := Outcome.map_eq_ok_iff.mp hproof
          obtain ⟨rfl, rfl⟩ := Prod.mk.inj (Except.ok.inj h)
          exact ⟨rfl, by rw [hcredentials]; exact ⟨text, htext, rfl⟩⟩

/-! ## Steps in a session -/

/-- A message that neither opens nor closes a session to the engine. If it is a request to the engine, it is one
in the session of a site. -/
def InSession (s : State) : Event → Prop
  | .openSession .. => False
  | .closeSession .. => False
  | .request address authorization timeout body =>
    .request address authorization timeout body ∈ requestsFor s body
  | _ => True

/-- **The session to the engine is the same in the sites `s` and `t`**: in between none has been opened or
closed, and what has been asked of the engine was asked in this one. -/
structure SameSession (s t : State) : Prop where
  engine : t.engine = s.engine
  messages : ∃ es, t.events = s.events ++ es ∧ ∀ e ∈ es, InSession s e

variable {s t u : State}

/-- The session is that of the client of the engine. -/
theorem inSession_congr (h : t.engine = s.engine) (e : Event) : InSession t e ↔ InSession s e := by
  cases e with
  | request address authorization timeout body =>
    show _ ∈ requestsFor t body ↔ _ ∈ requestsFor s body
    rw [requestsFor, requestsFor, h]
  | _ => exact Iff.rfl

/-- What is asked of the engine is asked in the session of its client. -/
theorem inSession_of_mem_requestsFor {body : Json} {e : Event} (h : e ∈ requestsFor s body) :
    InSession s e := by
  have hrequest := h
  rw [requestsFor] at hrequest
  split at hrequest
  · exact absurd hrequest List.not_mem_nil
  · split at hrequest
    · exact absurd hrequest List.not_mem_nil
    · split at hrequest
      · obtain rfl := List.mem_singleton.mp hrequest
        exact h
      · exact absurd hrequest List.not_mem_nil

namespace SameSession

theorem refl (s : State) : SameSession s s :=
  ⟨rfl, [], by simp, by simp⟩

/-- The session stays the same over two stretches if it does over each. -/
theorem trans (h : SameSession s t) (k : SameSession t u) : SameSession s u := by
  obtain ⟨es, hevents, hes⟩ := h.messages
  obtain ⟨fs, kevents, hfs⟩ := k.messages
  refine ⟨k.engine.trans h.engine, es ++ fs, ?_, fun e he => ?_⟩
  · rw [kevents, hevents, List.append_assoc]
  · rcases List.mem_append.mp he with he | he
    · exact hes e he
    · exact (inSession_congr h.engine e).mp (hfs e he)

end SameSession

instance : Followed SameSession where
  refl := SameSession.refl
  trans _ _ _ := SameSession.trans
  line _ _ := ⟨rfl, [], by simp, by simp⟩

/-- **A step that keeps the session to the engine.** -/
def KeepsSession {α : Type} (a : Act α) : Prop :=
  Along SameSession a

/-! ## The parties -/

/-- A message keeps the session unless it opens or closes one. -/
theorem keepsSession_send {e : Event} (h : ∀ s, InSession s e) : KeepsSession (send e) :=
  fun s => ⟨rfl, [e], rfl, by simpa using h s⟩

/-- The engine is asked in the session that is there. -/
theorem keepsSession_post (body : Json) : KeepsSession (post body) := by
  intro s
  obtain ⟨hevents, hrest⟩ := exec_post body s
  have hengine := congrArg State.engine hrest
  exact ⟨hengine, _, hevents, fun e he => inSession_of_mem_requestsFor he⟩

/-- A control that takes notes keeps the session, -/
theorem keepsSession_notes (capable : Option (List String)) (device : String) (port : Int)
    (component : Component) (value : Json) :
    KeepsSession ((Power.Control.notes capable).set device port component value) :=
  Along.bind (keepsSession_send fun _ => trivial) fun _ => Along.pure _

/-- and so do the terminal devices. -/
theorem keepsSession_terminals (t : Power.Terminals) (device : String) (port : Int)
    (component : Component) (value : Json) :
    KeepsSession ((Power.Control.terminals t).set device port component value) :=
  Power.along_terminals t
    (Along.session? (fun _ _ => ⟨rfl, [], by simp, by simp⟩) device)
    (fun _ _ => keepsSession_send fun _ => trivial) port component value

/-- The control of powers of a host platform keeps the session if the one of its own, if there is one, does. -/
theorem keepsSession_control? {h : Controller.Host} {control : Power.Control}
    (hown : ∀ c, h.power = some c →
      ∀ device port component value, KeepsSession (c.set device port component value))
    (hcontrol : h.control? = some control) (device : String) (port : Int) (component : Component)
    (value : Json) : KeepsSession (control.set device port component value) := by
  rw [Controller.Host.control?] at hcontrol
  cases hpower : h.power with
  | some c =>
    rw [hpower] at hcontrol
    obtain rfl := Option.some.inj hcontrol
    exact hown c hpower device port component value
  | none =>
    rw [hpower] at hcontrol
    obtain ⟨t, -, rfl⟩ := Option.map_eq_some_iff.mp hcontrol
    exact keepsSession_terminals t device port component value

/-- **The services that a controller is built of keep the session**, so far as the host platform does. -/
theorem keepsSession_of_build {settings : Controller.Settings} {h : Controller.Host}
    {services : Controller.Services}
    (hown : ∀ c, h.power = some c →
      ∀ device port component value, KeepsSession (c.set device port component value))
    (hbuild : Act.exec (Controller.build settings h) s = (.ok services, t)) :
    (∀ device, KeepsSession (services.planner.adjacency device)) ∧
      ∀ device port component value,
        KeepsSession (services.planner.power.set device port component value) := by
  rw [Controller.build] at hbuild
  cases hcontrol : h.control? with
  | none =>
    rw [hcontrol] at hbuild
    exact absurd (Prod.mk.inj hbuild).1 (by simp)
  | some control =>
    rw [hcontrol] at hbuild
    -- whether or not the link database has to be connected first
    have hplanner : services.planner = Controller.plannerOf settings control none none := by
      cases hstore : h.hasLinkStore with
      | true =>
        simp only [hstore, Bool.not_true, Bool.false_eq_true, if_false] at hbuild
        exact (congrArg Controller.Services.planner (Except.ok.inj (Prod.mk.inj hbuild).1)).symm
      | false =>
        simp only [hstore, Bool.not_false, if_true, exec_bind] at hbuild
        split at hbuild
        · exact (congrArg Controller.Services.planner (Except.ok.inj (Prod.mk.inj hbuild).1)).symm
        · exact absurd (Prod.mk.inj hbuild).1 (by simp)
    rw [hplanner]
    exact ⟨fun _ => LinkStore.along_deviceLinks _, keepsSession_control? hown hcontrol⟩

/-- Provisioning a circuit keeps the session if the control of powers and the look-up of links do. -/
theorem keepsSession_obtain {p : PathPlan.Planner}
    (hadj : ∀ device, KeepsSession (p.adjacency device))
    (hpower : ∀ device port component value, KeepsSession (p.power.set device port component value))
    (ingress egress : Topology.ConnectPoint) (flag : Json) :
    KeepsSession (p.obtain ingress egress flag) :=
  PathPlan.Planner.along_obtain keepsSession_post hadj hpower
    (fun _ _ _ _ _ => keepsSession_send fun _ => trivial) ingress egress flag

/-- Closing the link database has nothing to do with the engine. -/
theorem keepsSession_close : KeepsSession LinkStore.close :=
  Along.bind (keepsSession_send fun _ => trivial) fun _ => Along.info _

end Lightpath.Engine
