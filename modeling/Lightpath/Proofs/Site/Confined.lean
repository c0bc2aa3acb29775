import Lightpath.Engine.Exchange
import Lightpath.LinkStore.Adjacency
import Lightpath.Power.Control
import Lightpath.Proofs.Site.Along

/-!
# Whom a step speaks to

Messages go to devices and the control of powers, to the link database, to the engine or to the
circuit service. A step is confined to some of these when it sends messages to nobody else, however
it ends. What is made of confined steps is confined.
-/

namespace Lightpath.Site

variable {α β : Type}

/-! ## Addressees -/

/-- The messages to devices and to the control of powers. -/
def Event.toPower : Event → Bool
  | .read .. => true
  | .edit .. => true
  | .power .. => true
  | _ => false

/-- The messages to the link database. -/
def Event.toStore : Event → Bool
  | .ping => true
  | .putFields .. => true
  | .addMember .. => true
  | .execute => true
  | .close => true
  | .openStore .. => true
  | _ => false

/-! ## Confined steps -/

/-- The site `t` has sent more messages of a kind than the site `s`, and its circuit service is the
same. -/
def Reaches (kind : Event → Bool) (s t : State) : Prop :=
  t.circuits = s.circuits ∧ ∃ es, t.events = s.events ++ es ∧ ∀ e ∈ es, kind e = true

variable {kind : Event → Bool} {s t u : State}

theorem Reaches.refl (kind : Event → Bool) (s : State) : Reaches kind s s :=
  ⟨rfl, [], by simp, by simp⟩

/-- Messages of a kind add up to messages of the kind. -/
theorem Reaches.trans (h : Reaches kind s t) (k : Reaches kind t u) : Reaches kind s u := by
  obtain ⟨hcircuits, es, hevents, hes⟩ := h
  obtain ⟨kcircuits, fs, kevents, hfs⟩ := k
  refine ⟨kcircuits.trans hcircuits, es ++ fs, ?_, fun e he => ?_⟩
  · rw [kevents, hevents, List.append_assoc]
  · rcases List.mem_append.mp he with he | he
    · exact hes e he
    · exact hfs e he

/-- Messages that are all of a kind lead from one site to the other. -/
theorem Sends.reaches {es : List Event} (h : Sends es s t) (hes : ∀ e ∈ es, kind e = true) :
    Reaches kind s t := by
  have hcircuits := congrArg State.circuits h.rest
  exact ⟨hcircuits, es, h.events, hes⟩

/-- Log lines are no messages of any kind. -/
theorem Logs.reaches (kind : Event → Bool) (h : Logs s t) : Reaches kind s t :=
  h.sends.reaches (by simp)

/-- **A step that sends messages of one kind only**, also when it fails. -/
def Confined (kind : Event → Bool) (a : Act α) : Prop :=
  ∀ s, Reaches kind s (Act.exec a s).2

instance (kind : Event → Bool) : Followed (Reaches kind) where
  refl := Reaches.refl kind
  trans _ _ _ := Reaches.trans
  line s l := (Logs.reaches kind ⟨_, rfl⟩ : Reaches kind s { s with lines := s.lines ++ [l] })

namespace Confined

theorem pure (kind : Event → Bool) (a : α) : Confined kind (Pure.pure a : Act α) :=
  Along.pure a

theorem log (kind : Event → Bool) (level : Controller.LogLevel) (text : String) :
    Confined kind (Site.log level text) := by
  intro s
  obtain ⟨t, hlog, hst⟩ := onlyLogs_log level text s
  rw [hlog]
  exact hst.reaches kind

/-- Sending a message of the kind is confined to it. -/
theorem send {e : Event} (h : kind e = true) : Confined kind (Site.send e) := by
  intro s
  rw [exec_send]
  exact (Sends.send s e).reaches (by simpa using h)

/-- One step behind another is confined to a kind if both are. -/
theorem bind {x : Act α} {f : α → Act β} (hx : Confined kind x) (hf : ∀ a, Confined kind (f a)) :
    Confined kind (x >>= f) :=
  Along.bind hx hf

/-- A step that sends messages of one kind sends messages of each kind that this one belongs to. -/
theorem mono {wider : Event → Bool} {a : Act α} (h : Confined kind a)
    (hwider : ∀ e, kind e = true → wider e = true) : Confined wider a := by
  intro s
  obtain ⟨hcircuits, es, hevents, hes⟩ := h s
  exact ⟨hcircuits, es, hevents, fun e he => hwider e (hes e he)⟩

end Confined

end Lightpath.Site

/-! ## Controls of powers -/

namespace Lightpath.Power

open Lightpath.Site

/-- A control that takes notes only sends powers. -/
theorem confined_notes (capable : Option (List String)) (device : String) (port : Int)
    (component : Component) (value : Json) :
    Confined Event.toPower ((Control.notes capable).set device port component value) :=
  (Confined.send rfl).bind fun _ => Confined.pure _ _

variable {R : State → State → Prop} [Followed R]

/-- Looking up the session of a terminal device is followed if any look-up of it is, -/
theorem along_sessionOf? {device : String} (hsession : Along R (session? device)) :
    Along R (Terminals.sessionOf? device) := by
  refine hsession.bind fun session => ?_
  cases session with
  | none => exact (Along.complain _).bind fun _ => Along.pure _
  | some d => exact Along.pure _

/-- and an edit of it if the message is. -/
theorem along_edit {device operation config : String} (hsend : Along R (send (.edit device operation config)))
    (d : Device) : Along R (d.edit device operation config) := by
  refine hsend.bind fun _ => ?_
  cases d.editFault with
  | none => exact Along.pure _
  | some text => exact Along.pure _

/-- Terminal devices are looked up and edited, and nobody else is spoken to. -/
theorem along_terminals (t : Terminals) {device : String} (hsession : Along R (session? device))
    (hedit : ∀ operation config, Along R (send (.edit device operation config))) (port : Int)
    (component : Component) (value : Json) :
    Along R ((Control.terminals t).set device port component value) := by
  show Along R (t.setTarget device port component value)
  rw [Terminals.setTarget]
  cases t.componentOf device port with
  | none => exact (Along.complain _).bind fun _ => Along.pure _
  | some name =>
    refine (along_sessionOf? hsession).bind fun session => ?_
    cases session with
    | none => exact Along.pure _
    | some d =>
      refine (along_edit (hedit _ _) d).bind fun taken => ?_
      match taken with
      | .error text => exact (Along.complain _).bind fun _ => Along.pure _
      | .ok true => exact Along.pure _
      | .ok false => exact (Along.yield _).bind fun _ => (Along.complain _).bind fun _ => Along.pure _

end Lightpath.Power

/-! ## The link database -/

namespace Lightpath.LinkStore

open Lightpath.Site

/-- Telling what has been found in the link database is a line of the log. -/
theorem onlyLogs_tell (device : String) (f : Records.Finding) : OnlyLogs (tell device f) := by
  cases f with
  | link l => exact fun s => ⟨s, rfl, Logs.refl s⟩
  | dangling id => exact onlyLogs_log _ _
  | malformed id => exact onlyLogs_log _ _

/-- The links of a device are looked up with nothing but log lines. -/
theorem exec_deviceLinks (device : String) (s : State) :
    ∃ t, Act.exec (deviceLinks device) s = (.ok (s.store.linksOf device), t) ∧ Logs s t := by
  obtain ⟨t, htold, hst⟩ := onlyLogs_forM (onlyLogs_tell device) (s.store.findings device) s
  refine ⟨t, ?_, hst⟩
  rw [deviceLinks, exec_bind_ok (exec_get s)]
  simp only
  rw [exec_bind_ok htold, exec_pure]

/-- Looking up the links of a device only logs, so it is always followed. -/
theorem along_deviceLinks {R : State → State → Prop} [Followed R] (device : String) :
    Along R (deviceLinks device) := by
  refine Along.get.bind fun s => (Along.forM (fun finding => ?_) _).bind fun _ => Along.pure _
  cases finding with
  | link l => exact Along.pure ()
  | dangling id => exact Along.warn _
  | malformed id => exact Along.warn _

/-- The look-up sends nothing. -/
theorem confined_deviceLinks (kind : Event → Bool) (device : String) :
    Confined kind (deviceLinks device) :=
  along_deviceLinks device

end Lightpath.LinkStore

/-! ## The engine -/

namespace Lightpath.Engine

open Lightpath.Site

variable {s : State}

/-- The messages that go to the engine for a body: one request in the open session, unless the
address or the body cannot be sent. -/
def requestsFor (s : State) (body : Json) : List Event :=
  match s.engine with
  | none => []
  | some c =>
    match c.session with
    | none => []
    | some session =>
      match prepare c session body with
      | .ok (address, authorization) => [.request address authorization c.timeout body]
      | .error _ => []

/-- One request goes out when there is a session and the address and the body can be sent. -/
theorem requestsFor_of_prepare {body : Json} {c : Client} {session : Session} {address : String}
    {authorization : Option String} (hengine : s.engine = some c) (hsession : c.session = some session)
    (hprepare : prepare c session body = .ok (address, authorization)) :
    requestsFor s body = [.request address authorization c.timeout body] := by
  rw [requestsFor, hengine]
  simp only
  rw [hsession]
  simp only
  rw [hprepare]

theorem exec_isConnected (s : State) :
    Act.exec isConnected s = (.ok (connectedIn s), s) := rfl

/-- Nothing is sent without a session. -/
theorem post_of_not_connected (h : connectedIn s = false) (body : Json) :
    requestsFor s body = [] ∧ ∃ f, Act.exec (post body) s = (.error f, s) := by
  rw [connectedIn] at h
  rw [requestsFor, post, exec_bind_ok (exec_get s)]
  cases hengine : s.engine with
  | none => exact ⟨rfl, _, rfl⟩
  | some c =>
    rw [hengine] at h
    simp only at h ⊢
    cases hsession : c.session with
    | none => exact ⟨rfl, _, rfl⟩
    | some session => exact absurd h (by simp [hsession])

/-- Taking the next answer changes nothing but the answers that are left. -/
theorem exec_nextAnswer (s : State) :
    ∃ a answers, Act.exec nextAnswer s = (.ok a, { s with answers := answers }) := by
  rw [nextAnswer, exec_bind_ok (exec_get s)]
  cases s.answers with
  | nil => exact ⟨_, s.answers, rfl⟩
  | cons a rest => exact ⟨a, rest, exec_bind_ok (exec_modify _ s) _⟩

/-- A request uses up an answer of the engine, and nobody else hears of it. -/
theorem exec_post (body : Json) (s : State) :
    (Act.exec (post body) s).2.events = s.events ++ requestsFor s body ∧
      { (Act.exec (post body) s).2 with events := s.events, answers := s.answers } = s := by
  rw [post, exec_bind_ok (exec_get s), requestsFor]
  cases s.engine with
  | none => exact ⟨(List.append_nil _).symm, rfl⟩
  | some c =>
    simp only
    cases c.session with
    | none => exact ⟨(List.append_nil _).symm, rfl⟩
    | some session =>
      simp only [exchange]
      cases prepare c session body with
      | error f => exact ⟨(List.append_nil _).symm, rfl⟩
      | ok prepared =>
        obtain ⟨address, authorization⟩ := prepared
        obtain ⟨a, answers, hanswer⟩ := exec_nextAnswer
          { s with events := s.events ++ [.request address authorization c.timeout body] }
        rw [exec_bind_ok (exec_yield_ok _ s)]
        simp only
        rw [exec_bind_ok (exec_send _ s), exec_bind_ok hanswer]
        cases a.outcome c address with
        | ok text => exact ⟨rfl, rfl⟩
        | error f => exact ⟨rfl, rfl⟩

/-- Whoever asks the engine sends requests only. -/
theorem confined_post {kind : Event → Bool}
    (h : ∀ url authorization timeout body, kind (.request url authorization timeout body) = true)
    (body : Json) : Confined kind (post body) := by
  intro s
  obtain ⟨hevents, hrest⟩ := exec_post body s
  have hcircuits := congrArg State.circuits hrest
  refine ⟨hcircuits, requestsFor s body, hevents, fun e he => ?_⟩
  rw [requestsFor] at he
  repeat' split at he
  all_goals first
    | exact absurd he List.not_mem_nil
    | rw [List.mem_singleton.mp he]; exact h _ _ _ _

end Lightpath.Engine
