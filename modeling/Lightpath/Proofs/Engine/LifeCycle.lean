import Lightpath.Proofs.Engine.Session
import Lightpath.Proofs.Rest.Handling
import Mathlib.Data.List.Induction

/-!
# The life cycle of the session to the engine

The engine is connected and disconnected by the host platform, by requests, and when the controller is
started and shut down. The messages tell of each session that is opened and of each that is closed. Main
statement: whatever is done in whatever order, the session that is open is that of the last connection that
was not given up, every other one has been closed before the next was opened, and each path request goes to
the engine of this connection with its credentials (`lifeCycle_after`).
-/

namespace Lightpath.Engine

open Lightpath.Site Lightpath.Controller Lightpath.Topology
open Lightpath.Rest (EngineRequest Route)

/-! ## Sessions in the messages -/

/-- The messages that have to do with a session to the engine. -/
def toEngine : Event → Bool
  | .openSession .. => true
  | .closeSession .. => true
  | .request .. => true
  | _ => false

/-- **Sessions are opened and closed in turn.** From the messages `start` on, at which no session is open, a
session is opened only when there is none, only the one that is open is closed, and the engine is asked only
in an open one; `session?` is the address and the credentials of the session that is open at the end. -/
inductive Turns (start : List Event) : List Event → Option (String × Option Credentials) → Prop
  | start : Turns start start none
  | other {events : List Event} {session? : Option (String × Option Credentials)} {e : Event}
      (h : Turns start events session?) (he : toEngine e = false) : Turns start (events ++ [e]) session?
  | asked {events : List Event} {session : String × Option Credentials}
      (h : Turns start events (some session)) (address : String) (authorization : Option String)
      (timeout : Float) (body : Json) :
      Turns start (events ++ [.request address authorization timeout body]) (some session)
  | opened {events : List Event} (h : Turns start events none) (url : String)
      (credentials : Option Credentials) :
      Turns start (events ++ [.openSession url credentials]) (some (url, credentials))
  | closed {events : List Event} {url : String} {credentials : Option Credentials}
      (h : Turns start events (some (url, credentials))) : Turns start (events ++ [.closeSession url]) none

namespace Turns

variable {start events more : List Event} {session? other? : Option (String × Option Credentials)}

/-- Nothing that has been sent is taken back. -/
theorem isPrefix (h : Turns start events session?) : start <+: events := by
  induction h with
  | start => exact List.prefix_refl _
  | other h he ih => exact ih.trans (List.prefix_append _ _)
  | asked h address authorization timeout body ih => exact ih.trans (List.prefix_append _ _)
  | opened h url credentials ih => exact ih.trans (List.prefix_append _ _)
  | closed h ih => exact ih.trans (List.prefix_append _ _)

/-- A message behind the start makes the messages longer than the start. -/
theorem append_singleton_ne (h : start <+: events) (e : Event) : events ++ [e] ≠ start := by
  intro hsame
  have hlength := h.length_le
  rw [← hsame, List.length_append, List.length_singleton] at hlength
  omega

/-- At the start no session is open. -/
theorem eq_none (h : Turns start events session?) (hevents : events = start) : session? = none := by
  cases h with
  | start => rfl
  | other h he => exact absurd hevents (append_singleton_ne h.isPrefix _)
  | asked h => exact absurd hevents (append_singleton_ne h.isPrefix _)
  | opened h => exact absurd hevents (append_singleton_ne h.isPrefix _)
  | closed h => rfl

/-- The last message behind the start is the last step of the turns. -/
theorem of_append_singleton {e : Event} (h : Turns start (events ++ [e]) session?)
    (hstart : start <+: events) :
    (toEngine e = false ∧ Turns start events session?) ∨
      (∃ address authorization timeout body, e = .request address authorization timeout body ∧
        Turns start events session?) ∨
      (∃ url credentials, e = .openSession url credentials ∧ session? = some (url, credentials)) ∨
      ∃ url, e = .closeSession url ∧ session? = none := by
  generalize hall : events ++ [e] = all at h
  cases h with
  | start => exact absurd hall (append_singleton_ne hstart e)
  | other h he =>
    obtain ⟨rfl, hsame⟩ := List.append_inj' hall rfl
    obtain rfl := List.singleton_inj.mp hsame
    exact Or.inl ⟨he, h⟩
  | asked h address authorization timeout body =>
    obtain ⟨rfl, hsame⟩ := List.append_inj' hall rfl
    exact Or.inr (Or.inl ⟨_, _, _, _, List.singleton_inj.mp hsame, h⟩)
  | opened h url credentials =>
    obtain ⟨rfl, hsame⟩ := List.append_inj' hall rfl
    exact Or.inr (Or.inr (Or.inl ⟨_, _, List.singleton_inj.mp hsame, rfl⟩))
  | closed h =>
    obtain ⟨rfl, hsame⟩ := List.append_inj' hall rfl
    exact Or.inr (Or.inr (Or.inr ⟨_, List.singleton_inj.mp hsame, rfl⟩))

/-- **The messages tell which session is open.** -/
theorem unique (h : Turns start events session?) (k : Turns start events other?) : session? = other? := by
  induction h generalizing other? with
  | start => exact (k.eq_none rfl).symm
  | other h he ih =>
    rcases k.of_append_singleton h.isPrefix with
      ⟨-, k⟩ | ⟨_, _, _, _, rfl, -⟩ | ⟨_, _, rfl, -⟩ | ⟨_, rfl, -⟩
    · exact ih k
    all_goals exact absurd he (by simp [toEngine])
  | asked h address authorization timeout body ih =>
    rcases k.of_append_singleton h.isPrefix with
      ⟨he, -⟩ | ⟨_, _, _, _, -, k⟩ | ⟨_, _, hsame, -⟩ | ⟨_, hsame, -⟩
    · exact absurd he (by simp [toEngine])
    · exact ih k
    all_goals exact absurd hsame (by simp)
  | opened h url credentials ih =>
    rcases k.of_append_singleton h.isPrefix with
      ⟨he, -⟩ | ⟨_, _, _, _, hsame, -⟩ | ⟨_, _, hsame, rfl⟩ | ⟨_, hsame, -⟩
    · exact absurd he (by simp [toEngine])
    · exact absurd hsame (by simp)
    · obtain ⟨rfl, rfl⟩ := Event.openSession.inj hsame
      rfl
    · exact absurd hsame (by simp)
  | closed h ih =>
    rcases k.of_append_singleton h.isPrefix with
      ⟨he, -⟩ | ⟨_, _, _, _, hsame, -⟩ | ⟨_, _, hsame, -⟩ | ⟨_, -, rfl⟩
    · exact absurd he (by simp [toEngine])
    · exact absurd hsame (by simp)
    · exact absurd hsame (by simp)
    · rfl

/-- At each point between the messages at most one session is open. -/
theorem of_isPrefix (h : Turns start events session?) {es : List Event} (hstart : start <+: es)
    (hes : es <+: events) : ∃ session?, Turns start es session? := by
  induction h with
  | start => exact ⟨none, hstart.eq_of_length_le hes.length_le ▸ Turns.start⟩
  | other h he ih =>
    rcases List.prefix_concat_iff.mp hes with rfl | hes
    · exact ⟨_, h.other he⟩
    · exact ih hes
  | asked h address authorization timeout body ih =>
    rcases List.prefix_concat_iff.mp hes with rfl | hes
    · exact ⟨_, h.asked address authorization timeout body⟩
    · exact ih hes
  | opened h url credentials ih =>
    rcases List.prefix_concat_iff.mp hes with rfl | hes
    · exact ⟨_, h.opened url credentials⟩
    · exact ih hes
  | closed h ih =>
    rcases List.prefix_concat_iff.mp hes with rfl | hes
    · exact ⟨_, h.closed⟩
    · exact ih hes

end Turns

/-! ## Connections -/

/-- The address of an engine, without the path of its requests. -/
def baseUrl (e : EngineRequest) : String :=
  e.protocol ++ "://" ++ e.host ++ ":" ++ toString e.port

/-- The credentials that are given for an engine; an empty user counts as none. -/
def credentials? (e : EngineRequest) : Option Credentials :=
  match e.username with
  | none => none
  | some user => if user = "" then none else some ⟨user, e.password.getD ""⟩

/-- The client of an engine in its session. -/
def clientOf (settings : Settings) (e : EngineRequest) : Client :=
  ⟨baseUrl e, settings.enginePath, settings.engineTimeout, some ⟨credentials? e⟩⟩

/-- A client that is new and opened is that of the engine in its session. -/
theorem opened_new (settings : Settings) (e : EngineRequest) :
    (Client.new settings e.protocol e.host e.port).opened e.username e.password = clientOf settings e := by
  unfold Client.opened
  rw [clientOf, credentials?]
  cases e.username with
  | none => rfl
  | some user =>
    simp only
    split
    · rename_i h
      exact absurd h (by simp)
    · rename_i h
      obtain rfl := Option.some.inj h
      rfl
    · rename_i other hempty h
      obtain rfl := Option.some.inj h
      rw [if_neg fun hsame => hempty (by rw [hsame])]
      rfl

/-- A message that is no path request, or is one to the engine that is connected: to its address, in the time
of the settings and with the credentials that were given for it, or else with those in the address. -/
def Addressed (settings : Settings) (e? : Option EngineRequest) : Event → Prop
  | .request address authorization timeout _ =>
    ∃ e, e? = some e ∧ normalForm (baseUrl e ++ settings.enginePath) = .ok address ∧
      AuthorizedBy (credentials? e <|> Credentials.inAddress? address) authorization ∧
      timeout = settings.engineTimeout
  | _ => True

/-- Where no engine is connected nothing is asked, so what is sent is addressed by any. -/
theorem addressed_of_none {settings : Settings} {e? : Option EngineRequest} {e : Event}
    (h : Addressed settings none e) : Addressed settings e? e := by
  cases e with
  | request address authorization timeout body =>
    obtain ⟨e, hnone, -⟩ := h
    exact absurd hnone (by simp)
  | _ => trivial

/-! ## Calls -/

/-- A call that connects an engine or gives it up. -/
inductive Call where
  | connect (e : EngineRequest)
  | disconnect

/-- The connection in force after some calls: that of the last one, unless it gives the engine up. -/
def inForce (calls : List Call) : Option EngineRequest :=
  match calls.getLast? with
  | some (.connect e) => some e
  | _ => none

/-- The connection in force after one more call, if there is one. -/
def enforce (e? : Option EngineRequest) : Option Call → Option EngineRequest
  | none => e?
  | some (.connect e) => some e
  | some .disconnect => none

/-- The connection in force is told by the calls before and the last one. -/
theorem inForce_append (calls : List Call) (call? : Option Call) :
    inForce (calls ++ call?.toList) = enforce (inForce calls) call? := by
  cases call? with
  | none => rw [Option.toList_none, List.append_nil, enforce]
  | some call =>
    rw [Option.toList_some, inForce, List.getLast?_concat]
    cases call <;> rfl

/-- The address and the credentials with which the session to an engine is opened. -/
def sessionOf (e : EngineRequest) : String × Option Credentials :=
  (baseUrl e, credentials? e)

/-- **The session at a site is that of a connection**: the client that has a session, if there is one, is that
of the connection, and the messages tell of this session as the one that is open. -/
structure SessionOf (settings : Settings) (start : List Event) (e? : Option EngineRequest) (s : State) :
    Prop where
  engine : (s.engine.filter fun c => c.session.isSome) = e?.map (clientOf settings)
  turns : Turns start s.events (e?.map sessionOf)

variable {settings : Settings} {start : List Event} {e? : Option EngineRequest} {s t : State}

namespace SessionOf

/-- Where a connection is in force, the client is the one of this connection. -/
theorem engine_eq_some {e : EngineRequest} (h : SessionOf settings start (some e) s) :
    s.engine = some (clientOf settings e) :=
  (Option.filter_eq_some_iff.mp h.engine).1

/-- Without a connection no client has a session. -/
theorem session_eq_none (h : SessionOf settings start none s) {c : Client} (hc : s.engine = some c) :
    c.session = none := by
  have hengine := h.engine
  rw [hc] at hengine
  simpa using hengine

/-- A session is open just when a connection is in force. -/
theorem connectedIn (h : SessionOf settings start e? s) : connectedIn s = e?.isSome := by
  cases e? with
  | some e =>
    rw [Engine.connectedIn, h.engine_eq_some]
    rfl
  | none =>
    rw [Engine.connectedIn]
    cases hc : s.engine with
    | none => rfl
    | some c =>
      simp only [h.session_eq_none hc]
      rfl

/-- Log lines do not touch the session. -/
theorem log (h : SessionOf settings start e? s) (lines : List Line) :
    SessionOf settings start e? { s with lines := lines } :=
  ⟨h.engine, h.turns⟩

end SessionOf

/-- What is sent in the session of a connection is addressed by it. -/
theorem SessionOf.addressed (h : SessionOf settings start e? s) {e : Event} (he : InSession s e) :
    Addressed settings e? e := by
  cases e with
  | request address authorization timeout body =>
    have hrequest : _ ∈ requestsFor s body := he
    cases e? with
    | none =>
      rw [requestsFor] at hrequest
      cases hc : s.engine with
      | none =>
        rw [hc] at hrequest
        exact absurd hrequest List.not_mem_nil
      | some c =>
        rw [hc] at hrequest
        simp only [h.session_eq_none hc] at hrequest
        exact absurd hrequest List.not_mem_nil
    | some e =>
      rw [requestsFor, h.engine_eq_some] at hrequest
      simp only [clientOf] at hrequest
      split at hrequest
      · rename_i found proof hprepare
        obtain ⟨hform, hauthorized⟩ := authorizedBy_of_prepare hprepare
        obtain ⟨rfl, rfl, rfl, -⟩ := Event.request.inj (List.mem_singleton.mp hrequest)
        exact ⟨e, rfl, hform, hauthorized, rfl⟩
      · exact absurd hrequest List.not_mem_nil
  | _ => trivial

/-- A message in the session of a connection keeps this session open. -/
theorem SessionOf.turns_append_singleton (h : SessionOf settings start e? s) {events : List Event}
    (k : Turns start events (e?.map sessionOf)) {e : Event} (he : InSession s e) :
    Turns start (events ++ [e]) (e?.map sessionOf) := by
  cases e with
  | request address authorization timeout body =>
    obtain ⟨e, rfl, -⟩ := h.addressed he
    exact k.asked address authorization timeout body
  | openSession => exact absurd he not_false
  | closeSession => exact absurd he not_false
  | _ => exact k.other rfl

/-- A step that keeps the session keeps it the one of the connection. -/
theorem SessionOf.sameSession (h : SessionOf settings start e? s) (k : SameSession s t) :
    SessionOf settings start e? t := by
  obtain ⟨es, hevents, hes⟩ := k.messages
  refine ⟨by rw [k.engine, h.engine], ?_⟩
  rw [hevents]
  clear hevents
  induction es using List.reverseRecOn with
  | nil =>
    rw [List.append_nil]
    exact h.turns
  | append_singleton es e ih =>
    rw [← List.append_assoc]
    exact h.turns_append_singleton (ih fun e' he' => hes e' (List.mem_append_left _ he'))
      (hes e (by simp))

/-! ## Moves -/

/-- Something that is done to a controller and that may have to do with the session to the engine. -/
inductive Move where
  | connect (e : EngineRequest)
  | disconnect
  /-- the session is closed below the planner, which keeps its client -/
  | closeClient
  | obtain (ingress egress : ConnectPoint) (flag : Json)
  | request (r : Rest.Request)
  | startUp
  | shutDown

/-- The call that a request makes, if its body holds what the call needs. -/
def callOf? (r : Rest.Request) : Option Call :=
  if r.method.map Char.toUpper = "POST" then
    match Route.ofAddress r.address with
    | some .connectEngine => (Rest.carried? EngineRequest.check r).map .connect
    | some .disconnectEngine => some .disconnect
    | _ => none
  else none

/-- The engine that a controller connects when it starts, if there is one in its settings. -/
def engineOf? (settings : Settings) : Option EngineRequest :=
  if settings.engineHost = "" then none
  else some ⟨settings.engineProtocol, settings.engineHost, settings.enginePort, settings.engineUsername,
    settings.enginePassword⟩

namespace Move

/-- A move as a step; what it yields is not kept. -/
def perform (settings : Settings) (services : Services) : Move → Act Unit
  | connect e => Engine.connect settings e.protocol e.host e.port e.username e.password
  | disconnect => Engine.disconnect
  | closeClient => Engine.closeClient
  | obtain ingress egress flag => discard (services.planner.obtain ingress egress flag)
  | request r => discard (Rest.handle settings (some services) r)
  | startUp => Controller.startUp settings (some services)
  | shutDown => Controller.shutDown (some services)

/-- A move has to do with the session: a request asks for a circuit, connects the engine or gives it up. -/
def OfSession : Move → Prop
  | request r => Route.ofAddress r.address ∈ [some .connectivity, some .connectEngine, some .disconnectEngine]
  | _ => True

/-- The call that a move makes, depending on whether an engine is connected. -/
def call? (settings : Settings) (connected : Bool) : Move → Option Call
  | connect e => some (.connect e)
  | disconnect => some .disconnect
  | closeClient => some .disconnect
  | obtain _ _ _ => none
  | request r => callOf? r
  | startUp => if connected then none else (engineOf? settings).map .connect
  | shutDown => some .disconnect

/-- The calls that some moves make when they begin without an engine. -/
def calls (settings : Settings) (moves : List Move) : List Call :=
  moves.foldl (fun calls m => calls ++ (m.call? settings (inForce calls).isSome).toList) []

/-- A move changes the connection in force by its call, if it makes one. -/
theorem inForce_calls_append_singleton (settings : Settings) (moves : List Move) (m : Move) :
    inForce (calls settings (moves ++ [m]))
      = enforce (inForce (calls settings moves))
        (m.call? settings (inForce (calls settings moves)).isSome) := by
  rw [calls, List.foldl_append]
  exact inForce_append _ _

end Move

/-! ## Single moves -/

/-- **A call leads from the site `s` to the site `t`**: the connection in force is then that after the call, and
what has been asked of the engine in between has been asked of the one before. -/
structure Led (settings : Settings) (start : List Event) (e? : Option EngineRequest) (call? : Option Call)
    (s t : State) : Prop where
  session : SessionOf settings start (enforce e? call?) t
  messages : ∃ es, t.events = s.events ++ es ∧ ∀ e ∈ es, Addressed settings e? e

/-- A step that makes a call wherever a connection is in force. -/
def Makes {α : Type} (settings : Settings) (start : List Event) (e? : Option EngineRequest)
    (call? : Option Call) (x : Act α) : Prop :=
  ∀ s, SessionOf settings start e? s → Led settings start e? call? s (Act.exec x s).2

variable {α : Type} {call? : Option Call}

/-- A step that keeps the session makes no call. -/
theorem makes_of_keepsSession {x : Act α} (hx : KeepsSession x) : Makes settings start e? none x := by
  intro s h
  obtain ⟨es, hevents, hes⟩ := (hx s).messages
  exact ⟨h.sameSession (hx s), es, hevents, fun e he => h.addressed (hes e he)⟩

/-- Whether what a step yields is kept does not matter. -/
theorem Makes.discard {x : Act α} (hx : Makes settings start e? call? x) :
    Makes settings start e? call? (Functor.discard x) := by
  intro s h
  rw [exec_discard]
  exact hx s h

/-- Lines of the log may stand in front of the call -/
theorem Makes.after_info {x : Act α} (hx : Makes settings start e? call? x) (text : String) :
    Makes settings start e? call? (info text >>= fun _ => x) := by
  intro s h
  rw [info, exec_bind_ok (exec_log _ _ s)]
  have hled := hx _ (h.log (s.lines ++ [⟨.info, text⟩]))
  exact ⟨hled.session, hled.messages⟩

/-- and behind it. -/
theorem Makes.before_info {x : Act Unit} (hx : Makes settings start e? call? x) (text : String) :
    Makes settings start e? call? (x >>= fun _ => info text) := by
  intro s h
  have hled := hx s h
  rw [exec_bind]
  cases hrun : Act.exec x s with
  | mk o t =>
    rw [hrun] at hled
    cases o with
    | ok _ => exact ⟨hled.session.log _, hled.messages⟩
    | error f => exact hled

/-- Closing the session of the client gives the connection up; the client stays without a session. -/
theorem exec_closeSession (h : SessionOf settings start e? s) {c : Client} (hc : s.engine = some c) :
    ∃ t, Act.exec (closeSession c) s = (.ok (), t) ∧ Led settings start e? (some .disconnect) s t := by
  rw [closeSession]
  cases e? with
  | none =>
    rw [h.session_eq_none hc]
    exact ⟨s, rfl, h, [], (List.append_nil _).symm, by simp⟩
  | some e =>
    obtain rfl := Option.some.inj (hc.symm.trans h.engine_eq_some)
    exact ⟨{ s with
        events := s.events ++ [.closeSession (baseUrl e)]
        engine := some (clientOf settings e).closed
        lines := s.lines ++ [⟨.info, "Path computation engine session to " ++ baseUrl e ++ " closed"⟩] },
      rfl, ⟨rfl, h.turns.closed⟩, _, rfl, by simp [Addressed]⟩

/-- Giving the engine up closes its session, if there is one, and leaves no client. -/
theorem exec_disconnect (h : SessionOf settings start e? s) :
    ∃ t, Act.exec disconnect s = (.ok (), t) ∧ t.engine = none ∧
      Led settings start e? (some .disconnect) s t := by
  rw [disconnect, exec_bind_ok (exec_get s)]
  cases hc : s.engine with
  | none =>
    have hnone : e? = none := by
      have hengine := h.engine
      rw [hc] at hengine
      simpa using hengine.symm
    subst hnone
    exact ⟨s, rfl, hc, h, [], (List.append_nil _).symm, by simp⟩
  | some c =>
    obtain ⟨t, hclosed, hled⟩ := exec_closeSession h hc
    simp only
    rw [exec_bind_ok hclosed, exec_modify]
    exact ⟨{ t with engine := none }, rfl, rfl, ⟨rfl, hled.session.turns⟩, hled.messages⟩

/-- Giving the engine up is a call, whether or not one is connected. -/
theorem makes_disconnect : Makes settings start e? (some .disconnect) disconnect := by
  intro s h
  obtain ⟨t, hrun, -, hled⟩ := exec_disconnect h
  rw [hrun]
  exact hled

/-- A client without a session has none to close. -/
theorem makes_closeClient : Makes settings start e? (some .disconnect) closeClient := by
  intro s h
  rw [closeClient, exec_bind_ok (exec_get s)]
  cases hc : s.engine with
  | none =>
    obtain ⟨t, hrun, -, hled⟩ := exec_disconnect h
    rw [disconnect, exec_bind_ok (exec_get s), hc] at hrun
    obtain rfl := congrArg Prod.snd hrun
    exact hled
  | some c =>
    obtain ⟨t, hrun, hled⟩ := exec_closeSession h hc
    simp only
    rw [hrun]
    exact hled

/-- A new session is opened when the one before is closed. -/
theorem makes_connect (e : EngineRequest) :
    Makes settings start e? (some (.connect e))
      (connect settings e.protocol e.host e.port e.username e.password) := by
  intro s h
  obtain ⟨t, hdisconnect, -, hled⟩ := exec_disconnect h
  obtain ⟨es, hevents, hes⟩ := hled.messages
  have hopened := hled.session.turns.opened (baseUrl e) (credentials? e)
  rw [connect, exec_bind_ok hdisconnect, opened_new]
  refine ⟨⟨rfl, hopened⟩, es ++ [.openSession (baseUrl e) (credentials? e)], ?_, fun e' he' => ?_⟩
  · show t.events ++ _ = _
    rw [hevents, List.append_assoc]
    rfl
  · rcases List.mem_append.mp he' with he' | he'
    · exact hes e' he'
    · rw [List.mem_singleton.mp he']
      trivial

/-- Where the engine has been given up, nothing more is asked of it. -/
theorem led_disconnect_bind {f : Unit → Act α} (hf : KeepsSession (f ())) (h : SessionOf settings start e? s) :
    (Act.exec (disconnect >>= f) s).2.engine = none ∧
      Led settings start e? (some .disconnect) s (Act.exec (disconnect >>= f) s).2 := by
  obtain ⟨t, hrun, hnone, hled⟩ := exec_disconnect h
  obtain ⟨es, hevents, hes⟩ := hled.messages
  obtain ⟨fs, kevents, hfs⟩ := (hf t).messages
  rw [exec_bind_ok hrun]
  refine ⟨(hf t).engine.trans hnone, hled.session.sameSession (hf t), es ++ fs,
    by rw [kevents, hevents, List.append_assoc], fun e he => ?_⟩
  rcases List.mem_append.mp he with he | he
  · exact hes e he
  · exact addressed_of_none (hled.session.addressed (hfs e he))

/-- The engine of the settings is connected when there is one and no other is connected. -/
theorem makes_connectConfigured (services : Services) :
    Makes settings start e? (Move.startUp.call? settings e?.isSome)
      (connectConfigured settings (some services)) := by
  intro s h
  rw [Move.call?, engineOf?, connectConfigured]
  by_cases hhost : settings.engineHost = ""
  · rw [if_pos hhost, if_neg (not_not.mpr hhost), Option.map_none, ite_self]
    exact makes_of_keepsSession (Along.pure ()) s h
  · rw [if_neg hhost, if_pos hhost]
    show Led _ _ _ _ s (Act.exec (isConnected >>= _) s).2
    rw [exec_bind_ok (exec_isConnected s), h.connectedIn]
    cases e? with
    | none => exact makes_connect ⟨_, _, _, _, _⟩ s h
    | some e => exact makes_of_keepsSession (Along.pure ()) s h

/-- Starting the controller connects the engine of the settings, if there is one and no other is connected. -/
theorem makes_startUp (services : Services) :
    Makes settings start e? (Move.startUp.call? settings e?.isSome)
      (Controller.startUp settings (some services)) :=
  (((makes_connectConfigured services).before_info _).after_info _).after_info _

/-- A controller that is shut down gives the engine up. -/
theorem led_shutDown (services : Services) (h : SessionOf settings start e? s) :
    (Act.exec (Controller.shutDown (some services)) s).2.engine = none ∧
      Led settings start e? (some .disconnect) s (Act.exec (Controller.shutDown (some services)) s).2 := by
  rw [Controller.shutDown, info, exec_bind_ok (exec_log _ _ s)]
  refine (led_disconnect_bind ?_ (h.log _)).imp_right fun hled => ⟨hled.session, hled.messages⟩
  split
  · exact keepsSession_close.bind fun _ => Along.info _
  · exact Along.info _

section Moves

variable {services : Services} (hadj : ∀ device, KeepsSession (services.planner.adjacency device))
  (hpower : ∀ device port component value,
    KeepsSession (services.planner.power.set device port component value))

include hadj hpower

/-- **A request makes the call of its route**: two routes connect the engine and give it up, and the one for
circuits keeps the session. -/
theorem makes_request {r : Rest.Request} (hr : (Move.request r).OfSession) :
    Makes settings start e? (callOf? r) (Rest.handle settings (some services) r) := by
  intro s h
  simp only [Move.OfSession, List.mem_cons, List.not_mem_nil, or_false] at hr
  by_cases hmethod : r.method.map Char.toUpper = "POST"
  · rw [callOf?, if_pos hmethod]
    rcases hr with hroute | hroute | hroute
    · rw [hroute, Rest.snd_exec_handle hroute hmethod]
      exact makes_of_keepsSession
        (Rest.along_run_onRoute_connectivity (keepsSession_obtain hadj hpower) settings r) s h
    · rw [hroute, Rest.snd_exec_handle hroute hmethod, Rest.snd_exec_connectEngine]
      cases Rest.carried? EngineRequest.check r with
      | none => exact makes_of_keepsSession (Along.pure ()) s h
      | some e => exact makes_connect e s h
    · rw [hroute, Rest.snd_exec_handle hroute hmethod, Rest.snd_exec_disconnectEngine]
      exact makes_disconnect s h
  · -- none of the three routes takes another method
    have hsame : (Act.exec (Rest.handle settings (some services) r) s).2 = s := by
      rcases hr with hroute | hroute | hroute <;>
        exact Rest.snd_exec_handle_of_method hroute hmethod s
    rw [callOf?, if_neg hmethod, hsame]
    exact makes_of_keepsSession (Along.pure ()) s h

/-- **Each move makes its call.** -/
theorem makes_perform {m : Move} (hm : m.OfSession) :
    Makes settings start e? (m.call? settings e?.isSome) (m.perform settings services) := by
  cases m with
  | connect e => exact makes_connect e
  | disconnect => exact makes_disconnect
  | closeClient => exact makes_closeClient
  | obtain ingress egress flag =>
    exact (makes_of_keepsSession (keepsSession_obtain hadj hpower ingress egress flag)).discard
  | request r => exact (makes_request hadj hpower hm).discard
  | startUp => exact makes_startUp services
  | shutDown => exact fun s h => (led_shutDown services h).2

end Moves

/-! ## Runs -/

/-- **The life cycle of the session to the engine**, from the site `s` over some moves to the site `t`. -/
structure LifeCycle (settings : Settings) (services : Services) (s : State) (moves : List Move) (t : State) :
    Prop where
  /-- A client is in a session just when an engine is connected, and it is the client of this engine. -/
  engine : (t.engine.filter fun c => c.session.isSome)
    = (inForce (Move.calls settings moves)).map (clientOf settings)
  connected : connectedIn t = (inForce (Move.calls settings moves)).isSome
  /-- Sessions have been opened and closed in turn, and the one to this engine is the one that is open. -/
  turns : ∀ session?, Turns s.events t.events session?
    ↔ session? = (inForce (Move.calls settings moves)).map sessionOf
  /-- At no point of the run has another session been open beside the one. -/
  oneAtATime : ∀ events, s.events <+: events → events <+: t.events →
    ∃ session?, Turns s.events events session?
  /-- A controller that is shut down leaves no session open, and no client. -/
  shutDown : moves.getLast? = some .shutDown → t.engine = none ∧ Turns s.events t.events none
  /-- Each path request of a move is addressed by the connection in force before it; without one there is
  none. -/
  requests : ∀ before m after, moves = before ++ m :: after →
    ∃ es, (s.after ((before ++ [m]).map (Move.perform settings services))).events
        = (s.after (before.map (Move.perform settings services))).events ++ es ∧
      ∀ e ∈ es, Addressed settings (inForce (Move.calls settings before)) e
  /-- Without a session no circuit can be asked for. -/
  refused : connectedIn t = false → ∀ r body, Route.ofAddress r.address = some .connectivity →
    r.method.map Char.toUpper = "POST" → Rest.bodyOf r = .ok body →
      Act.exec (Rest.handle settings (some services) r) t
        = (.ok (Rest.refused 503 "Path computation engine is not connected"), t)

section Runs

variable {services : Services} {moves : List Move}
  (hadj : ∀ device, KeepsSession (services.planner.adjacency device))
  (hpower : ∀ device port component value,
    KeepsSession (services.planner.power.set device port component value))

include hadj hpower

variable (settings) in
/-- After some moves the session is that of the connection in force. -/
theorem sessionOf_after (hmoves : ∀ m ∈ moves, m.OfSession) (hs : s.engine = none) :
    SessionOf settings s.events (inForce (Move.calls settings moves))
      (s.after (moves.map (Move.perform settings services))) := by
  induction moves using List.reverseRecOn with
  | nil => exact ⟨congrArg _ hs, Turns.start⟩
  | append_singleton moves m ih =>
    have hbefore := ih fun m' hm' => hmoves m' (List.mem_append_left _ hm')
    have hm : m.OfSession := hmoves m (List.mem_append_right _ List.mem_cons_self)
    rw [List.map_append, List.map_singleton, after_append_singleton, Move.inForce_calls_append_singleton]
    exact (makes_perform hadj hpower hm _ hbefore).session

/-- **The session to the engine over whole runs.** Whatever is connected, given up, asked for, started and
shut down in whatever order, from a site without an engine on: the session that is open is that of the last
call that connects an engine, with its address and its credentials, unless this has been given up since; each
other one has been closed before the next was opened, and none is open after shutting down. Each path request
goes to the address of this engine and with its credentials; while no engine is connected none is sent, and a
request for a circuit is refused. What is assumed of the services holds of those that a controller is built of
(`keepsSession_of_build`). -/
theorem lifeCycle_after (hmoves : ∀ m ∈ moves, m.OfSession) (hs : s.engine = none) :
    LifeCycle settings services s moves (s.after (moves.map (Move.perform settings services))) := by
  have hsession := sessionOf_after settings hadj hpower hmoves hs
  refine ⟨hsession.engine, hsession.connectedIn, fun session? => ⟨fun h => h.unique hsession.turns, ?_⟩,
    fun events => hsession.turns.of_isPrefix, fun hlast => ?_, fun before m after hsplit => ?_,
    fun hno r body hroute hmethod hbody => ?_⟩
  · rintro rfl
    exact hsession.turns
  · obtain ⟨before, rfl⟩ := List.getLast?_eq_some_iff.mp hlast
    have hbefore := sessionOf_after settings hadj hpower
      (fun m' hm' => hmoves m' (List.mem_append_left _ hm')) hs
    rw [List.map_append, List.map_singleton, after_append_singleton]
    exact (led_shutDown services hbefore).imp_right fun hled => hled.session.turns
  · subst hsplit
    have hbefore := sessionOf_after settings hadj hpower
      (fun m' hm' => hmoves m' (List.mem_append_left _ hm')) hs
    have hm : m.OfSession := hmoves m (List.mem_append_right _ List.mem_cons_self)
    rw [List.map_append, List.map_singleton, after_append_singleton]
    exact (makes_perform hadj hpower hm _ hbefore).messages
  · exact Rest.exec_handle_connectivity_of_not_connected settings services hroute hmethod hbody hno

end Runs

/-- The settings of a laboratory, with an engine that is connected when the controller starts. -/
def laboratory : Settings where
  apiHost := "0.0.0.0"
  apiPort := 8085
  apiTitle := "Optical Provisioning Controller"
  apiVersion := "1.0.0"
  controllerId := "lab"
  engineProtocol := "http"
  engineHost := "gnpy"
  enginePort := 8080
  engineUsername := none
  enginePassword := none
  enginePath := "/api/v1/path-computation"
  engineTimeout := 30.0
  transceiverType := "Cassini"
  linkStoreHost := "link-db-redis"
  linkStorePort := 6379
  linkStorePassword := none
  deviceScheme := "netconf:"
  commonPort := 100
  portFront := "E"
  dataSpace := "urn:roadm"
  logLevel := .info
  logFile := none

/-- The services of the laboratory: powers are only noted, and links are looked up in the link database. -/
def laboratoryServices : Services :=
  ⟨reconcilerOf laboratory none none none none, plannerOf laboratory (Power.Control.notes none) none none,
    none, true⟩

/-- A day in the laboratory: the engine of the settings is given up by a request, another one is connected and
loses its session, it is connected again, and a circuit is asked for. -/
def laboratoryMoves : List Move :=
  [.startUp, .request ⟨"post", "/api/v1/pce/disconnect", none⟩,
    .connect ⟨"http", "gnpy-2", 8080, none, none⟩, .closeClient,
    .connect ⟨"https", "gnpy-2", 8443, some "lab", some "key"⟩,
    .obtain ⟨"netconf:a", 1⟩ ⟨"netconf:b", 1⟩ (.bool true)]

/-- At the end of the day the engine that was connected last is the one with a session. -/
theorem lifeCycle_after_laboratory :
    LifeCycle laboratory laboratoryServices (State.ofDevices []) laboratoryMoves
        ((State.ofDevices []).after (laboratoryMoves.map (Move.perform laboratory laboratoryServices))) ∧
      (inForce (Move.calls laboratory laboratoryMoves)).map sessionOf
        = some ("https://gnpy-2:8443", some ⟨"lab", "key"⟩) := by
  have hroute : Route.ofAddress "/api/v1/pce/disconnect"
      ∈ [some .connectivity, some .connectEngine, some .disconnectEngine] := by
    decide +kernel
  have hmoves : ∀ m ∈ laboratoryMoves, m.OfSession := by
    simp only [laboratoryMoves, List.forall_mem_cons]
    exact ⟨trivial, hroute, trivial, trivial, trivial, trivial, by simp⟩
  refine ⟨lifeCycle_after (fun _ => LinkStore.along_deviceLinks _) (keepsSession_notes none) hmoves rfl, ?_⟩
  decide +kernel

end Lightpath.Engine
