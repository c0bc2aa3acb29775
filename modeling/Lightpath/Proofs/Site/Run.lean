import Lightpath.Site.Session

/-!
# Runs on a site

How steps run one after the other, what a step leaves alone, and what a device that keeps its
session answers. `Sends es s t` says that a site `t` is the site `s` after the messages `es` and
nothing else but log lines; the laws of reading and editing are stated with it.
-/

namespace Lightpath.Site

variable {α β : Type}

/-! ## Steps one after the other -/

@[simp] theorem exec_pure (a : α) (s : State) : Act.exec (pure a) s = (.ok a, s) := rfl

@[simp] theorem exec_get (s : State) : Act.exec get s = (.ok s, s) := rfl

@[simp] theorem exec_modify (f : State → State) (s : State) :
    Act.exec (modify f) s = (.ok (), f s) := rfl

/-- A line that is logged stands at the end of the log. -/
@[simp] theorem exec_log (level : Controller.LogLevel) (text : String) (s : State) :
    Act.exec (log level text) s = (.ok (), { s with lines := s.lines ++ [⟨level, text⟩] }) := rfl

/-- A message that is sent stands behind the others. -/
@[simp] theorem exec_send (e : Event) (s : State) :
    Act.exec (send e) s = (.ok (), { s with events := s.events ++ [e] }) := rfl

@[simp] theorem exec_yield_ok (a : α) (s : State) : Act.exec (yield (.ok a)) s = (.ok a, s) := rfl

@[simp] theorem exec_yield_error (f : Failure) (s : State) :
    Act.exec (yield (.error f : Outcome α)) s = (.error f, s) := rfl

/-- The second of two steps runs on what the first one leaves, unless the first one fails. -/
theorem exec_bind (x : Act α) (f : α → Act β) (s : State) :
    Act.exec (x >>= f) s = match Act.exec x s with
      | (.ok a, t) => Act.exec (f a) t
      | (.error e, t) => (.error e, t) := by
  unfold Act.exec
  rw [EStateM.run_bind]
  cases x.run s <;> rfl

/-- A step that succeeds hands its value and its site on. -/
theorem exec_bind_ok {x : Act α} {a : α} {s t : State} (h : Act.exec x s = (.ok a, t))
    (f : α → Act β) : Act.exec (x >>= f) s = Act.exec (f a) t := by
  rw [exec_bind, h]

/-- A step that fails ends the run. -/
theorem exec_bind_error {x : Act α} {e : Failure} {s t : State} (h : Act.exec x s = (.error e, t))
    (f : α → Act β) : Act.exec (x >>= f) s = (.error e, t) := by
  rw [exec_bind, h]

/-- What comes behind a step matters on what the step yields only. -/
theorem exec_bind_congr {x : Act α} {f g : α → Act β} {s : State}
    (h : ∀ a t, Act.exec x s = (.ok a, t) → Act.exec (f a) t = Act.exec (g a) t) :
    Act.exec (x >>= f) s = Act.exec (x >>= g) s := by
  rw [exec_bind, exec_bind]
  cases hx : Act.exec x s with
  | mk o t =>
    cases o with
    | ok a => exact h a t hx
    | error e => rfl

/-- What is made of the value of a step does not change its run. -/
theorem exec_map (f : α → β) (x : Act α) (s : State) :
    Act.exec (f <$> x) s = ((Act.exec x s).1.map f, (Act.exec x s).2) := by
  rw [map_eq_pure_bind, exec_bind]
  cases Act.exec x s with
  | mk o t => cases o <;> rfl

theorem exec_discard (x : Act α) (s : State) :
    Act.exec (discard x) s = ((Act.exec x s).1.map fun _ => (), (Act.exec x s).2) :=
  exec_map (fun _ => ()) x s

/-- What a failure is answered with runs on what the failed step leaves. -/
theorem exec_tryCatch (x : Act α) (handle : Failure → Act α) (s : State) :
    Act.exec (tryCatch x handle) s = match Act.exec x s with
      | (.ok a, t) => (.ok a, t)
      | (.error e, t) => Act.exec (handle e) t := by
  have htry : (tryCatch x handle : Act α).run s = EStateM.tryCatch x handle s := rfl
  rw [Act.exec, htry]
  unfold Act.exec EStateM.run EStateM.tryCatch
  cases x s <;> rfl

/-- What a site becomes by steps one after the other, each of which goes on whether or not the one before
has failed. -/
def State.after (s : State) (steps : List (Act Unit)) : State :=
  steps.foldl (fun s a => (Act.exec a s).2) s

/-- The last step starts from the site that the others lead to. -/
theorem after_append_singleton (s : State) (steps : List (Act Unit)) (a : Act Unit) :
    s.after (steps ++ [a]) = (Act.exec a (s.after steps)).2 := by
  rw [State.after, List.foldl_append]
  rfl

/-- A site that has devices and nothing else. -/
def State.ofDevices (devices : OrderedMap String Device) : State :=
  ⟨devices, [], none, [], fun _ => .ok "", LinkStore.Records.empty, [], [], []⟩

/-! ## Messages -/

/-- The messages that a step sends. -/
def messages (a : Act α) (s : State) : List Event :=
  (Act.exec a s).2.events.drop s.events.length

/-- A device without the count of its look-ups: all that it answers. -/
def Device.answers (d : Device) : Device :=
  { d with uses := none }

/-- **The site `t` is the site `s` after some messages**: devices answer as before, and apart from
log lines nothing else has changed. -/
structure Sends (es : List Event) (s t : State) : Prop where
  events : t.events = s.events ++ es
  devices : ∀ name, (OrderedMap.get? t.devices name).map Device.answers
    = (OrderedMap.get? s.devices name).map Device.answers
  rest : { t with devices := s.devices, events := s.events, lines := s.lines } = s

namespace Sends

variable {es fs : List Event} {s t u : State}

theorem refl (s : State) : Sends [] s s :=
  ⟨by simp, fun _ => rfl, rfl⟩

/-- Messages that are sent one after the other add up. -/
theorem trans (h : Sends es s t) (k : Sends fs t u) : Sends (es ++ fs) s u where
  events := by rw [k.events, h.events, List.append_assoc]
  devices := fun name => (k.devices name).trans (h.devices name)
  rest := by
    have hk := k.rest
    have hh := h.rest
    cases s; cases t; cases u
    simp only [State.mk.injEq, true_and, and_true] at hk hh ⊢
    exact ⟨hk.1.trans hh.1, hk.2.1.trans hh.2.1, hk.2.2.1.trans hh.2.2.1,
      hk.2.2.2.1.trans hh.2.2.2.1, hk.2.2.2.2.1.trans hh.2.2.2.2.1,
      hk.2.2.2.2.2.trans hh.2.2.2.2.2⟩

/-- Log lines are no messages. -/
theorem log (s : State) (lines : List Line) : Sends [] s { s with lines := lines } :=
  ⟨by simp, fun _ => rfl, rfl⟩

/-- A message is one. -/
theorem send (s : State) (e : Event) : Sends [e] s { s with events := s.events ++ [e] } :=
  ⟨rfl, fun _ => rfl, rfl⟩

/-- Messages leave the connection table alone. -/
theorem table (h : Sends es s t) : t.table = s.table := by
  have hrest := congrArg State.table h.rest
  exact hrest

/-- The messages of a step are those that it sends from its start to its end. -/
theorem messages {a : Act α} {v : Outcome α} (h : Sends es s t) (hrun : Act.exec a s = (v, t)) :
    messages a s = es := by
  rw [Site.messages, hrun, h.events, List.drop_left]

end Sends

/-! ## Log lines -/

/-- The site `t` is the site `s` but for its log. -/
def Logs (s t : State) : Prop :=
  ∃ lines, t = { s with lines := lines }

theorem Logs.refl (s : State) : Logs s s :=
  ⟨s.lines, rfl⟩

/-- Log lines add up. -/
theorem Logs.trans {s t u : State} (h : Logs s t) (k : Logs t u) : Logs s u := by
  obtain ⟨lines, rfl⟩ := h
  obtain ⟨more, rfl⟩ := k
  exact ⟨more, rfl⟩

/-- Logging sends no message. -/
theorem Logs.sends {s t : State} (h : Logs s t) : Sends [] s t := by
  obtain ⟨lines, rfl⟩ := h
  exact Sends.log s lines

/-- Log lines behind some messages are no messages. -/
theorem Sends.logs {es : List Event} {s t u : State} (h : Sends es s t) (k : Logs t u) :
    Sends es s u := by
  have hsends := h.trans k.sends
  rwa [List.append_nil] at hsends

/-- A step that writes to the log and does nothing else. -/
def OnlyLogs (a : Act Unit) : Prop :=
  ∀ s, ∃ t, Act.exec a s = (.ok (), t) ∧ Logs s t

theorem onlyLogs_log (level : Controller.LogLevel) (text : String) : OnlyLogs (log level text) :=
  fun s => ⟨_, exec_log level text s, _, rfl⟩

/-- One such step for each entry of a list is such a step. -/
theorem onlyLogs_forM {f : α → Act Unit} (h : ∀ a, OnlyLogs (f a)) (l : List α) :
    OnlyLogs (l.forM f) := by
  intro s
  induction l generalizing s with
  | nil => exact ⟨s, rfl, Logs.refl s⟩
  | cons a l ih =>
    obtain ⟨t, ha, hst⟩ := h a s
    obtain ⟨u, hl, htu⟩ := ih t
    refine ⟨u, ?_, hst.trans htu⟩
    show Act.exec (f a >>= fun _ => l.forM f) s = _
    rw [exec_bind_ok ha, hl]

/-- The same for a loop over a list. -/
theorem onlyLogs_forIn {f : α → Act Unit} (h : ∀ a, OnlyLogs (f a)) (l : List α) :
    OnlyLogs (do for a in l do f a) := by
  intro s
  induction l generalizing s with
  | nil => exact ⟨s, rfl, Logs.refl s⟩
  | cons a l ih =>
    obtain ⟨t, ha, hst⟩ := h a s
    obtain ⟨u, hl, htu⟩ := ih t
    refine ⟨u, ?_, hst.trans htu⟩
    rw [← hl, List.forIn_cons, exec_bind, exec_bind, exec_bind_ok ha, exec_pure, exec_bind]

/-! ## Sessions -/

/-- **A device that keeps its session**: in the next `n` look-ups at least there is one, and the
device answers in it like `d`. -/
def Serves (s : State) (device : String) (d : Device) (n : Nat) : Prop :=
  ∃ u, OrderedMap.get? s.devices device = some { d with uses := u } ∧ ∀ m, u = some m → n ≤ m

variable {s t : State} {device : String} {d : Device} {n : Nat}

/-- A session that is there for some uses is there for fewer. -/
theorem Serves.mono {m : Nat} (h : Serves s device d n) (hm : m ≤ n) : Serves s device d m := by
  obtain ⟨u, hu, hn⟩ := h
  exact ⟨u, hu, fun k hk => Nat.le_trans hm (hn k hk)⟩

/-- Log lines and messages use up no session. -/
theorem Serves.of_devices_eq (h : Serves s device d n) (ht : t.devices = s.devices) :
    Serves t device d n := by
  rw [Serves, ht]
  exact h

/-- Logging does not use a session. -/
theorem Serves.logs (h : Serves s device d n) (ht : Logs s t) : Serves t device d n := by
  obtain ⟨lines, rfl⟩ := ht
  exact h

/-- Whether the session of a device can still be looked up changes nothing of what the device
answers. -/
theorem answers_put (devices : OrderedMap String Device) {device : String} {d : Device}
    (hd : OrderedMap.get? devices device = some d) (u : Option Nat) (name : String) :
    (OrderedMap.get? (OrderedMap.put devices device { d with uses := u }) name).map Device.answers
      = (OrderedMap.get? devices name).map Device.answers := by
  by_cases h : device = name
  · subst h
    rw [OrderedMap.get?_put_self, hd]
    rfl
  · rw [OrderedMap.get?_put_of_ne _ _ h]

/-- A device keeps its session as long as its uses last, and it answers like each device that gives
the same answers. -/
theorem serves_iff {e : Device} (hd : OrderedMap.get? s.devices device = some e) :
    Serves s device d n ↔ e.answers = d.answers ∧ ∀ m, e.uses = some m → n ≤ m := by
  constructor
  · rintro ⟨u, hu, hn⟩
    obtain rfl := Option.some.inj (hd.symm.trans hu)
    exact ⟨rfl, hn⟩
  · rintro ⟨hanswers, hn⟩
    refine ⟨e.uses, ?_, hn⟩
    have hsame := congrArg (fun a : Device => { a with uses := e.uses }) hanswers
    rw [hd]
    exact congrArg some hsame

/-- A device answers in one way. -/
theorem Serves.answers_eq {e : Device} {m : Nat} (h : Serves s device d n)
    (k : Serves s device e m) : d.answers = e.answers := by
  obtain ⟨u, hu, -⟩ := id h
  rw [← ((serves_iff hu).mp h).1, ((serves_iff hu).mp k).1]

/-- There is no session of a device. -/
def Lost (s : State) (device : String) : Prop :=
  ∀ d, ¬ Serves s device d 1

/-- From the site `s` to the site `t` one use of the session of a device is spent. -/
structure Spends (s t : State) (device : String) (d : Device) : Prop where
  serves : Serves s device d 1
  left : ∀ e n, Serves t device e n ↔ Serves s device e (n + 1)

theorem Spends.of_devices_eq {u : State} (h : Spends s t device d) (hu : u.devices = t.devices) :
    Spends s u device d :=
  ⟨h.serves, fun e n => by rw [← h.left, Serves, Serves, hu]⟩

/-- A use stays spent whatever is logged behind it. -/
theorem Spends.logs {u : State} (h : Spends s t device d) (hu : Logs t u) :
    Spends s u device d := by
  obtain ⟨lines, rfl⟩ := hu
  exact h.of_devices_eq rfl

/-- A device with a session is not lost. -/
theorem Serves.not_lost (h : Serves s device d (n + 1)) : ¬ Lost s device :=
  fun hlost => hlost d (h.mono (Nat.le_add_left 1 n))

/-- **A look-up finds no session of a device that has none, or it finds one and spends one use of
it.** -/
theorem exec_session?_cases (s : State) (device : String) :
    (Act.exec (session? device) s = (.ok none, s) ∧ Lost s device) ∨
      ∃ d t, Act.exec (session? device) s = (.ok (some d), t) ∧ Sends [] s t ∧
        OrderedMap.get? s.devices device = some d ∧ Spends s t device d := by
  cases hd : OrderedMap.get? s.devices device with
  | none =>
    refine Or.inl ⟨?_, fun d h => ?_⟩
    · rw [session?, exec_bind_ok (exec_get s), hd, exec_pure]
    · obtain ⟨u, hu, -⟩ := h
      exact absurd (hd.symm.trans hu) (by simp)
  | some d =>
    cases hu : d.uses with
    | none =>
      refine Or.inr ⟨d, s, ?_, Sends.refl s, rfl,
        (serves_iff hd).mpr ⟨rfl, by simp [hu]⟩, fun e n => ?_⟩
      · rw [session?, exec_bind_ok (exec_get s), hd]
        simp only [hu, exec_pure]
      · rw [serves_iff hd, serves_iff hd, hu]
        simp
    | some m =>
      cases m with
      | zero =>
        refine Or.inl ⟨?_, fun e h => ?_⟩
        · rw [session?, exec_bind_ok (exec_get s), hd]
          simp only [hu, exec_pure]
        · exact absurd (((serves_iff hd).mp h).2 0 hu) (by omega)
      | succ m =>
        have hone : Serves s device d 1 :=
          (serves_iff hd).mpr ⟨rfl, fun k hk => by have := Option.some.inj (hu.symm.trans hk); omega⟩
        refine Or.inr ⟨d,
          { s with devices := OrderedMap.put s.devices device { d with uses := some m } },
          ?_, ⟨?_, answers_put s.devices hd (some m), rfl⟩, rfl, hone, fun e n => ?_⟩
        · rw [session?, exec_bind_ok (exec_get s), hd]
          simp only [hu]
          rw [exec_bind_ok (exec_modify _ _), exec_pure]
        · simp
        · rw [serves_iff (OrderedMap.get?_put_self _ _ _), serves_iff hd, hu]
          simp [Device.answers]

/-- A look-up finds a session of the device that is there, or none; either way nothing is sent. -/
theorem exec_session? (s : State) (device : String) :
    ∃ out t, Act.exec (session? device) s = (.ok out, t) ∧ Sends [] s t ∧
      ∀ d, out = some d → OrderedMap.get? s.devices device = some d := by
  obtain ⟨hnone, -⟩ | ⟨d, t, hfound, hst, hd, -⟩ := exec_session?_cases s device
  · exact ⟨none, s, hnone, Sends.refl s, by simp⟩
  · exact ⟨some d, t, hfound, hst, fun e he => by rw [← Option.some.inj he, hd]⟩

/-- A device that keeps its session for a look-up is found. -/
theorem Serves.exec_session? (h : Serves s device d (n + 1)) :
    ∃ u t, Act.exec (session? device) s = (.ok (some { d with uses := u }), t) ∧ Sends [] s t ∧
      Serves t device d n := by
  obtain ⟨-, hlost⟩ | ⟨e, t, hfound, hst, hd, hspends⟩ := exec_session?_cases s device
  · exact absurd hlost h.not_lost
  · obtain ⟨u, hu, -⟩ := id h
    obtain rfl := Option.some.inj (hd.symm.trans hu)
    exact ⟨u, t, hfound, hst, (hspends.left d n).mpr h⟩

/-- A device of the site answers to a filter with a reply. -/
def Replies (s : State) (device filter reply : String) : Prop :=
  ∃ d, OrderedMap.get? s.devices device = some d ∧ d.reply filter = some reply

/-- Messages do not change what a device answers with. -/
theorem Sends.replies {es : List Event} {filter reply : String} (h : Sends es s t)
    (ht : Replies t device filter reply) : Replies s device filter reply := by
  obtain ⟨d, hd, hreply⟩ := ht
  have hanswers := h.devices device
  rw [hd, Option.map_some] at hanswers
  obtain ⟨e, he, hed⟩ := Option.map_eq_some_iff.mp hanswers.symm
  exact ⟨e, he, (congrFun (congrArg Device.reply hed) filter).trans hreply⟩

/-- A device has one reply to a filter. -/
theorem Replies.unique {filter reply other : String} (h : Replies s device filter reply)
    (k : Replies s device filter other) : reply = other := by
  obtain ⟨d, hd, hreply⟩ := h
  obtain ⟨e, he, hother⟩ := k
  rw [hd] at he
  rw [← Option.some.inj he, hreply] at hother
  exact Option.some.inj hother

/-- A device that is asked for data answers, or its session breaks. -/
theorem exec_read (d : Device) (device filter : String) (s : State) :
    Act.exec (d.read device filter) s
      = (.ok (match d.readFault with | some text => .error text | none => .ok (d.reply filter)),
        { s with events := s.events ++ [.read device filter] }) := by
  rw [Device.read, exec_bind_ok (exec_send _ s)]
  cases d.readFault <;> rfl

/-- What a device answers to a filter if it can be read. -/
def Device.answer? (d : Device) (filter : String) : Option String :=
  match d.readFault with
  | some _ => none
  | none => d.reply filter

@[simp] theorem Device.answer?_answers (d : Device) (filter : String) :
    d.answers.answer? filter = d.answer? filter := rfl

/-- A device that can be read answers with its reply. -/
theorem Device.answer?_of_readFault_none {d : Device} (h : d.readFault = none) (filter : String) :
    d.answer? filter = d.reply filter := by
  rw [Device.answer?, h]

/-- What a device answers with is its reply. -/
theorem Device.reply_of_answer? {d : Device} {filter reply : String}
    (h : d.answer? filter = some reply) : d.reply filter = some reply := by
  cases hfault : d.readFault with
  | some text =>
    rw [Device.answer?, hfault] at h
    exact absurd h (by simp)
  | none => rwa [Device.answer?_of_readFault_none hfault] at h

/-- Whether a device acknowledges edits. -/
def Device.takes (d : Device) : Bool :=
  d.editFault.isNone && d.accepts

@[simp] theorem Device.takes_answers (d : Device) : d.answers.takes = d.takes := rfl

/-- A device that is asked to change its configuration says whether it did, or its session breaks.
-/
theorem exec_edit (d : Device) (device operation config : String) (s : State) :
    Act.exec (d.edit device operation config) s
      = (.ok (match d.editFault with | some text => .error text | none => .ok d.accepts),
        { s with events := s.events ++ [.edit device operation config] }) := by
  rw [Device.edit, exec_bind_ok (exec_send _ s)]
  cases d.editFault <;> rfl

end Lightpath.Site
