import Lightpath.CrossConnect.Reconciler
import Lightpath.Proofs.Outcome
import Lightpath.Proofs.Site.Run

/-!
# Conversations with devices

What the reconciler says to a device that switches, and what it makes of the answers. The law of
each step tells apart whether the device has a session. From it follow one law for any site, which
bounds what is sent, and one for a device that keeps its session and can be read.
-/

namespace Lightpath.CrossConnect.Reconciler

open Lightpath.Site

variable {r : Reconciler} {device : String} {d : Device} {reply : String} {n : Nat} {s : State}

/-! ## Reading -/

/-- Some messages do nothing but ask a device for its plan and its media channels. -/
def OnlyReads (r : Reconciler) (device : String) (es : List Event) : Prop :=
  ∀ e ∈ es, e = .read device r.filter

/-- Readings one after the other are only readings. -/
theorem onlyReads_append {es fs : List Event} (h : r.OnlyReads device es)
    (k : r.OnlyReads device fs) :
    r.OnlyReads device (es ++ fs) := by
  intro e he
  rcases List.mem_append.mp he with he | he
  · exact h e he
  · exact k e he

/-- **A device without a session is not asked; another is asked once, and what it answers is
yielded.** -/
theorem exec_readReply_cases (r : Reconciler) (device : String) (s : State) :
    (∃ t, Act.exec (r.readReply device) s = (.ok none, t) ∧ Logs s t ∧ Lost s device) ∨
      ∃ d t, Act.exec (r.readReply device) s = (.ok (d.answer? r.filter), t) ∧
        Sends [.read device r.filter] s t ∧ Spends s t device d := by
  obtain ⟨hnone, hlost⟩ | ⟨d, t, hfound, hst, -, hspends⟩ := exec_session?_cases s device
  · exact Or.inl ⟨_, by rw [readReply, exec_bind_ok hnone]; rfl, ⟨_, rfl⟩, hlost⟩
  · refine Or.inr ⟨d, ?_⟩
    have hread := exec_read d device r.filter t
    have hsends := hst.trans (Sends.send t (.read device r.filter))
    rw [readReply, exec_bind_ok hfound, Device.answer?]
    cases hfault : d.readFault with
    | none =>
      rw [hfault] at hread
      exact ⟨_, exec_bind_ok hread _, hsends, hspends.of_devices_eq rfl⟩
    | some text =>
      rw [hfault] at hread
      exact ⟨_, exec_bind_ok hread _, hsends.logs ⟨_, rfl⟩, hspends.of_devices_eq rfl⟩

/-- Reading asks the device at most, and what it yields is a reply to the filter. -/
theorem exec_readReply (r : Reconciler) (device : String) (s : State) :
    ∃ out t es, Act.exec (r.readReply device) s = (.ok out, t) ∧ Sends es s t ∧
      r.OnlyReads device es ∧ ∀ reply, out = some reply → Replies s device r.filter reply := by
  obtain ⟨t, hread, hst, -⟩ | ⟨d, t, hread, hst, hspends⟩ := exec_readReply_cases r device s
  · exact ⟨none, t, [], hread, hst.sends, by simp [OnlyReads], by simp⟩
  · obtain ⟨u, hd, -⟩ := hspends.serves
    exact ⟨_, t, _, hread, hst, by simp [OnlyReads],
      fun reply hreply => ⟨_, hd, Device.reply_of_answer? hreply⟩⟩

/-- A device that can be read is read. -/
theorem exec_readReply_of_serves (h : Serves s device d (n + 1)) (hfault : d.readFault = none) :
    ∃ t, Act.exec (r.readReply device) s = (.ok (d.reply r.filter), t) ∧
      Sends [.read device r.filter] s t ∧ Serves t device d n := by
  obtain ⟨-, -, -, hlost⟩ | ⟨e, t, hread, hst, hspends⟩ := exec_readReply_cases r device s
  · exact absurd hlost h.not_lost
  · have hanswer : e.answer? r.filter = d.reply r.filter := by
      rw [← Device.answer?_answers, hspends.serves.answers_eq h, Device.answer?_answers,
        Device.answer?_of_readFault_none hfault]
    exact ⟨t, by rw [hread, hanswer], hst, (hspends.left d n).mpr h⟩

theorem onlyLogs_warnSkipped (reply : String) : OnlyLogs (warnSkipped reply) := by
  rw [warnSkipped]
  cases document reply with
  | error f => exact fun s => ⟨s, rfl, Logs.refl s⟩
  | ok root =>
    exact onlyLogs_forIn (fun name => onlyLogs_log _ _) _

/-- The plan of a device, if it can be read. -/
def planIn (r : Reconciler) (d : Device) : Option (List Channel) :=
  (d.answer? r.filter).bind fun reply => (planOf reply).toOption

/-- The plan in a device is that of its reply. -/
theorem planIn_eq_some_iff {plan : List Channel} :
    r.planIn d = some plan ↔ ∃ reply, d.answer? r.filter = some reply ∧ planOf reply = .ok plan := by
  have hok (o : Outcome (List Channel)) : o.toOption = some plan ↔ o = .ok plan := by
    cases o <;> simp [Except.toOption]
  rw [planIn, Option.bind_eq_some_iff]
  simp only [hok]

/-- The plan does not depend on the uses that are left. -/
theorem planIn_congr {e : Device} (h : d.answers = e.answers) : r.planIn d = r.planIn e := by
  rw [planIn, planIn, ← Device.answer?_answers, h, Device.answer?_answers]

/-- **The plan of a device is what its answer can be read as.** -/
theorem exec_readPlan_cases (r : Reconciler) (device : String) (s : State) :
    (∃ t, Act.exec (r.readPlan device) s = (.ok none, t) ∧ Logs s t ∧ Lost s device) ∨
      ∃ d t, Act.exec (r.readPlan device) s = (.ok (r.planIn d), t) ∧
        Sends [.read device r.filter] s t ∧ Spends s t device d := by
  obtain ⟨t, hread, hst, hlost⟩ | ⟨d, t, hread, hst, hspends⟩ := exec_readReply_cases r device s
  · exact Or.inl ⟨t, by rw [readPlan, exec_bind_ok hread]; rfl, hst, hlost⟩
  · refine Or.inr ⟨d, ?_⟩
    rw [readPlan, exec_bind_ok hread, planIn]
    cases d.answer? r.filter with
    | none => exact ⟨t, rfl, hst, hspends⟩
    | some reply =>
      obtain ⟨u, hwarn, htu⟩ := onlyLogs_warnSkipped reply t
      simp only [Option.bind_some]
      rw [exec_bind_ok hwarn]
      cases planOf reply with
      | ok plan => exact ⟨u, rfl, hst.logs htu, hspends.logs htu⟩
      | error f =>
        exact ⟨_, rfl, (hst.logs htu).logs ⟨_, rfl⟩, (hspends.logs htu).logs ⟨_, rfl⟩⟩

/-- The plan of a device that can be read is read. -/
theorem exec_readPlan_of_serves {plan : List Channel} (h : Serves s device d (n + 1))
    (hfault : d.readFault = none) (hreply : d.reply r.filter = some reply)
    (hplan : planOf reply = .ok plan) :
    ∃ t, Act.exec (r.readPlan device) s = (.ok (some plan), t) ∧
      Sends [.read device r.filter] s t ∧ Serves t device d n := by
  obtain ⟨-, -, -, hlost⟩ | ⟨e, t, hread, hst, hspends⟩ := exec_readPlan_cases r device s
  · exact absurd hlost h.not_lost
  · have hplanIn : r.planIn e = some plan := by
      rw [planIn_congr (hspends.serves.answers_eq h), planIn_eq_some_iff]
      exact ⟨reply, (Device.answer?_of_readFault_none hfault r.filter).trans hreply, hplan⟩
    exact ⟨t, by rw [hread, hplanIn], hst, (hspends.left d n).mpr h⟩

/-! ## Editing -/

/-- **A device without a session is sent no edit; another is sent it, and whether it takes it is
yielded.** -/
theorem exec_sendEdit_cases (r : Reconciler) (device operation : String) (e : Edit) (s : State) :
    (∃ t, Act.exec (r.sendEdit device operation e) s = (.ok false, t) ∧ Logs s t ∧
        Lost s device) ∨
      ∃ d t, Act.exec (r.sendEdit device operation e) s = (.ok d.takes, t) ∧
        Sends [.edit device operation (e.render r.dataSpace)] s t ∧ Spends s t device d := by
  obtain ⟨hnone, hlost⟩ | ⟨d, t, hfound, hst, -, hspends⟩ := exec_session?_cases s device
  · exact Or.inl ⟨_, by rw [sendEdit, exec_bind_ok hnone]; rfl, ⟨_, rfl⟩, hlost⟩
  · refine Or.inr ⟨d, ?_⟩
    have hedit := exec_edit d device operation (e.render r.dataSpace) t
    have hsends := hst.trans (Sends.send t (.edit device operation (e.render r.dataSpace)))
    rw [sendEdit, exec_bind_ok hfound, Device.takes]
    cases hfault : d.editFault with
    | some text =>
      rw [hfault] at hedit
      exact ⟨_, exec_bind_ok hedit _, hsends.logs ⟨_, rfl⟩, hspends.of_devices_eq rfl⟩
    | none =>
      rw [hfault] at hedit
      cases haccepts : d.accepts with
      | true =>
        rw [haccepts] at hedit
        exact ⟨_, exec_bind_ok hedit _, hsends, hspends.of_devices_eq rfl⟩
      | false =>
        rw [haccepts] at hedit
        exact ⟨_, exec_bind_ok hedit _, hsends.logs ⟨_, rfl⟩, hspends.of_devices_eq rfl⟩

/-- A device that keeps its session is sent the edit. -/
theorem exec_sendEdit_of_serves (operation : String) (e : Edit) (h : Serves s device d (n + 1)) :
    ∃ t, Act.exec (r.sendEdit device operation e) s = (.ok d.takes, t) ∧
      Sends [.edit device operation (e.render r.dataSpace)] s t ∧ Serves t device d n := by
  obtain ⟨-, -, -, hlost⟩ | ⟨d', t, hedit, hst, hspends⟩ :=
    exec_sendEdit_cases r device operation e s
  · exact absurd hlost h.not_lost
  · have htakes : d'.takes = d.takes := by
      rw [← Device.takes_answers, hspends.serves.answers_eq h, Device.takes_answers]
    exact ⟨t, by rw [hedit, htakes], hst, (hspends.left d n).mpr h⟩

/-! ## Reconciling -/

variable {tell : Rule × Option String → Act Unit}

/-- **How a change to some rules can go**: what is yielded in the end, and the messages that were
sent. The session may be gone between the question for the plan and the edit. -/
inductive Course (r : Reconciler) (device operation : String) (change : Rule → Change)
    (rules : List Rule) (s : State) : Option (List Rule) → List Event → Prop
  | lost (h : Lost s device) : Course r device operation change rules s none []
  | unread {d : Device} (h : Serves s device d 1) (hplan : r.planIn d = none) :
    Course r device operation change rules s none [.read device r.filter]
  | unplaced {d : Device} {plan : List Channel} (h : Serves s device d 1)
    (hplan : r.planIn d = some plan) (hplaced : placed plan rules = []) :
    Course r device operation change rules s (some []) [.read device r.filter]
  | broken {d : Device} {plan : List Channel} (h : Serves s device d 1)
    (hplan : r.planIn d = some plan) (hplaced : placed plan rules ≠ [])
    (hlost : ∀ e, ¬ Serves s device e 2) :
    Course r device operation change rules s none [.read device r.filter]
  | edited {d : Device} {plan : List Channel} (h : Serves s device d 2)
    (hplan : r.planIn d = some plan) (hplaced : placed plan rules ≠ []) :
    Course r device operation change rules s
      (if d.takes then some ((placed plan rules).map Prod.fst) else none)
      [.read device r.filter,
        .edit device operation ((editOf change (placed plan rules)).render r.dataSpace)]

/-- Each change to some rules takes its course, and fails at no site. -/
theorem exec_reconcile_course (htell : ∀ p, OnlyLogs (tell p)) (device operation : String)
    (change : Rule → Change) (rules : List Rule) (s : State) :
    ∃ out t es, Act.exec (r.reconcile device operation change tell rules) s = (.ok out, t) ∧
      Sends es s t ∧ r.Course device operation change rules s out es := by
  obtain ⟨t, hread, hst, hlost⟩ | ⟨d, t, hread, hst, hspends⟩ := exec_readPlan_cases r device s
  · exact ⟨none, t, [], by rw [reconcile, exec_bind_ok hread]; rfl, hst.sends, .lost hlost⟩
  rw [reconcile, exec_bind_ok hread]
  cases hplan : r.planIn d with
  | none => exact ⟨none, t, _, rfl, hst, .unread hspends.serves hplan⟩
  | some plan =>
    obtain ⟨u, htold, htu⟩ := onlyLogs_forM htell (owners plan rules) t
    have hspends := hspends.logs htu
    simp only
    rw [exec_bind_ok htold]
    cases hplaced : placed plan rules with
    | nil => exact ⟨some [], u, _, rfl, hst.logs htu, .unplaced hspends.serves hplan hplaced⟩
    | cons p found =>
      have hne : placed plan rules ≠ [] := hplaced ▸ List.cons_ne_nil p found
      have hcases := exec_sendEdit_cases r device operation (editOf change (placed plan rules)) u
      simp only [← hplaced]
      obtain ⟨v, hedit, huv, hlost⟩ | ⟨e, v, hedit, huv, hagain⟩ := hcases
      · have hgone : ∀ e, ¬ Serves s device e 2 := fun e he => hlost e ((hspends.left e 1).mpr he)
        exact ⟨none, v, _, by rw [exec_bind_ok hedit]; rfl, (hst.logs htu).logs huv,
          .broken hspends.serves hplan hne hgone⟩
      · -- the device that takes the edit is the one that was asked
        have htwice : Serves s device e 2 := (hspends.left e 1).mp hagain.serves
        have hsame : r.planIn e = some plan :=
          (planIn_congr (htwice.answers_eq hspends.serves)).trans hplan
        refine ⟨_, v, _, ?_, (hst.logs htu).trans huv, .edited htwice hsame hne⟩
        rw [exec_bind_ok hedit]
        cases e.takes <;> rfl

/-- At most one edit is sent, and it is the one for the rules that have a channel. -/
theorem exec_reconcile (htell : ∀ p, OnlyLogs (tell p)) (device operation : String)
    (change : Rule → Change) (rules : List Rule) (s : State) :
    ∃ out t es fs, Act.exec (r.reconcile device operation change tell rules) s = (.ok out, t) ∧
      Sends (es ++ fs) s t ∧ r.OnlyReads device es ∧
      (fs = [] ∨ ∃ reply plan, Replies s device r.filter reply ∧ planOf reply = .ok plan ∧
        fs = [.edit device operation ((editOf change (placed plan rules)).render r.dataSpace)] ∧
        placed plan rules ≠ []) := by
  obtain ⟨out, t, es, hrun, hst, hcourse⟩ :=
    exec_reconcile_course (r := r) htell device operation change rules s
  have hread : r.OnlyReads device [.read device r.filter] := by simp [OnlyReads]
  refine ⟨out, t, es.take 1, es.drop 1, hrun, by rwa [List.take_append_drop], ?_⟩
  cases hcourse with
  | lost => exact ⟨by simp [OnlyReads], Or.inl rfl⟩
  | unread => exact ⟨hread, Or.inl rfl⟩
  | unplaced => exact ⟨hread, Or.inl rfl⟩
  | broken => exact ⟨hread, Or.inl rfl⟩
  | @edited d plan h hplan hplaced =>
    obtain ⟨u, hd, -⟩ := h
    obtain ⟨reply, hreply, hplan⟩ := planIn_eq_some_iff.mp hplan
    exact ⟨hread, Or.inr ⟨reply, plan, ⟨_, hd, Device.reply_of_answer? hreply⟩, hplan, rfl, hplaced⟩⟩

section Serves

variable {plan : List Channel} (hfault : d.readFault = none) (hreply : d.reply r.filter = some reply)
  (hplan : planOf reply = .ok plan) (htell : ∀ p, OnlyLogs (tell p))

include hfault hreply hplan htell

/-- Nothing is sent but the question when no rule has a channel. -/
theorem exec_reconcile_of_placed_nil (operation : String) (change : Rule → Change)
    {rules : List Rule} (h : Serves s device d (n + 1)) (hplaced : placed plan rules = []) :
    ∃ t, Act.exec (r.reconcile device operation change tell rules) s = (.ok (some []), t) ∧
      Sends [.read device r.filter] s t ∧ Serves t device d n := by
  obtain ⟨t, hread, hst, ht⟩ := exec_readPlan_of_serves (r := r) h hfault hreply hplan
  obtain ⟨u, htold, htu⟩ := onlyLogs_forM htell (owners plan rules) t
  refine ⟨u, ?_, hst.logs htu, ht.logs htu⟩
  rw [reconcile, exec_bind_ok hread]
  simp only
  rw [exec_bind_ok htold, hplaced]
  rfl

/-- The edit for the rules that have a channel is sent, and they are yielded if the device takes it.
-/
theorem exec_reconcile_of_placed (operation : String) (change : Rule → Change) {rules : List Rule}
    (h : Serves s device d (n + 2))
    (hplaced : placed plan rules ≠ []) :
    ∃ t, Act.exec (r.reconcile device operation change tell rules) s
        = (.ok (if d.takes then some ((placed plan rules).map Prod.fst) else none), t) ∧
      Sends [.read device r.filter,
        .edit device operation ((editOf change (placed plan rules)).render r.dataSpace)] s t ∧
      Serves t device d n := by
  obtain ⟨t, hread, hst, ht⟩ := exec_readPlan_of_serves (r := r) h hfault hreply hplan
  obtain ⟨u, htold, htu⟩ := onlyLogs_forM htell (owners plan rules) t
  obtain ⟨v, hedit, huv, hv⟩ := exec_sendEdit_of_serves (r := r) operation
    (editOf change (placed plan rules)) (ht.logs htu)
  refine ⟨v, ?_, (hst.logs htu).trans huv, hv⟩
  rw [reconcile, exec_bind_ok hread]
  simp only
  rw [exec_bind_ok htold]
  cases hfound : placed plan rules with
  | nil => exact absurd hfound hplaced
  | cons p found =>
    rw [hfound] at hedit
    rw [exec_bind_ok hedit]
    cases d.takes <;> rfl

end Serves

theorem onlyLogs_tellCreation (r : Reconciler) (device : String) (p : Rule × Option String) :
    OnlyLogs (r.tellCreation device p) := by
  obtain ⟨rule, channel⟩ := p
  cases channel with
  | none => exact onlyLogs_log _ _
  | some channel => exact onlyLogs_log _ _

theorem onlyLogs_tellWithdrawal (r : Reconciler) (device : String) (p : Rule × Option String) :
    OnlyLogs (r.tellWithdrawal device p) := by
  obtain ⟨rule, channel⟩ := p
  cases channel with
  | none => exact onlyLogs_log _ _
  | some channel => exact onlyLogs_log _ _

variable {given : Option DeviceType} {type : DeviceType}

/-- Bringing rules onto a device that switches is reconciling them with it. -/
theorem exec_apply (ht : r.typeOf device given = .ok type) (hf : type.isFullBand = false)
    (rules : List Rule) (s : State) :
    Act.exec (r.apply device rules given) s
      = Act.exec (r.reconcile device "merge" (r.creation type) (r.tellCreation device) rules) s := by
  rw [apply, ht, exec_bind_ok (exec_yield_ok type s), if_neg (by rw [hf]; decide)]

/-- Taking rules off a device that switches is reconciling them with it. -/
theorem exec_remove (ht : r.typeOf device given = .ok type) (hf : type.isFullBand = false)
    (rules : List Rule) (s : State) :
    Act.exec (r.remove device rules given) s
      = Act.exec (r.reconcile device "none" r.withdrawal (r.tellWithdrawal device) rules) s := by
  rw [remove, ht, exec_bind_ok (exec_yield_ok type s), if_neg (by rw [hf]; decide)]

/-! ## Listing -/

/-- The entries of some live branches. -/
def entriesIn (r : Reconciler) (device : String) (plan : List Channel) :
    List Branch → Outcome (List Entry)
  | [] => .ok []
  | b :: bs => do
    let e ← r.entryOf? device plan b
    let es ← r.entriesIn device plan bs
    return e.toList ++ es

/-- Listing the branches warns of some of them and yields the entries of the others. -/
theorem exec_entriesOf (r : Reconciler) (device : String) (plan : List Channel) (bs : List Branch)
    (s : State) :
    ∃ t, Act.exec (r.entriesOf device plan bs) s = (r.entriesIn device plan bs, t) ∧ Logs s t := by
  induction bs generalizing s with
  | nil => exact ⟨s, rfl, Logs.refl s⟩
  | cons b bs ih =>
    rw [entriesOf, entriesIn]
    cases hb : r.entryOf? device plan b with
    | error f => exact ⟨s, exec_bind_error (exec_yield_error f s) _, Logs.refl s⟩
    | ok e =>
      rw [exec_bind_ok (exec_yield_ok e s)]
      cases e with
      | none =>
        obtain ⟨t, hwarn, hst⟩ := onlyLogs_log .warning
          (device ++ ": " ++ b.side.name ++ " MC " ++ b.channel ++ " is not in the channel plan") s
        obtain ⟨u, hrest, htu⟩ := ih t
        refine ⟨u, ?_, hst.trans htu⟩
        simp only
        rw [warn, exec_bind_ok hwarn, hrest]
        cases r.entriesIn device plan bs <;> rfl
      | some e =>
        obtain ⟨u, hrest, hsu⟩ := ih s
        refine ⟨u, ?_, hsu⟩
        simp only
        rw [exec_bind, hrest]
        cases r.entriesIn device plan bs <;> rfl

/-- The contents of a reply are its plan and its branches. -/
theorem contentsOf_eq {plan : List Channel} {branches : List Branch}
    (hplan : planOf reply = .ok plan) (hbranches : branchesOf r.portFront reply = .ok branches) :
    r.contentsOf reply = .ok (plan, branches) := by
  rw [contentsOf, hplan, hbranches]
  rfl

theorem of_contentsOf_eq {plan : List Channel} {branches : List Branch}
    (h : r.contentsOf reply = .ok (plan, branches)) :
    planOf reply = .ok plan ∧ branchesOf r.portFront reply = .ok branches := by
  rw [contentsOf] at h
  obtain ⟨plan', hplan, h⟩ := Outcome.bind_eq_ok_iff.mp h
  obtain ⟨branches', hbranches, h⟩ := Outcome.bind_eq_ok_iff.mp h
  obtain ⟨rfl, rfl⟩ := Prod.mk.inj (Except.ok.inj h)
  exact ⟨hplan, hbranches⟩

/-- A device that switches is asked for what it has, and nothing is listed that is not in its reply.
-/
theorem exec_query (ht : r.typeOf device given = .ok type) (hf : type.isFullBand = false)
    (s : State) :
    ∃ out t es, Act.exec (r.query device given) s = (out, t) ∧ Sends es s t ∧
      r.OnlyReads device es ∧
      ∀ entries, out = .ok (some entries) → ∃ reply plan branches, Replies s device r.filter reply ∧
        planOf reply = .ok plan ∧ branchesOf r.portFront reply = .ok branches ∧
        r.entriesIn device plan branches = .ok entries := by
  obtain ⟨out, t, es, hread, hst, hreads, hreplies⟩ := exec_readReply r device s
  rw [query, ht, exec_bind_ok (exec_yield_ok type s), if_neg (by rw [hf]; decide),
    exec_bind_ok hread]
  cases out with
  | none => exact ⟨_, t, es, rfl, hst, hreads, by simp⟩
  | some reply =>
    obtain ⟨u, hwarn, htu⟩ := onlyLogs_warnSkipped reply t
    simp only
    rw [exec_bind_ok hwarn]
    cases hcontents : r.contentsOf reply with
    | error f => exact ⟨_, _, es, rfl, (hst.logs htu).logs ⟨_, rfl⟩, hreads, by simp⟩
    | ok contents =>
      obtain ⟨plan, branches⟩ := contents
      obtain ⟨v, hentries, huv⟩ := exec_entriesOf r device plan branches u
      obtain ⟨hplan, hbranches⟩ := of_contentsOf_eq hcontents
      refine ⟨(r.entriesIn device plan branches).map some, v, es, ?_, (hst.logs htu).logs huv,
        hreads, ?_⟩
      · simp only
        rw [exec_bind, hentries]
        cases r.entriesIn device plan branches <;> rfl
      · intro entries hout
        obtain ⟨entries', hin, hsome⟩ := Outcome.map_eq_ok_iff.mp hout
        rw [Option.some.inj hsome] at hin
        exact ⟨reply, plan, branches, hreplies reply rfl, hplan, hbranches, hin⟩

/-- A device that can be read is asked once, and the entries of its branches are listed. -/
theorem exec_query_of_serves {plan : List Channel} {branches : List Branch}
    (ht : r.typeOf device given = .ok type) (hf : type.isFullBand = false)
    (h : Serves s device d (n + 1)) (hfault : d.readFault = none) (hreply : d.reply r.filter = some reply)
    (hplan : planOf reply = .ok plan) (hbranches : branchesOf r.portFront reply = .ok branches) :
    ∃ t, Act.exec (r.query device given) s = ((r.entriesIn device plan branches).map some, t) ∧
      Sends [.read device r.filter] s t ∧ Serves t device d n := by
  obtain ⟨t, hread, hst, ht'⟩ := exec_readReply_of_serves (r := r) h hfault
  obtain ⟨u, hwarn, htu⟩ := onlyLogs_warnSkipped reply t
  obtain ⟨v, hentries, huv⟩ := exec_entriesOf r device plan branches u
  refine ⟨v, ?_, (hst.logs htu).logs huv, (ht'.logs htu).logs huv⟩
  rw [hreply] at hread
  rw [query, ht, exec_bind_ok (exec_yield_ok type s), if_neg (by rw [hf]; decide),
    exec_bind_ok hread]
  simp only
  rw [exec_bind_ok hwarn, contentsOf_eq hplan hbranches]
  simp only
  rw [exec_bind, hentries]
  cases r.entriesIn device plan branches <;> rfl

/-- What such a device lists are the entries of its branches. -/
theorem entriesIn_of_exec_query {plan : List Channel} {branches : List Branch}
    (ht : r.typeOf device given = .ok type) (hf : type.isFullBand = false)
    (h : Serves s device d (n + 1)) (hfault : d.readFault = none) (hreply : d.reply r.filter = some reply)
    (hplan : planOf reply = .ok plan) (hbranches : branchesOf r.portFront reply = .ok branches)
    {entries : List Entry} {t : State}
    (hquery : Act.exec (r.query device given) s = (.ok (some entries), t)) :
    r.entriesIn device plan branches = .ok entries := by
  obtain ⟨u, hlisted, -, -⟩ := exec_query_of_serves ht hf h hfault hreply hplan hbranches
  obtain ⟨listed, hin, hsome⟩ :=
    Outcome.map_eq_ok_iff.mp (congrArg Prod.fst (hlisted.symm.trans hquery))
  rw [hin, Option.some.inj hsome]

end Lightpath.CrossConnect.Reconciler
