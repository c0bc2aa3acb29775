import Lightpath.CrossConnect.Order
import Lightpath.Proofs.CrossConnect.LiveRules
import Lightpath.Proofs.Xml.Reads

/-!
# Dropping a cross-connect

An order to drop is matched with the first live branch whose entry fits. The edit that takes it off,
though, is made from the entry alone: the channel is looked for again in the plan, and the side is
told from the input port. Main statement: which branch is matched, what the edit names, and exactly
when it names the channel and the side of that branch (`messages_drop_of_edit`).
-/

namespace Lightpath.CrossConnect

open Lightpath.Site Lightpath.Spectrum

/-! ## Withdrawals -/

/-- The edit that withdraws one side of one channel. -/
def Edit.withdrawal (channel : String) (side : Side) : Edit :=
  [(channel, [.withdraw side])]

namespace Reconciler

variable {r : Reconciler} {plan : List Channel} {rule : Rule} {channel : String}

/-- A rule without an owner is placed nowhere, -/
theorem placed_singleton_of_none (h : owner? plan rule.slot = none) : placed plan [rule] = [] := by
  rw [placed, owners, List.map_singleton, h]
  rfl

/-- and one with an owner in this channel. -/
theorem placed_singleton_of_some (h : owner? plan rule.slot = some channel) :
    placed plan [rule] = [(rule, channel)] := by
  rw [placed, owners, List.map_singleton, h]
  rfl

theorem editOf_withdrawal_singleton (r : Reconciler) (rule : Rule) (channel : String) :
    editOf r.withdrawal [(rule, channel)] = Edit.withdrawal channel (rule.side r.commonPort) := rfl

variable {device : String} {given : Option DeviceType} {type : DeviceType}

/-- Taking one rule off a device sends at most one edit, for the first channel of the plan that
holds its slot. -/
theorem exec_remove_singleton (ht : r.typeOf device given = .ok type) (hf : type.isFullBand = false)
    (rule : Rule) (s : State) :
    ∃ out t es fs, Act.exec (r.remove device [rule] given) s = (.ok out, t) ∧ Sends (es ++ fs) s t ∧
      r.OnlyReads device es ∧
      (fs = [] ∨ ∃ reply plan channel, Replies s device r.filter reply ∧ planOf reply = .ok plan ∧
        owner? plan rule.slot = some channel ∧
        fs = [.edit device "none"
          ((Edit.withdrawal channel (rule.side r.commonPort)).render r.dataSpace)]) := by
  rw [exec_remove ht hf]
  obtain ⟨out, t, es, fs, hrun, hst, hreads, hfs⟩ :=
    exec_reconcile (onlyLogs_tellWithdrawal r device) device "none" r.withdrawal [rule] s
  refine ⟨out, t, es, fs, hrun, hst, hreads, ?_⟩
  rcases hfs with hfs | ⟨reply, plan, hreply, hplan, hfs, hplaced⟩
  · exact Or.inl hfs
  · cases howner : owner? plan rule.slot with
    | none => exact absurd (placed_singleton_of_none howner) hplaced
    | some channel =>
      refine Or.inr ⟨reply, plan, channel, hreply, hplan, howner, ?_⟩
      rw [hfs, placed_singleton_of_some howner, editOf_withdrawal_singleton]

end Reconciler

/-! ## Orders -/

namespace Order

/-- An order for a slot is matched with a branch: its entry is the first one that fits. -/
def Matches (o : Order) (r : Reconciler) (plan : List Channel) (branches : List Branch) (b : Branch)
    (e : Entry) : Prop :=
  ∃ slot before after, o.slot = .ok slot ∧ branches = before ++ b :: after ∧
    r.entryOf? o.device plan b = .ok (some e) ∧ o.fits slot e.rule = true ∧
    ∀ b' ∈ before, ∀ e', r.entryOf? o.device plan b' = .ok (some e') → o.fits slot e'.rule = false

/-- An order to drop sends at most one edit, which withdraws what is looked up for the matched
entry. -/
theorem exec_drop {o : Order} {r : Reconciler} {type : DeviceType}
    (ht : r.typeOf o.device none = .ok type) (hf : type.isFullBand = false) (s : State) :
    ∃ out t es fs, Act.exec (o.drop r) s = (out, t) ∧ Sends (es ++ fs) s t ∧
      r.OnlyReads o.device es ∧
      (fs = [] ∨ ∃ reply plan branches b e channel, Replies s o.device r.filter reply ∧
        planOf reply = .ok plan ∧ branchesOf r.portFront reply = .ok branches ∧
        o.Matches r plan branches b e ∧ owner? plan e.rule.slot = some channel ∧
        fs = [.edit o.device "none"
          ((Edit.withdrawal channel (e.rule.side r.commonPort)).render r.dataSpace)]) := by
  rw [drop]
  cases hslot : o.slot with
  | error f =>
    exact ⟨_, s, [], [], exec_bind_error (exec_yield_error f s) _, Sends.refl s,
      by simp [Reconciler.OnlyReads], Or.inl rfl⟩
  | ok slot =>
    rw [exec_bind_ok (exec_yield_ok slot s)]
    obtain ⟨out, t, es, hquery, hst, hreads, hentries⟩ := Reconciler.exec_query ht hf s
    have hst' : Sends (es ++ []) s t := by rwa [List.append_nil]
    cases out with
    | error f => exact ⟨_, t, es, [], exec_bind_error hquery _, hst', hreads, Or.inl rfl⟩
    | ok listed =>
      rw [exec_bind_ok hquery]
      cases listed with
      | none => exact ⟨_, t, es, [], rfl, hst', hreads, Or.inl rfl⟩
      | some entries =>
        obtain ⟨reply, plan, branches, hreply, hplan, hbranches, hin⟩ := hentries entries rfl
        simp only
        cases hfound : entries.find? fun e => o.fits slot e.rule with
        | none => exact ⟨_, _, es, [], rfl, hst'.logs ⟨_, rfl⟩, hreads, Or.inl rfl⟩
        | some e =>
          obtain ⟨before, b, after, hsplit, hb, hfits, hbefore⟩ :=
            Reconciler.exists_branch_of_find? hin hfound
          -- nothing of the branch but its rule is handed on
          obtain ⟨taken, u, es', fs, hremove, htu, hreads', hfs⟩ :=
            Reconciler.exec_remove_singleton ht hf e.rule t
          have hsu : Sends ((es ++ es') ++ fs) s u := by
            rw [List.append_assoc]
            exact hst.trans htu
          have hedits : fs = [] ∨ ∃ reply plan branches b e channel, Replies s o.device r.filter reply ∧
              planOf reply = .ok plan ∧ branchesOf r.portFront reply = .ok branches ∧
              o.Matches r plan branches b e ∧ owner? plan e.rule.slot = some channel ∧
              fs = [.edit o.device "none"
                ((Edit.withdrawal channel (e.rule.side r.commonPort)).render r.dataSpace)] := by
            rcases hfs with hfs | ⟨reply', plan', channel, hreply', hplan', howner, hfs⟩
            · exact Or.inl hfs
            · -- the plan is read twice, but it is in the one reply that the device has
              obtain rfl := hreply.unique (hst.replies hreply')
              rw [hplan] at hplan'
              obtain rfl := Except.ok.inj hplan'
              exact Or.inr ⟨reply, plan, branches, b, e, channel, hreply, hplan, hbranches,
                ⟨slot, before, after, hslot, hsplit, hb, hfits, hbefore⟩, howner, hfs⟩
          simp only
          rw [exec_bind_ok hremove]
          have hall := Reconciler.onlyReads_append hreads hreads'
          rcases taken with _ | _ | ⟨taken, rest⟩
          · exact ⟨_, u, es ++ es', fs, rfl, hsu, hall, hedits⟩
          · exact ⟨_, u, es ++ es', fs, rfl, hsu, hall, hedits⟩
          · exact ⟨_, _, es ++ es', fs, rfl, hsu.logs ⟨_, rfl⟩, hall, hedits⟩

/-! ## Devices that keep their session -/

variable {o : Order} {r : Reconciler} {type : DeviceType} {reply : String} {plan : List Channel}
  {branches : List Branch}

section Serves

variable {d : Device} {entries : List Entry} {slot : Slot} {e : Entry} {s : State}
  (ht : r.typeOf o.device none = .ok type) (hf : type.isFullBand = false)
  (h : Serves s o.device d 3) (hfault : d.readFault = none) (hreply : d.reply r.filter = some reply)
  (hplan : planOf reply = .ok plan) (hbranches : branchesOf r.portFront reply = .ok branches)
  (hslot : o.slot = .ok slot) (hentries : r.entriesIn o.device plan branches = .ok entries)
  (hfound : entries.find? (fun e => o.fits slot e.rule) = some e)

include ht hf h hfault hreply hplan hbranches hslot hentries hfound

/-- Nothing is sent but questions when no channel holds the slot of the matched entry. -/
theorem exec_drop_of_owner_none (howner : owner? plan e.rule.slot = none) :
    ∃ t, Act.exec (o.drop r) s = (.ok none, t) ∧
      Sends [.read o.device r.filter, .read o.device r.filter] s t := by
  obtain ⟨t, hquery, hst, hserves⟩ :=
    Reconciler.exec_query_of_serves ht hf h hfault hreply hplan hbranches
  obtain ⟨u, hremove, htu, -⟩ := Reconciler.exec_reconcile_of_placed_nil (r := r)
    hfault hreply hplan (Reconciler.onlyLogs_tellWithdrawal r o.device) "none" r.withdrawal hserves
    (Reconciler.placed_singleton_of_none howner)
  rw [← Reconciler.exec_remove ht hf] at hremove
  refine ⟨u, ?_, hst.trans htu⟩
  rw [hentries] at hquery
  rw [drop, hslot, exec_bind_ok (exec_yield_ok slot s), exec_bind_ok hquery]
  simp only [hfound]
  rw [exec_bind_ok hremove]
  rfl

/-- The edit that is looked up for the matched entry is sent, and its rule is yielded if the device
takes the edit. -/
theorem exec_drop_of_owner {channel : String} (howner : owner? plan e.rule.slot = some channel) :
    ∃ t, Act.exec (o.drop r) s = (.ok (if d.takes then some e.rule else none), t) ∧
      Sends [.read o.device r.filter, .read o.device r.filter, .edit o.device "none"
        ((Edit.withdrawal channel (e.rule.side r.commonPort)).render r.dataSpace)] s t := by
  obtain ⟨t, hquery, hst, hserves⟩ :=
    Reconciler.exec_query_of_serves ht hf h hfault hreply hplan hbranches
  have hplaced := Reconciler.placed_singleton_of_some howner
  obtain ⟨u, hremove, htu, -⟩ := Reconciler.exec_reconcile_of_placed (r := r)
    hfault hreply hplan (Reconciler.onlyLogs_tellWithdrawal r o.device) "none" r.withdrawal hserves
    (by rw [hplaced]; exact List.cons_ne_nil _ _)
  rw [← Reconciler.exec_remove ht hf, hplaced] at hremove
  rw [hplaced, Reconciler.editOf_withdrawal_singleton] at htu
  rw [hentries] at hquery
  rw [drop, hslot, exec_bind_ok (exec_yield_ok slot s), exec_bind_ok hquery]
  simp only [hfound]
  rw [exec_bind_ok hremove]
  cases d.takes with
  | true => exact ⟨_, rfl, (hst.trans htu).logs ⟨_, rfl⟩⟩
  | false => exact ⟨_, rfl, hst.trans htu⟩

end Serves

/-! ## What an edit names -/

/-- **Whenever an order to drop sends an edit, there is one edit, for one side of one channel, and
it is for the side and the channel of the matched branch exactly when this channel is the first of
the plan that holds its own slot and the branch is no add branch with the common port as its leaf
port.** -/
theorem messages_drop_of_edit {s : State} (ht : r.typeOf o.device none = .ok type)
    (hf : type.isFullBand = false) (hreply : Replies s o.device r.filter reply)
    (hplan : planOf reply = .ok plan)
    (hbranches : branchesOf r.portFront reply = .ok branches) {device operation config : String}
    (hsent : .edit device operation config ∈ messages (o.drop r) s) :
    ∃ b e channel side reads, o.Matches r plan branches b e ∧
      messages (o.drop r) s = reads ++
        [.edit o.device "none" ((Edit.withdrawal channel side).render r.dataSpace)] ∧
      r.OnlyReads o.device reads ∧
      ((channel = b.channel ∧ side = b.side) ↔
        owner? plan e.rule.slot = some b.channel ∧
          ¬(b.side = .add ∧ b.leafPort = r.commonPort)) := by
  obtain ⟨out, t, es, fs, hrun, hst, hreads, hfs⟩ := exec_drop ht hf s
  have hmessages := hst.messages hrun
  rcases hfs with rfl | ⟨reply', plan', branches', b, e, channel, hreply', hplan', hbranches',
    hmatches, howner, rfl⟩
  · rw [hmessages, List.append_nil] at hsent
    exact absurd (hreads _ hsent) (by simp)
  · obtain rfl := hreply.unique hreply'
    rw [hplan] at hplan'
    obtain rfl := Except.ok.inj hplan'
    rw [hbranches] at hbranches'
    obtain rfl := Except.ok.inj hbranches'
    refine ⟨b, e, channel, e.rule.side r.commonPort, es, hmatches, hmessages, hreads, ?_⟩
    -- the side is told from the input port, so it is wrong for one kind of branch only
    obtain ⟨slot, before, after, -, -, hb, -, -⟩ := hmatches
    obtain ⟨c, slot', -, -, rfl⟩ := Reconciler.entryOf?_eq_some_iff.mp hb
    rw [howner, Option.some.injEq, Reconciler.side_liveRule_eq_iff]

end Order

/-! ## Channels that overlap -/

/-- A channel of a plan as a device writes it. -/
def channelMarkup (name low high : String) : List Char :=
  Xml.written "channel".toList [] (Xml.written "name".toList [] name.toList
    ++ (Xml.written "lower-frequency".toList [] low.toList
      ++ Xml.written "upper-frequency".toList [] high.toList))

/-- A live add branch of a channel as a device writes it. -/
def addMarkup (channel port : String) : List Char :=
  Xml.written "media-channels".toList [] (Xml.written "channel".toList [] channel.toList
    ++ Xml.written "add".toList [] (Xml.written "port".toList [] port.toList))

/-- The reply of a device with a plan and live branches. -/
def replyOf (channels media : List Char) : String :=
  String.ofList (Xml.written "data".toList []
    (Xml.written "channel-plan".toList [] channels ++ media))

/-- The reply of a device that declares a wide channel and, behind it, a narrow one in the middle of
it. Both have a live add branch. -/
def overlapReply : String :=
  replyOf (channelMarkup "wide" "193000000" "193200000"
    ++ channelMarkup "narrow" "193075000" "193125000")
    (addMarkup "wide" "2" ++ addMarkup "narrow" "1")

/-- The plan in this reply. -/
def overlapPlan : List Channel :=
  [⟨"wide", 193000000, 193200000⟩, ⟨"narrow", 193075000, 193125000⟩]

/-- The branches in this reply. -/
def overlapBranches : List Branch :=
  [⟨"wide", .add, 2, none⟩, ⟨"narrow", .add, 1, none⟩]

deriving instance DecidableEq for Branch

theorem planOf_overlapReply : planOf overlapReply = .ok overlapPlan := by
  refine Outcome.eq_ok_of_toOption ?_
  rw [planOf, document, Xml.parse?, overlapReply, replyOf, String.toList_ofList]
  decide +kernel

theorem branchesOf_overlapReply : branchesOf "E" overlapReply = .ok overlapBranches := by
  refine Outcome.eq_ok_of_toOption ?_
  rw [branchesOf, document, Xml.parse?, overlapReply, replyOf, String.toList_ofList]
  decide +kernel

/-- A reconciler for line degrees whose common port is 100. -/
def lineReconciler : Reconciler :=
  ⟨100, "E", "urn:roadm", some fun _ => .lineDegree⟩

/-- A device that gives one reply to whatever it is asked for and takes every edit. -/
def willing (reply : String) : Device :=
  ⟨fun _ => some reply, none, true, none, none⟩

/-- A site with one such device. -/
def lineSite (reply : String) : State :=
  .ofDevices [("r", willing reply)]

/-- An order to drop what leads from a port to the common one, at the anchor. -/
def lineOrder (input ghz : Int) : Order :=
  ⟨"r", .int input, .int 100, .int 193100000, .int ghz⟩

/-- The session of the line degree is always there. -/
theorem serves_lineSite (reply : String) (n : Nat) :
    Serves (lineSite reply) "r" (willing reply) n :=
  ⟨none, rfl, by simp⟩

/-- The entries of the branches of the two channels that overlap. -/
def overlapEntries : List Entry :=
  [⟨⟨"r", 2, 100, ⟨.flex, .ghz6p25, 0, 16⟩, none⟩, .added⟩,
    ⟨⟨"r", 1, 100, ⟨.flex, .ghz6p25, 0, 4⟩, none⟩, .added⟩]

theorem entriesIn_overlap :
    lineReconciler.entriesIn "r" overlapPlan overlapBranches = .ok overlapEntries := rfl

/-- What an order sends that is matched with one of these entries. -/
theorem messages_drop_overlap (input ghz : Int) (slot : Slot) (e : Entry) (channel : String)
    (hslot : (lineOrder input ghz).slot.toOption = some slot)
    (hfound : overlapEntries.find? (fun e => (lineOrder input ghz).fits slot e.rule) = some e)
    (howner : owner? overlapPlan e.rule.slot = some channel) :
    messages ((lineOrder input ghz).drop lineReconciler) (lineSite overlapReply)
      = [.read "r" lineReconciler.filter, .read "r" lineReconciler.filter,
        .edit "r" "none" ((Edit.withdrawal channel (e.rule.side 100)).render "urn:roadm")] := by
  obtain ⟨t, hrun, hsends⟩ := Order.exec_drop_of_owner (o := lineOrder input ghz)
    (r := lineReconciler)
    rfl rfl (serves_lineSite overlapReply 3) rfl rfl planOf_overlapReply branchesOf_overlapReply
    (Outcome.eq_ok_of_toOption hslot) entriesIn_overlap hfound howner
  exact hsends.messages hrun

/-- The add branch of the wide channel is dropped by an order for it. -/
theorem messages_drop_of_edit_wide :
    ∃ b e channel side reads,
      (lineOrder 2 200).Matches lineReconciler overlapPlan overlapBranches b e ∧
      messages ((lineOrder 2 200).drop lineReconciler) (lineSite overlapReply) = reads ++
        [.edit "r" "none" ((Edit.withdrawal channel side).render "urn:roadm")] ∧
      lineReconciler.OnlyReads "r" reads ∧
      ((channel = b.channel ∧ side = b.side) ↔
        owner? overlapPlan e.rule.slot = some b.channel ∧ ¬(b.side = .add ∧ b.leafPort = 100)) := by
  have hsent := messages_drop_overlap 2 200 ⟨.flex, .ghz6p25, 0, 16⟩
    ⟨⟨"r", 2, 100, ⟨.flex, .ghz6p25, 0, 16⟩, none⟩, .added⟩ "wide" (by decide +kernel) rfl
    (by decide +kernel)
  exact Order.messages_drop_of_edit (o := lineOrder 2 200) (r := lineReconciler) rfl rfl
    ⟨_, rfl, rfl⟩ planOf_overlapReply branchesOf_overlapReply
    (hsent ▸ List.mem_cons_of_mem _ (List.mem_cons_of_mem _ List.mem_cons_self))

/-- **An order for the narrow channel withdraws the add branch of the wide one**, which holds the
slot of the narrow channel too and comes first. -/
theorem messages_drop_narrow :
    (∃ e, (lineOrder 1 50).Matches lineReconciler overlapPlan overlapBranches
      ⟨"narrow", .add, 1, none⟩ e) ∧
      messages ((lineOrder 1 50).drop lineReconciler) (lineSite overlapReply)
        = [.read "r" lineReconciler.filter, .read "r" lineReconciler.filter,
          .edit "r" "none" ((Edit.withdrawal "wide" .add).render "urn:roadm")] ∧
      (Edit.withdrawal "wide" .add).render "urn:roadm"
        ≠ (Edit.withdrawal "narrow" .add).render "urn:roadm" := by
  have hslot : (lineOrder 1 50).slot.toOption = some ⟨.flex, .ghz6p25, 0, 4⟩ := by decide +kernel
  refine ⟨⟨⟨⟨"r", 1, 100, ⟨.flex, .ghz6p25, 0, 4⟩, none⟩, .added⟩, ⟨.flex, .ghz6p25, 0, 4⟩,
    [⟨"wide", .add, 2, none⟩], [], Outcome.eq_ok_of_toOption hslot, rfl, rfl, by decide +kernel,
    ?_⟩, ?_, ?_⟩
  · intro b' hb' e' he'
    obtain rfl := List.mem_singleton.mp hb'
    -- the entry of the wide channel has another width
    have hwide : lineReconciler.entryOf? "r" overlapPlan ⟨"wide", .add, 2, none⟩
        = .ok (some ⟨⟨"r", 2, 100, ⟨.flex, .ghz6p25, 0, 16⟩, none⟩, .added⟩) := rfl
    rw [← Option.some.inj (Except.ok.inj (hwide.symm.trans he'))]
    decide +kernel
  · exact messages_drop_overlap 1 50 _ ⟨⟨"r", 1, 100, ⟨.flex, .ghz6p25, 0, 4⟩, none⟩, .added⟩
      "wide" hslot
      rfl (by decide +kernel)
  · decide +kernel

end Lightpath.CrossConnect
