import Lightpath.Proofs.CrossConnect.Declared
import Lightpath.Proofs.CrossConnect.Drop
import Lightpath.Proofs.CrossConnect.EditMarkup
import Lightpath.Proofs.CrossConnect.Quantisation

/-!
# Dropping what is listed

On a tidy plan, whose channels are wide enough and overlap in an edge at most, an entry tells the
branch that it was read from. Main statement: an order that fits a listed entry withdraws the branch
of this entry or, if the slot has been cut so far off the middle that no channel holds it, nothing
at all; a channel on the grid is always withdrawn (`drop_of_listed`).
-/

namespace Lightpath.CrossConnect

open Lightpath.Site Lightpath.Spectrum

/-! ## Tidy plans -/

/-- The channels of a plan have names of their own, are as wide as the narrowest slot, and overlap
in an edge at most. -/
structure Tidy (plan : List Channel) : Prop where
  keysOnce : (plan.map Channel.key).Nodup
  wide : ∀ c ∈ plan, 12500 ≤ c.widthMHz
  apart : plan.Pairwise Channel.Apart

/-- The channels of a plan have at most one live branch on each side, and it leads to a port that is
not the common one. -/
structure TidyBranches (commonPort : Int) (plan : List Channel) (branches : List Branch) :
    Prop where
  once : ∀ c ∈ plan, ∀ side,
    (branches.filter fun b => b.channel = c.key ∧ b.side = side).length ≤ 1
  leaf : ∀ c ∈ plan, ∀ b ∈ branches, b.channel = c.key → b.leafPort ≠ commonPort

variable {plan : List Channel} {branches : List Branch}

/-- Two live branches on one side of a channel are one. -/
theorem TidyBranches.eq_of_side_eq {commonPort : Int} (h : TidyBranches commonPort plan branches)
    {c : Channel} (hc : c ∈ plan) {a b : Branch} (ha : a ∈ branches) (hb : b ∈ branches)
    (hac : a.channel = c.key) (hbc : b.channel = c.key) (hside : a.side = b.side) : a = b := by
  have hlength := h.once c hc b.side
  have hmema : a ∈ branches.filter fun d => d.channel = c.key ∧ d.side = b.side :=
    List.mem_filter.mpr ⟨ha, decide_eq_true ⟨hac, hside⟩⟩
  have hmemb : b ∈ branches.filter fun d => d.channel = c.key ∧ d.side = b.side :=
    List.mem_filter.mpr ⟨hb, decide_eq_true ⟨hbc, rfl⟩⟩
  match hfound : branches.filter fun d => d.channel = c.key ∧ d.side = b.side with
  | [] =>
    rw [hfound] at hmema
    exact absurd hmema List.not_mem_nil
  | [d] =>
    rw [hfound] at hmema hmemb
    rw [List.mem_singleton.mp hmema, List.mem_singleton.mp hmemb]
  | _ :: _ :: _ =>
    rw [hfound] at hlength
    exact absurd hlength (by simp)

/-- The first channel of a plan that holds a slot is in the plan. -/
theorem exists_channel_of_owner {slot : Slot} {key : String} (h : owner? plan slot = some key) :
    ∃ c ∈ plan, c.holds slot = true ∧ c.key = key := by
  rw [owner?, Option.map_eq_some_iff] at h
  obtain ⟨c, hc, hkey⟩ := h
  have hholds : c.holds slot = true := by simpa using List.find?_some hc
  exact ⟨c, List.mem_of_find?_eq_some hc, hholds, hkey⟩

/-- A slot that a channel holds has an owner. -/
theorem owner_ne_none {slot : Slot} {c : Channel} (hc : c ∈ plan) (h : c.holds slot = true) :
    owner? plan slot ≠ none := by
  intro hnone
  rw [owner?, Option.map_eq_none_iff, List.find?_eq_none] at hnone
  exact hnone c hc h

/-- The owner of the slot of a channel can only be this channel. -/
theorem Tidy.key_eq_of_owner (h : Tidy plan) {c : Channel} (hc : c ∈ plan) {slot : Slot}
    (hslot : c.slot = .ok slot) {key : String} (howner : owner? plan slot = some key) :
    key = c.key := by
  obtain ⟨held, hheld, hholds, rfl⟩ := exists_channel_of_owner howner
  have hfills := Channel.fills_of_slot (by have := h.wide c hc; omega) hslot
  rw [Channel.eq_of_fills_of_holds h.apart hc hheld (h.wide c hc) hfills hholds]

/-- Channels of one slot are one channel. -/
theorem Tidy.eq_of_slot_eq (h : Tidy plan) {a b : Channel} (ha : a ∈ plan) (hb : b ∈ plan)
    {slot : Slot} (haslot : a.slot = .ok slot) (hbslot : b.slot = .ok slot) : a = b := by
  have hawide := h.wide a ha
  have hbwide := h.wide b hb
  exact Channel.eq_of_fills h.apart ha hb hawide hbwide
    (Channel.fills_of_slot (by omega) haslot) (Channel.fills_of_slot (by omega) hbslot)

/-! ## Entries tell their branches -/

/-- A value equals one whole number only. -/
theorem equalsInt_unique {v : Json} {m n : Int} (hm : v.equalsInt m = true)
    (hn : v.equalsInt n = true) : m = n := by
  cases v with
  | int k => rw [← eq_of_beq hm, ← eq_of_beq hn]
  | bool b => rw [← eq_of_beq hm, ← eq_of_beq hn]
  | float x =>
    simp only [Json.equalsInt] at hm hn
    cases hx : Numeral.parts x with
    | finite negative mantissa exponent =>
      rw [hx] at hm hn
      rw [Bool.and_eq_true, beq_iff_eq] at hm hn
      rw [hm.2] at hn
      exact Option.some.inj hn.2
    | _ =>
      rw [hx] at hm
      exact absurd hm Bool.false_ne_true
  | _ => exact absurd hm (by simp [Json.equalsInt])

namespace Reconciler

variable {r : Reconciler}

/-- Live rules with the same ports are of the same side, as long as no leaf port is the common port.
-/
theorem side_eq_of_ports_eq {device device' : String} {slot slot' : Slot} {a b : Branch}
    (ha : a.leafPort ≠ r.commonPort)
    (hinput : (r.liveRule device slot a).input = (r.liveRule device' slot' b).input)
    (houtput : (r.liveRule device slot a).output = (r.liveRule device' slot' b).output) :
    a.side = b.side := by
  rw [liveRule, liveRule] at hinput houtput
  cases haside : a.side with
  | add =>
    cases hbside : b.side with
    | add => rfl
    | drop =>
      rw [haside, hbside] at hinput
      exact absurd hinput ha
  | drop =>
    cases hbside : b.side with
    | add =>
      rw [haside, hbside] at houtput
      exact absurd houtput ha
    | drop => rfl

/-- **An order fits the entries of one live branch only.** -/
theorem branch_eq_of_fits (hplan : Tidy plan) (hbranches : TidyBranches r.commonPort plan branches)
    {o : Order} {slot : Slot} {device : String} {a b : Branch} {e f : Entry} (ha : a ∈ branches)
    (hb : b ∈ branches) (hea : r.entryOf? device plan a = .ok (some e))
    (hfb : r.entryOf? device plan b = .ok (some f)) (hefits : o.fits slot e.rule = true)
    (hffits : o.fits slot f.rule = true) : a = b := by
  obtain ⟨c, s, hc, hs, rfl⟩ := entryOf?_eq_some_iff.mp hea
  obtain ⟨c', s', hc', hs', rfl⟩ := entryOf?_eq_some_iff.mp hfb
  obtain ⟨hcmem, hckey⟩ := (channelOf?_eq_some_iff hplan.keysOnce).mp hc
  obtain ⟨hcmem', hckey'⟩ := (channelOf?_eq_some_iff hplan.keysOnce).mp hc'
  rw [Order.fits, Bool.and_eq_true, Bool.and_eq_true, beq_iff_eq, liveRule_slot] at hefits hffits
  -- the frequencies tell the slot, and the slot tells the channel
  have hfills := Channel.fills_of_slot (by have := hplan.wide c hcmem; omega) hs
  have hfills' := Channel.fills_of_slot (by have := hplan.wide c' hcmem'; omega) hs'
  obtain rfl : s = s' := Slot.eq_of_toCentralAndWidth_eq (hfills.grid.trans hfills'.grid.symm)
    (hfills.spacing.trans hfills'.spacing.symm) (hefits.1.1.trans hffits.1.1.symm)
  obtain rfl := hplan.eq_of_slot_eq hcmem hcmem' hs hs'
  -- the ports tell the side
  have hside := side_eq_of_ports_eq (hbranches.leaf c hcmem a ha hckey.symm)
    (equalsInt_unique hefits.1.2 hffits.1.2) (equalsInt_unique hefits.2 hffits.2)
  exact hbranches.eq_of_side_eq hcmem ha hb hckey.symm hckey'.symm hside

/-- The first entry that an order fits is the only one. -/
theorem find?_eq_of_fits (hplan : Tidy plan) (hbranches : TidyBranches r.commonPort plan branches)
    {o : Order} {slot : Slot} {device : String} {entries : List Entry}
    (hin : r.entriesIn device plan branches = .ok entries) {e : Entry} (he : e ∈ entries)
    (hfits : o.fits slot e.rule = true) :
    entries.find? (fun e => o.fits slot e.rule) = some e := by
  have hsome : (entries.find? fun e => o.fits slot e.rule).isSome = true :=
    List.find?_isSome.mpr ⟨e, he, hfits⟩
  obtain ⟨e', he'⟩ := Option.isSome_iff_exists.mp hsome
  obtain ⟨b, hb, hentry⟩ := (mem_entriesIn hin).mp he
  obtain ⟨before, b', after, hsplit, hentry', hfits', -⟩ := exists_branch_of_find? hin he'
  have hb' : b' ∈ branches := by
    rw [hsplit]
    exact List.mem_append_right before List.mem_cons_self
  obtain rfl := branch_eq_of_fits hplan hbranches hb' hb hentry' hentry hfits' hfits
  rw [he', ← Option.some.inj (Except.ok.inj (hentry.symm.trans hentry'))]

end Reconciler

/-! ## The edit of a withdrawal -/

/-- A withdrawal reads as the removal of one side of one channel and as nothing else. -/
theorem Edit.inserts_withdrawal {space channel : String} (hspace : Xml.Declarable space)
    (side : Side) (hchannel : ∀ c ∈ channel.toList, Xml.isAllowed c = true ∧ c ≠ '\r') :
    Xml.Inserts ((Edit.withdrawal channel side).render space).toList
      [Edit.item space channel [.withdraw side]] := by
  have hkeys : OrderedMap.keys (Edit.withdrawal channel side) = [channel] := rfl
  have hsayable : (Edit.withdrawal channel side).Sayable := by
    refine ⟨List.cons_ne_nil _ _, fun k hk => ?_, fun k c hc => ?_⟩
    · rw [hkeys, List.mem_singleton] at hk
      rw [hk]
      exact hchannel
    · rw [Edit.changesOf, Edit.withdrawal, OrderedMap.get?] at hc
      split at hc
      · rw [Option.getD_some, List.mem_singleton] at hc
        rw [hc]
        exact trivial
      · exact absurd hc List.not_mem_nil
  have hitems : (Edit.withdrawal channel side).items space
      = [Edit.item space channel [.withdraw side]] := by
    rw [Edit.items, Edit.channels, hkeys, Text.sorted, List.mergeSort_singleton, List.map_singleton,
      Edit.changesOf, Edit.withdrawal, OrderedMap.get?, if_pos rfl, Option.getD_some]
  rw [← hitems]
  exact Edit.inserts_render hspace hsayable

/-! ## Orders -/

namespace Order

variable {o : Order} {r : Reconciler} {type : DeviceType} {d : Device} {reply : String}
  {entries : List Entry} {slot : Slot} {e : Entry} {s t : State}

/-- **An order for the ports and the frequencies of a listed entry withdraws the branch that the
entry was read from, or nothing.** There is one such branch. Either one edit is sent, which removes
the side of this branch from its channel and nothing else, and the rule of the entry is yielded if
the device takes it; or no edit is sent and nothing is yielded. The edit is always sent when the
channel is on the grid. -/
theorem drop_of_listed (ht : r.typeOf o.device none = .ok type) (hf : type.isFullBand = false)
    (h : Serves s o.device d 3) (hfault : d.readFault = none) (hreply : d.reply r.filter = some reply)
    (hplan : planOf reply = .ok plan) (hbranches : branchesOf r.portFront reply = .ok branches)
    (htidy : Tidy plan) (hkeys : ∀ c ∈ plan, '\r' ∉ c.key.toList)
    (htidyBranches : TidyBranches r.commonPort plan branches)
    (hquery : Act.exec (r.query o.device none) s = (.ok (some entries), t)) (he : e ∈ entries)
    (hslot : o.slot = .ok slot) (hfits : o.fits slot e.rule = true) :
    ∃ b ∈ branches, ∃ c ∈ plan, c.key = b.channel ∧
      (∀ b' ∈ branches, r.entryOf? o.device plan b' = .ok (some e) ↔ b' = b) ∧
      ((∃ config u, Act.exec (o.drop r) s = (.ok (if d.takes then some e.rule else none), u) ∧
          messages (o.drop r) s = [.read o.device r.filter, .read o.device r.filter,
            .edit o.device "none" config] ∧
          config = (Edit.withdrawal b.channel b.side).render r.dataSpace ∧
          (Xml.Declarable r.dataSpace →
            Xml.Inserts config.toList [Edit.item r.dataSpace b.channel [.withdraw b.side]])) ∨
        (¬c.OnGrid ∧ ∃ u, Act.exec (o.drop r) s = (.ok none, u) ∧
          messages (o.drop r) s = [.read o.device r.filter, .read o.device r.filter])) := by
  have hin := Reconciler.entriesIn_of_exec_query ht hf h hfault hreply hplan hbranches hquery
  obtain ⟨b, hb, hentry⟩ := (Reconciler.mem_entriesIn hin).mp he
  obtain ⟨c, own, hfound, hown, hrule⟩ := Reconciler.entryOf?_eq_some_iff.mp hentry
  obtain ⟨hc, hkey⟩ := (Reconciler.channelOf?_eq_some_iff htidy.keysOnce).mp hfound
  -- the order is matched with the entry itself, whose slot and side are those of the branch
  have hfirst := Reconciler.find?_eq_of_fits htidy htidyBranches hin he hfits
  have hslot' : e.rule.slot = own := by rw [hrule, Reconciler.liveRule_slot]
  have hside : e.rule.side r.commonPort = b.side := by
    rw [hrule, Reconciler.side_liveRule_eq_iff]
    exact fun hadd => htidyBranches.leaf c hc b hb hkey.symm hadd.2
  have hfills := Channel.fills_of_slot (by have := htidy.wide c hc; omega) hown
  refine ⟨b, hb, c, hc, hkey, fun b' hb' => ⟨fun hentry' => ?_, fun hbb' => by rw [hbb', hentry]⟩,
    ?_⟩
  · exact Reconciler.branch_eq_of_fits htidy htidyBranches hb' hb hentry' hentry hfits hfits
  · cases howner : owner? plan e.rule.slot with
    | none =>
      -- so much was cut off the channel that its own slot lies in no channel
      obtain ⟨u, hdrop, hsends⟩ :=
        exec_drop_of_owner_none ht hf h hfault hreply hplan hbranches hslot hin hfirst howner
      refine Or.inr ⟨fun hgrid => ?_, u, hdrop, hsends.messages hdrop⟩
      rw [hslot'] at howner
      exact owner_ne_none hc (Channel.holds_of_onGrid hgrid hfills) howner
    | some key =>
      -- what was cut off is too little to reach a neighbour
      obtain ⟨u, hdrop, hsends⟩ :=
        exec_drop_of_owner ht hf h hfault hreply hplan hbranches hslot hin hfirst howner
      rw [hslot'] at howner
      rw [htidy.key_eq_of_owner hc hown howner, hkey, hside] at hsends
      refine Or.inl ⟨_, u, hdrop, hsends.messages hdrop, rfl, fun hspace => ?_⟩
      refine Edit.inserts_withdrawal hspace b.side ?_
      rw [← hkey]
      exact fun x hx => ⟨(key_of_planOf hplan hc).1 x hx, fun hreturn => hkeys c hc (hreturn ▸ hx)⟩

end Order

/-! ## Channels that share an edge -/

/-- The reply of a device that declares two channels on the grid with an edge in common. Both have a
live add branch. -/
def edgeReply : String :=
  replyOf (channelMarkup "low" "193025000" "193075000"
    ++ channelMarkup "high" "193075000" "193125000")
    (addMarkup "low" "E4" ++ addMarkup "high" "E3")

/-- The plan in this reply. -/
def edgePlan : List Channel :=
  [⟨"low", 193025000, 193075000⟩, ⟨"high", 193075000, 193125000⟩]

/-- The branches in this reply. -/
def edgeBranches : List Branch :=
  [⟨"low", .add, 4, none⟩, ⟨"high", .add, 3, none⟩]

theorem planOf_edgeReply : planOf edgeReply = .ok edgePlan := by
  refine Outcome.eq_ok_of_toOption ?_
  rw [planOf, document, Xml.parse?, edgeReply, replyOf, String.toList_ofList]
  decide +kernel

theorem branchesOf_edgeReply : branchesOf "E" edgeReply = .ok edgeBranches := by
  refine Outcome.eq_ok_of_toOption ?_
  rw [branchesOf, document, Xml.parse?, edgeReply, replyOf, String.toList_ofList]
  decide +kernel

theorem tidy_edgePlan : Tidy edgePlan where
  keysOnce := by decide +kernel
  wide := by decide +kernel
  apart := by
    refine List.pairwise_pair.mpr (Or.inl ?_)
    decide +kernel

theorem tidyBranches_edgePlan : TidyBranches 100 edgePlan edgeBranches where
  once := by
    intro c hc side
    simp only [edgePlan, List.mem_cons, List.not_mem_nil, or_false] at hc
    rcases hc with rfl | rfl <;> cases side <;> decide +kernel
  leaf := by decide +kernel

/-- The entry of the upper channel. -/
def edgeEntry : Entry :=
  ⟨⟨"r", 3, 100, ⟨.flex, .ghz6p25, 0, 4⟩, none⟩, .added⟩

/-- The branch of the upper channel is dropped by an order for it. -/
theorem drop_of_listed_edge :
    ∃ config u,
      Act.exec ((lineOrder 3 50).drop lineReconciler) (lineSite edgeReply)
        = (.ok (some edgeEntry.rule), u) ∧
      messages ((lineOrder 3 50).drop lineReconciler) (lineSite edgeReply)
        = [.read "r" lineReconciler.filter, .read "r" lineReconciler.filter,
          .edit "r" "none" config] ∧
      Xml.Inserts config.toList [Edit.item "urn:roadm" "high" [.withdraw .add]] := by
  have hlisted : lineReconciler.entriesIn "r" edgePlan edgeBranches
      = .ok [⟨⟨"r", 4, 100, ⟨.flex, .ghz6p25, -8, 4⟩, none⟩, .added⟩, edgeEntry] := rfl
  obtain ⟨t, hquery, -, -⟩ := @Reconciler.exec_query_of_serves lineReconciler "r"
    (willing edgeReply)
    edgeReply 0 (lineSite edgeReply) none .lineDegree edgePlan edgeBranches rfl rfl
    (serves_lineSite edgeReply 1) rfl rfl planOf_edgeReply branchesOf_edgeReply
  rw [hlisted] at hquery
  have hslot : (lineOrder 3 50).slot.toOption = some ⟨.flex, .ghz6p25, 0, 4⟩ := by decide +kernel
  obtain ⟨b, hb, c, hc, hkey, honly, hdrop⟩ := Order.drop_of_listed (o := lineOrder 3 50)
    (r := lineReconciler) rfl rfl (serves_lineSite edgeReply 3) rfl rfl planOf_edgeReply
    branchesOf_edgeReply tidy_edgePlan (by decide +kernel) tidyBranches_edgePlan hquery
    (e := edgeEntry) (List.mem_cons_of_mem _ List.mem_cons_self) (Outcome.eq_ok_of_toOption hslot)
    (by decide +kernel)
  obtain rfl : (⟨"high", .add, 3, none⟩ : Branch) = b := (honly _ (by decide +kernel)).mp rfl
  have hspace : Xml.Declarable "urn:roadm" :=
    ⟨List.all_eq_true.mp (by decide +kernel), by decide +kernel, by decide +kernel,
      by decide +kernel⟩
  rcases hdrop with ⟨config, u, hrun, hmessages, -, hinserts⟩ | ⟨hgrid, -⟩
  · exact ⟨config, u, hrun, hmessages, hinserts hspace⟩
  · refine absurd ?_ hgrid
    simp only [edgePlan, List.mem_cons, List.not_mem_nil, or_false] at hc
    rcases hc with rfl | rfl
    · exact absurd hkey (by decide)
    · exact ⟨⟨0, by decide +kernel⟩, ⟨4, by decide +kernel⟩⟩

end Lightpath.CrossConnect
