import Lightpath.Proofs.CrossConnect.BranchReading
import Lightpath.Proofs.CrossConnect.DropListed
import Lightpath.Proofs.CrossConnect.Placement

/-!
# What is applied is listed

When the media channels that are sent for some rules come to stand in the reply of a device, the
listing of this device tells these rules and no others: the adds and behind them the drops, in
ascending order of their channels. Main statement: `query_of_applied`.
-/

namespace Lightpath.CrossConnect

open Lightpath.Site Lightpath.Spectrum Lightpath.Xml

/-! ## Replies around an edit -/

/-- A reply with a place for media channels: there are none around the place, no plan is around it
either, and without anything there the reply has a plan and no media channels. -/
structure Surrounds (plan : List Channel) (before after : String) : Prop where
  room : Room (fun n => n.localPart ≠ "channel-plan" ∧ n.localPart ≠ "media-channels") before.toList
  plan : planOf (before ++ after) = .ok plan
  media : ∀ root, parse? (before ++ after) = some root → root.allNamed "media-channels" = []

/-- The names of what stands inside an item. -/
def innerNames : List String :=
  ["channel", "add", "drop", "port", "power"]

theorem ne_of_notMem_innerNames {m n : String} (hn : n ∉ innerNames) (hm : m ∈ innerNames) :
    m ≠ n :=
  fun h => hn (h ▸ hm)

/-- A side is among the names inside an item. -/
theorem side_name_mem (side : Side) : side.name ∈ innerNames := by
  cases side <;> decide

/-- An element with nothing but its text inside has elements of no other name. -/
theorem allNamed_leaf {name : Name} {n : String} (h : name.localPart ≠ n)
    (attributes : List (Name × String)) (text : String) :
    Element.allNamed ⟨name, attributes, text, []⟩ n = [] := by
  rw [Element.allNamed_of_not_isNamed (beq_eq_false_iff_ne.mpr h)]
  rfl

/-- A change has no elements of other names. -/
theorem allNamed_change (space : String) (c : Change) {n : String} (hn : n ∉ innerNames) :
    (c.element space).allNamed n = [] := by
  have hside (side : Side) : side.name ≠ n := ne_of_notMem_innerNames hn (side_name_mem side)
  have hport : (dataName space "port").localPart ≠ n :=
    ne_of_notMem_innerNames hn (m := "port") (by decide)
  have hpower : (dataName space "power").localPart ≠ n :=
    ne_of_notMem_innerNames hn (m := "power") (by decide)
  cases c with
  | create side port power =>
    rw [Change.element, Element.allNamed_of_not_isNamed (beq_eq_false_iff_ne.mpr (hside side)),
      List.flatMap_cons, List.flatMap_cons, List.flatMap_nil, allNamed_leaf hport,
      allNamed_leaf hpower]
    rfl
  | withdraw side =>
    rw [Change.element, allNamed_leaf (hside side)]

/-- Of the names that nothing inside an item has, an item has its own. -/
theorem allNamed_item (space channel : String) (changes : List Change) {n : String}
    (hn : n ∉ innerNames) :
    (Edit.item space channel changes).allNamed n
      = if "media-channels" = n then [Edit.item space channel changes] else [] := by
  have hchannel : (dataName space "channel").localPart ≠ n :=
    ne_of_notMem_innerNames hn (m := "channel") (by decide)
  have hchildren : (Edit.item space channel changes).children.flatMap (·.allNamed n) = [] := by
    show (channelChild space channel :: changes.map (Change.element space)).flatMap (·.allNamed n)
      = []
    rw [List.flatMap_cons, channelChild, allNamed_leaf hchannel, List.nil_append,
      List.flatMap_eq_nil_iff]
    intro e he
    obtain ⟨c, -, rfl⟩ := List.mem_map.mp he
    exact allNamed_change space c hn
  have hnamed : (Edit.item space channel changes).isNamed n = ("media-channels" == n) := rfl
  rw [Element.allNamed_eq, hchildren, List.append_nil, hnamed]
  by_cases h : "media-channels" = n
  · rw [if_pos h, if_pos (beq_iff_eq.mpr h)]
  · rw [if_neg h, if_neg fun hbeq => h (beq_iff_eq.mp hbeq)]

/-- The items of an edit are its media channels, -/
theorem allNamed_items_media (space : String) (e : Edit) :
    (e.items space).flatMap (·.allNamed "media-channels") = e.items space := by
  rw [Edit.items, List.flatMap_map, List.map_eq_flatMap]
  refine List.flatMap_congr fun channel _ => ?_
  rw [allNamed_item space channel _ (by decide), if_pos rfl]

/-- and they hold no channel plan. -/
theorem allNamed_items_plan (space : String) (e : Edit) :
    (e.items space).flatMap (·.allNamed "channel-plan") = [] := by
  rw [Edit.items, List.flatMap_map, List.flatMap_eq_nil_iff]
  intro channel _
  rw [allNamed_item space channel _ (by decide), if_neg (by decide)]

/-- **An edit in its place is what is read as the media channels**, and the plan is the one around
it. -/
theorem contents_of_surrounds {plan : List Channel} {before config after space : String} {e : Edit}
    (h : Surrounds plan before after) (he : Inserts config.toList (e.items space))
    (front : String) :
    planOf (before ++ config ++ after) = .ok plan ∧
      branchesOf front (before ++ config ++ after) = do
        let adds ← Branch.onSide front .add (e.items space)
        let drops ← Branch.onSide front .drop (e.items space)
        return adds ++ drops := by
  obtain ⟨root, hroot, hplan⟩ := exists_document_of_planOf h.plan
  have hchars : parseChars (before.toList ++ after.toList) = some root := by
    rw [← String.toList_append]
    exact hroot
  obtain ⟨root', hroot', hgrows⟩ := parseChars_insert h.room hchars he
  have hparse : parse? (before ++ config ++ after) = some root' := by
    rw [parse?, String.toList_append, String.toList_append]
    exact hroot'
  -- no media channels were there before, and none of the items has a plan
  obtain ⟨pre, post, hpre, hpost⟩ := hgrows.allNamed fun name hname => hname.2
  rw [h.media root hroot] at hpre
  obtain ⟨rfl, rfl⟩ := List.append_eq_nil_iff.mp hpre.symm
  rw [allNamed_items_media, List.nil_append, List.append_nil] at hpost
  obtain ⟨pre', post', hpre', hpost'⟩ := hgrows.allNamed fun name hname => hname.1
  rw [allNamed_items_plan, List.append_nil, ← hpre'] at hpost'
  constructor
  · rw [planOf_of_document hparse, ← hplan, Declaration.all, Declaration.all, hpost']
  · rw [branchesOf, document, hparse]
    show Branch.all front root' = _
    rw [Branch.all, hpost]

/-! ## What is sent -/

namespace Reconciler

variable {r : Reconciler} {device : String} {given : Option DeviceType} {type : DeviceType}

/-- What is sent to bring rules onto a device is the edit that creates those that have a channel. -/
theorem edit_of_mem_messages_apply (ht : r.typeOf device given = .ok type)
    (hf : type.isFullBand = false)
    {s : Site.State} {reply : String} {plan : List Channel} (hreply : Replies s device r.filter reply)
    (hplan : planOf reply = .ok plan) {rules : List Rule} {sent operation config : String}
    (hsent : .edit sent operation config ∈ messages (r.apply device rules given) s) :
    sent = device ∧ operation = "merge" ∧ matched plan rules ≠ [] ∧
      config = (editOf (r.creation type) ((matched plan rules).map fun p => (p.1, p.2.key))).render
        r.dataSpace := by
  obtain ⟨out, t, es, fs, hrun, hst, hreads, hfs⟩ :=
    exec_reconcile (onlyLogs_tellCreation r device) device "merge" (r.creation type) rules s
  rw [← exec_apply ht hf] at hrun
  rw [hst.messages hrun, List.mem_append] at hsent
  rcases hsent with hsent | hsent
  · exact absurd (hreads _ hsent) (by simp)
  · rcases hfs with rfl | ⟨reply', plan', hreply', hplan', rfl, hplaced⟩
    · exact absurd hsent List.not_mem_nil
    · obtain rfl := hreply.unique hreply'
      rw [hplan] at hplan'
      obtain rfl := Except.ok.inj hplan'
      obtain ⟨rfl, rfl, rfl⟩ := Event.edit.inj (List.mem_singleton.mp hsent)
      rw [placed_eq] at hplaced ⊢
      exact ⟨rfl, rfl, fun hnil => hplaced (by rw [hnil]; rfl), rfl⟩

/-- The edit for matched rules can be read wherever its changes and the keys of its channels can be
written. -/
theorem sayable_editOf {change : Rule → Change} {found : List (Rule × Channel)}
    (hchange : ∀ p ∈ found, (change p.1).Verbatim) (hne : found ≠ [])
    (hkeys : ∀ p ∈ found, ∀ c ∈ p.2.key.toList, isAllowed c = true ∧ c ≠ '\r') :
    (editOf change (found.map fun p => (p.1, p.2.key))).Sayable where
  nonempty := by
    obtain ⟨p, rest, rfl⟩ := List.exists_cons_of_ne_nil hne
    have hmem : p.2.key ∈ OrderedMap.keys
        (editOf change ((p :: rest).map fun p => (p.1, p.2.key))) :=
      (mem_keys_editOf _).mpr ⟨p, List.mem_cons_self, rfl⟩
    intro hnil
    rw [hnil] at hmem
    exact absurd hmem List.not_mem_nil
  channel := by
    intro channel hchannel
    obtain ⟨p, hp, rfl⟩ := (mem_keys_editOf _).mp hchannel
    exact hkeys p hp
  change := by
    intro channel c hc
    rw [changesOf_editOf] at hc
    obtain ⟨p, hp, rfl⟩ := List.mem_map.mp hc
    exact hchange p (List.mem_filter.mp hp).1

/-- What is created is written without escapes. -/
theorem verbatim_creation (hfront : ∀ c ∈ r.portFront.toList, isFrontChar c = true)
    (type : DeviceType) (rule : Rule) : (r.creation type rule).Verbatim :=
  ⟨(token_portText hfront _).verbatim, (token_floatText_targetPower type _).verbatim⟩

/-- The edit that creates rules can be read wherever the keys of their channels can be written. -/
theorem sayable_creations (hfront : ∀ c ∈ r.portFront.toList, isFrontChar c = true)
    (type : DeviceType) {found : List (Rule × Channel)} (hne : found ≠ [])
    (hkeys : ∀ p ∈ found, ∀ c ∈ p.2.key.toList, isAllowed c = true ∧ c ≠ '\r') :
    (editOf (r.creation type) (found.map fun p => (p.1, p.2.key))).Sayable :=
  sayable_editOf (fun p _ => verbatim_creation hfront type p.1) hne hkeys

/-! ## What is listed -/

/-- An entry tells of a matched rule: it is on the device, between the ports of the rule, with the
slot of the channel and the power that the type has for this direction. -/
structure Tells (r : Reconciler) (device : String) (type : DeviceType) (p : Rule × Channel)
    (e : Entry) : Prop where
  state : e.state = .added
  device : e.rule.device = device
  input : e.rule.input = p.1.input
  output : e.rule.output = p.1.output
  slot : p.2.slot = .ok e.rule.slot
  power : e.rule.power = some (type.targetPower (p.1.output = r.commonPort))

/-- A channel that holds a slot has a slot of its own. -/
theorem exists_slot_of_holds {c : Channel} {s : Slot} (h : c.holds s = true) :
    ∃ own, c.slot = .ok own := by
  refine Channel.exists_slot ?_
  rw [Channel.holds, decide_eq_true_iff] at h
  have hedges : s.toBounds.1 ≤ s.toBounds.2 := by
    simp only [Slot.toBounds, Slot.toBoundsIn, Slot.widthHz, widthUnitHz, Int.fdiv_eq_ediv]
    omega
  rw [Channel.widthMHz]
  omega

/-- **A rule is read back with its own ports exactly when one of them is the common one**: the port
that is not written is taken for it. -/
theorem ports_branchFor_iff {rule : Rule} {key : String} {own : Slot} :
    (r.liveRule device own (r.branchFor type rule key)).input = rule.input ∧
        (r.liveRule device own (r.branchFor type rule key)).output = rule.output ↔
      rule.input = r.commonPort ∨ rule.output = r.commonPort := by
  rw [liveRule, branchFor, Rule.side, Rule.leafPort]
  by_cases hinput : rule.input = r.commonPort
  · simp [hinput]
  · simp [hinput, eq_comm]

variable {plan : List Channel} {p : Rule × Channel}

/-- The branch of a matched rule is listed as an entry that tells of it. -/
theorem exists_entry_of_branchFor (hkeys : (plan.map Channel.key).Nodup) (hc : p.2 ∈ plan)
    (hholds : p.2.holds p.1.slot = true)
    (hport : p.1.input = r.commonPort ∨ p.1.output = r.commonPort)
    (type : DeviceType) (device : String) :
    ∃ e, r.entryOf? device plan (r.branchFor type p.1 p.2.key) = .ok (some e) ∧
      r.Tells device type p e := by
  obtain ⟨own, hown⟩ := exists_slot_of_holds hholds
  have hfound : channelOf? plan (r.branchFor type p.1 p.2.key).channel = some p.2 :=
    (channelOf?_eq_some_iff hkeys).mpr ⟨hc, rfl⟩
  refine ⟨_, entryOf?_eq_some_iff.mpr ⟨p.2, own, hfound, hown, rfl⟩, ?_⟩
  have hports := (@ports_branchFor_iff r device type p.1 p.2.key own).mpr hport
  exact ⟨rfl, liveRule_device, hports.1, hports.2, by rw [liveRule_slot]; exact hown,
    liveRule_power⟩

/-- Branches whose entries tell of some rules are listed as entries that tell of them in this order.
-/
theorem exists_entriesIn {branch : Rule × Channel → Branch} {found : List (Rule × Channel)}
    {type : DeviceType} {device : String}
    (h : ∀ p ∈ found, ∃ e, r.entryOf? device plan (branch p) = .ok (some e) ∧
      r.Tells device type p e) :
    ∃ es, r.entriesIn device plan (found.map branch) = .ok es ∧
      List.Forall₂ (r.Tells device type) found es := by
  induction found with
  | nil => exact ⟨[], rfl, .nil⟩
  | cons p found ih =>
    obtain ⟨e, he, htells⟩ := h p List.mem_cons_self
    obtain ⟨es, hes, hall⟩ := ih fun q hq => h q (List.mem_cons_of_mem p hq)
    exact ⟨e :: es, entriesIn_cons_eq_ok_iff.mpr ⟨some e, es, he, hes, rfl⟩, .cons htells hall⟩

/-- Of the items of created rules the branches of these rules are read, once through the channels
for each side. -/
theorem branchesOf_items (hfront : ∀ c ∈ r.portFront.toList, isFrontChar c = true) (space : String)
    {found : List (Rule × Channel)} {e : Edit} (type : DeviceType)
    (he : e = editOf (r.creation type) (found.map fun p => (p.1, p.2.key)))
    (hkeys : ∀ p ∈ found, p.2.key ≠ "" ∧ Text.trimmed p.2.key = p.2.key)
    (hports : ∀ p ∈ found, Numeral.Writable (p.1.leafPort r.commonPort)) (side : Side) :
    Branch.onSide r.portFront side (e.items space)
      = .ok ((r.listed found side e.channels).map fun p => r.branchFor type p.1 p.2.key) := by
  have hside := @onSide_items r type hfront space side e.channels e.changesOf
    (fun key => (r.ofSide? found side key).map Prod.fst)
    (fun key hkey => by
      rw [he, Edit.mem_channels, mem_keys_editOf] at hkey
      obtain ⟨p, hp, rfl⟩ := hkey
      exact hkeys p hp)
    (fun key _ => by rw [he, find?_changesOf_editOf])
    (fun key _ rule hrule => by
      obtain ⟨p, hp, rfl⟩ := Option.map_eq_some_iff.mp hrule
      exact hports p (of_ofSide? hp).1)
  rw [Edit.items, hside, listed, List.map_filterMap]
  congr 2
  funext key
  cases h : r.ofSide? found side key with
  | none => rfl
  | some p =>
    rw [Option.map_some, Option.map_some, Option.map_some, (of_ofSide? h).2.1]

variable {s t : Site.State} {d : Device} {reply before after sent operation config queried : String}
  {rules : List Rule} {given' : Option DeviceType} {type' : DeviceType}

/-- **What is applied is listed.** Let rules be applied to a device whose plan has keys of its own
for its channels, such that the rules with a channel have the common port on one end, a port that
is not too long to be read on the other, and no two of them are for the same side of the same
channel. If the text of the edit that is sent comes to stand in a reply with the same plan and with
no other media channels, the listing of this reply has one entry for each of these rules and no
others: those that add and behind them those that drop, in ascending order of their channels. -/
theorem query_of_applied (ht : r.typeOf device given = .ok type) (hf : type.isFullBand = false)
    (hfront : ∀ c ∈ r.portFront.toList, isFrontChar c = true) (hspace : Declarable r.dataSpace)
    (hreply : Replies s device r.filter reply) (hplan : planOf reply = .ok plan)
    (honce : (plan.map Channel.key).Nodup) (hkeys : ∀ c ∈ plan, c.key ≠ "" ∧ '\r' ∉ c.key.toList)
    (hports : ∀ p ∈ matched plan rules, (p.1.input = r.commonPort ∨ p.1.output = r.commonPort) ∧
      Numeral.Writable (p.1.leafPort r.commonPort))
    (hsides : ((matched plan rules).map fun p => (p.2.key, p.1.side r.commonPort)).Nodup)
    (hsent : .edit sent operation config ∈ messages (r.apply device rules given) s)
    (haround : Surrounds plan before after) (ht' : r.typeOf queried given' = .ok type')
    (hf' : type'.isFullBand = false) (hserves : Serves t queried d 1) (hfault : d.readFault = none)
    (hlater : d.reply r.filter = some (before ++ config ++ after)) :
    ∃ adds drops entries u, Act.exec (r.query queried given') t = (.ok (some entries), u) ∧
      List.Forall₂ (r.Tells queried type) (adds ++ drops) entries ∧
      (adds ++ drops).Perm (matched plan rules) ∧
      (∀ p ∈ adds, p.1.side r.commonPort = .add) ∧ (∀ p ∈ drops, p.1.side r.commonPort = .drop) ∧
      (adds.map fun p => p.2.key).Pairwise (· < ·) ∧
      (drops.map fun p => p.2.key).Pairwise (· < ·) := by
  obtain ⟨rfl, rfl, hne, hconfig⟩ := edit_of_mem_messages_apply ht hf hreply hplan hsent
  obtain ⟨e, he⟩ :
      ∃ e, e = editOf (r.creation type) ((matched plan rules).map fun p => (p.1, p.2.key)) :=
    ⟨_, rfl⟩
  rw [← he] at hconfig
  have hchannel : ∀ p ∈ matched plan rules, p.2 ∈ plan := fun p hp => channel_mem_of_matched hp
  have hsayable : e.Sayable := by
    rw [he]
    refine sayable_creations hfront type hne fun p hp c hc =>
      ⟨(key_of_planOf hplan (hchannel p hp)).1 c hc, ?_⟩
    exact fun hreturn => (hkeys p.2 (hchannel p hp)).2 (hreturn ▸ hc)
  -- the later reply has the plan and the items of the edit
  have hinserts : Inserts config.toList (e.items r.dataSpace) := by
    rw [hconfig]
    exact Edit.inserts_render hspace hsayable
  obtain ⟨hplan', hbranches⟩ := contents_of_surrounds haround hinserts r.portFront
  have hread (side : Side) := branchesOf_items hfront r.dataSpace type he
    (fun p hp => ⟨(hkeys p.2 (hchannel p hp)).1, (key_of_planOf hplan (hchannel p hp)).2⟩)
    (fun p hp => (hports p hp).2) side
  rw [hread .add, hread .drop] at hbranches
  -- each channel is gone through once for each side
  have hascend : e.channels.Pairwise (· < ·) := by
    rw [he]
    exact Edit.pairwise_sorted (Edit.keys_ofChanges_nodup _)
  have hall : ∀ p ∈ matched plan rules, p.2.key ∈ e.channels := by
    intro p hp
    rw [he]
    exact Edit.mem_channels.mpr ((mem_keys_editOf _).mpr ⟨p, hp, rfl⟩)
  have hperm := perm_listed hsides hall hascend
  -- keys are distinct, so the channel that a branch names is the one its rule was matched with
  obtain ⟨entries, hentries, htells⟩ := exists_entriesIn fun p hp => by
    have hp := hperm.mem_iff.mp hp
    have hholds := List.find?_some (mem_matched.mp hp).2
    exact exists_entry_of_branchFor honce (hchannel p hp) hholds (hports p hp).1 type queried
  obtain ⟨u, hquery, -, -⟩ := exec_query_of_serves ht' hf' hserves hfault hlater hplan' hbranches
  rw [← List.map_append, hentries] at hquery
  have hside (side : Side) : ∀ p ∈ r.listed (matched plan rules) side e.channels,
      p.1.side r.commonPort = side := fun p hp => ((mem_listed hsides hall).mp hp).2
  exact ⟨_, _, entries, u, hquery, htells, hperm, hside .add, hside .drop, ascending_listed hascend,
    ascending_listed hascend⟩

end Reconciler

/-! ## Two rules on a line degree -/

/-- A rule that adds the upper of two channels with an edge in common, and one that drops the lower
one. -/
def edgeRules : List Rule :=
  [⟨"r", 3, 100, ⟨.flex, .ghz6p25, 0, 4⟩, none⟩, ⟨"r", 100, 7, ⟨.flex, .ghz6p25, -8, 4⟩, none⟩]

/-- A reply with the two channels up to the place of the media channels. -/
def edgeBefore : List Char :=
  "<data>".toList ++ Xml.written "channel-plan".toList []
    (channelMarkup "low" "193025000" "193075000" ++ channelMarkup "high" "193075000" "193125000")

/-- What follows in this reply. -/
def edgeAfter : List Char :=
  "</data>".toList

theorem toList_edge :
    (String.ofList edgeBefore ++ String.ofList edgeAfter).toList = edgeBefore ++ edgeAfter := by
  rw [String.toList_append, String.toList_ofList, String.toList_ofList]

/-- The edges of a reply with a plan surround an edit. -/
theorem surrounds_edgePlan :
    Surrounds edgePlan (String.ofList edgeBefore) (String.ofList edgeAfter) where
  room := by
    rw [String.toList_ofList]
    refine room_of_hasRoom
      (p := fun n => n.localPart != "channel-plan" && n.localPart != "media-channels")
      (by decide +kernel) fun name hname => ?_
    simpa using hname
  plan := by
    refine Outcome.eq_ok_of_toOption ?_
    rw [planOf, document, parse?, toList_edge]
    decide +kernel
  media := by
    have hall : (parseChars (edgeBefore ++ edgeAfter)).all
        (fun root => (root.allNamed "media-channels").isEmpty) = true := by
      decide +kernel
    intro root hroot
    rw [parse?, toList_edge] at hroot
    rw [hroot] at hall
    exact List.isEmpty_iff.mp hall

deriving instance DecidableEq for Rule

/-- Both rules have a channel. -/
theorem matched_edgeRules :
    Reconciler.matched edgePlan edgeRules
      = [(⟨"r", 3, 100, ⟨.flex, .ghz6p25, 0, 4⟩, none⟩, ⟨"high", 193075000, 193125000⟩),
        (⟨"r", 100, 7, ⟨.flex, .ghz6p25, -8, 4⟩, none⟩, ⟨"low", 193025000, 193075000⟩)] := by
  decide +kernel

/-- The edit for the two rules. -/
def edgeEdit : String :=
  (Reconciler.editOf (lineReconciler.creation .lineDegree)
    (Reconciler.placed edgePlan edgeRules)).render "urn:roadm"

/-- The edit of the two rules is sent. -/
theorem edit_mem_messages_edge :
    .edit "r" "merge" edgeEdit ∈
      messages (lineReconciler.apply "r" edgeRules none) (lineSite edgeReply) := by
  have hplaced : Reconciler.placed edgePlan edgeRules ≠ [] := by
    rw [Reconciler.placed_eq, matched_edgeRules]
    exact List.cons_ne_nil _ _
  obtain ⟨t, hrun, hsends, -⟩ := Reconciler.exec_reconcile_of_placed (r := lineReconciler) rfl rfl
    planOf_edgeReply (Reconciler.onlyLogs_tellCreation lineReconciler "r") "merge"
    (lineReconciler.creation .lineDegree) (serves_lineSite edgeReply 2) hplaced
  rw [← @Reconciler.exec_apply lineReconciler "r" none .lineDegree rfl rfl] at hrun
  rw [hsends.messages hrun]
  exact List.mem_cons_of_mem _ List.mem_cons_self

/-- The two rules are listed once their edit stands in its place. -/
theorem query_of_applied_edge :
    ∃ adds drops entries u,
      Act.exec (lineReconciler.query "r" none)
        (lineSite (String.ofList edgeBefore ++ edgeEdit ++ String.ofList edgeAfter))
          = (.ok (some entries), u) ∧
      List.Forall₂ (lineReconciler.Tells "r" .lineDegree) (adds ++ drops) entries ∧
      (adds ++ drops).Perm (Reconciler.matched edgePlan edgeRules) ∧
      (∀ p ∈ adds, p.1.side 100 = .add) ∧ (∀ p ∈ drops, p.1.side 100 = .drop) ∧
      (adds.map fun p => p.2.key).Pairwise (· < ·) ∧
      (drops.map fun p => p.2.key).Pairwise (· < ·) := by
  have hfront : ∀ c ∈ lineReconciler.portFront.toList, isFrontChar c = true := by
    have hletters : ∀ c ∈ "E".toList, c.isAlpha = true := List.all_eq_true.mp (by decide)
    exact fun c hc => isFrontChar_of_isAlpha (hletters c hc)
  have hspace : Declarable lineReconciler.dataSpace :=
    ⟨List.all_eq_true.mp (by decide +kernel), by decide +kernel, by decide +kernel,
      by decide +kernel⟩
  have hkeys : ∀ c ∈ edgePlan, c.key ≠ "" ∧ '\r' ∉ c.key.toList := by decide +kernel
  have hports : ∀ p ∈ Reconciler.matched edgePlan edgeRules,
      (p.1.input = lineReconciler.commonPort ∨ p.1.output = lineReconciler.commonPort) ∧
        Numeral.Writable (p.1.leafPort lineReconciler.commonPort) := by
    rw [matched_edgeRules]
    unfold Numeral.Writable
    decide +kernel
  have hsides : ((Reconciler.matched edgePlan edgeRules).map
      fun p => (p.2.key, p.1.side lineReconciler.commonPort)).Nodup := by
    rw [matched_edgeRules]
    decide +kernel
  exact Reconciler.query_of_applied (r := lineReconciler) rfl rfl hfront hspace
    ⟨_, rfl, rfl⟩ planOf_edgeReply
    tidy_edgePlan.keysOnce hkeys hports hsides edit_mem_messages_edge surrounds_edgePlan rfl rfl
    (serves_lineSite _ 1) rfl rfl

end Lightpath.CrossConnect
