import Lightpath.Proofs.CrossConnect.ReadBack

/-!
# What an order to add is told

An order to add a cross-connect is answered with its rule when the device has taken an edit. The edit
names a side of a channel and one port, and when it is read back the other port is the common one. Main
statement: `query_of_added`. What is listed later is the reported rule exactly when one of its ports is the
common one and the name of its channel can be looked up.
-/

namespace Lightpath.CrossConnect

open Lightpath.Site Lightpath.Spectrum

/-! ## Ordered rules -/

namespace Order

variable {o : Order} {r : Reconciler} {type : DeviceType} {rule : Rule} {s t : State}

/-- The ports of an ordered rule are those of the order, as whole numbers. -/
theorem ports_of_rule (h : o.rule = .ok rule) :
    Form.whole o.input = .ok rule.input ∧ Form.whole o.output = .ok rule.output := by
  rw [Order.rule] at h
  obtain ⟨slot, -, h⟩ := Outcome.bind_eq_ok_iff.mp h
  rw [Rule.ofOrder] at h
  cases hinput : Form.whole o.input <;> cases houtput : Form.whole o.output <;> rw [hinput, houtput] at h
  · obtain rfl := Except.ok.inj h
    exact ⟨rfl, rfl⟩
  all_goals exact absurd h (by simp [Form.Checked.outcome, Form.Checked.under, Functor.map, Seq.seq,
    Form.Checked.both, Form.Checked.map, Form.text])

/-- **An order is answered with its rule only when the device has taken the edit for it.** -/
theorem of_exec_add (ht : r.typeOf o.device none = .ok type) (hf : type.isFullBand = false)
    (hadd : Act.exec (o.add r) s = (.ok (some rule), t)) :
    o.rule = .ok rule ∧ ∃ d plan key, Serves s o.device d 2 ∧ r.planIn d = some plan ∧
      d.takes = true ∧ owner? plan rule.slot = some key ∧
      messages (o.add r) s = [.read o.device r.filter, .edit o.device "merge"
        ((Reconciler.editOf (r.creation type) [(rule, key)]).render r.dataSpace)] := by
  have hrun := hadd
  rw [add] at hrun
  have hnone {u : State} (h : ((.ok none, u) : Outcome (Option Rule) × State) = (.ok (some rule), t)) :
      False :=
    absurd (Except.ok.inj (congrArg Prod.fst h)) (by simp)
  cases hrule : o.rule with
  | error f =>
    rw [hrule, exec_bind_error (exec_yield_error f s)] at hrun
    exact absurd (congrArg Prod.fst hrun) (by simp)
  | ok ordered =>
    obtain ⟨out, u, es, happly, hst, hcourse⟩ := Reconciler.exec_reconcile_course
      (Reconciler.onlyLogs_tellCreation r o.device) o.device "merge" (r.creation type) [ordered] s
    rw [← Reconciler.exec_apply ht hf] at happly
    rw [hrule, exec_bind_ok (exec_yield_ok ordered s), exec_bind_ok happly] at hrun
    cases hcourse with
    | lost => exact (hnone hrun).elim
    | unread => exact (hnone hrun).elim
    | unplaced => exact (hnone hrun).elim
    | broken => exact (hnone hrun).elim
    | @edited d plan hserves hplan hplaced =>
      cases htakes : d.takes with
      | false =>
        rw [htakes] at hrun
        exact (hnone hrun).elim
      | true =>
        cases howner : owner? plan ordered.slot with
        | none => exact absurd (Reconciler.placed_singleton_of_none howner) hplaced
        | some key =>
          rw [htakes, Reconciler.placed_singleton_of_some howner] at hrun
          obtain rfl : ordered = rule :=
            Option.some.inj (Except.ok.inj (congrArg Prod.fst hrun))
          have hlogs : Logs u t := ⟨_, (congrArg Prod.snd hrun).symm⟩
          refine ⟨rfl, d, plan, key, hserves, hplan, htakes, howner, ?_⟩
          rw [(hst.logs hlogs).messages hadd, Reconciler.placed_singleton_of_some howner]

end Order

/-! ## Reading one rule back -/

namespace Reconciler

variable {r : Reconciler} {device : String} {type : DeviceType} {rule : Rule} {plan : List Channel}
  {key : String}

/-- An edit with one change is for one channel. -/
theorem channels_editOf_singleton (change : Rule → Change) (rule : Rule) (key : String) :
    (editOf change [(rule, key)]).channels = [key] ∧
      (editOf change [(rule, key)]).changesOf key = [change rule] := by
  have hedit : editOf change [(rule, key)] = [(key, [change rule])] := rfl
  rw [hedit]
  exact ⟨List.mergeSort_singleton key, by simp [Edit.changesOf, OrderedMap.get?]⟩

/-- The edit of one rule has one item. -/
theorem items_editOf_singleton (space : String) (change : Rule → Change) (rule : Rule) (key : String) :
    (editOf change [(rule, key)]).items space = [Edit.item space key [change rule]] := by
  obtain ⟨hchannels, hchanges⟩ := channels_editOf_singleton change rule key
  rw [Edit.items, hchannels, List.map_singleton, hchanges]

/-- Nothing is read of an item whose channel has no name. -/
theorem ofElement_item_of_nameless (front space : String) (side : Side) (changes : List Change) :
    Branch.ofElement front side (Edit.item space "" changes) = .ok none := by
  have hnamed : (channelChild space "").isNamed "channel" = true := beq_self_eq_true _
  have hchannel : (Edit.item space "" changes).childText? "channel" = none := by
    rw [Xml.Element.childText?, childrenNamed_item, if_pos hnamed]
    rfl
  rw [Branch.ofElement, hchannel]

/-- The branches that are read of the item of one created rule. -/
def branchesFor (r : Reconciler) (type : DeviceType) (rule : Rule) (key : String) : List Branch :=
  if key = "" then [] else [r.branchFor type rule key]

/-- Of the item of one created rule its branch is read on its side, unless the channel has no name. -/
theorem onSide_item_creation (hfront : ∀ c ∈ r.portFront.toList, isFrontChar c = true) (space : String)
    (hport : Numeral.Writable (rule.leafPort r.commonPort)) (htrimmed : Text.trimmed key = key)
    (side : Side) :
    Branch.onSide r.portFront side [Edit.item space key [r.creation type rule]]
      = .ok (if rule.side r.commonPort = side then r.branchesFor type rule key else []) := by
  have hside : (r.creation type rule).side = rule.side r.commonPort := rfl
  rw [Branch.onSide, branchesFor]
  by_cases hkey : key = ""
  · subst hkey
    rw [ofElement_item_of_nameless, if_pos rfl, ite_self]
    rfl
  · by_cases hsame : rule.side r.commonPort = side
    · have hfound : [r.creation type rule].find? (fun c => c.side = side)
          = some (r.creation type rule) := by
        simp [hside, hsame]
      rw [ofElement_item_of_find? hfront hport hkey htrimmed space hfound, if_pos hsame, if_neg hkey]
      rfl
    · have hnone : [r.creation type rule].find? (fun c => c.side = side) = none := by
        simp [hside, hsame]
      rw [ofElement_item_of_find?_none _ _ _ hnone, if_neg hsame]
      rfl

/-- The key of a channel can be looked up: it is no empty text, and the channel of this key has a slot.
-/
def Known (plan : List Channel) (key : String) : Prop :=
  key ≠ "" ∧ ∃ c own, channelOf? plan key = some c ∧ c.slot = .ok own

/-- One rule is listed, and nothing else, with its own ports exactly when one of them is the common one
and its channel is known. -/
theorem entriesIn_branchesFor_iff :
    (∃ e, r.entriesIn device plan (r.branchesFor type rule key) = .ok [e] ∧
        e.rule.input = rule.input ∧ e.rule.output = rule.output) ↔
      (rule.input = r.commonPort ∨ rule.output = r.commonPort) ∧ Known plan key := by
  rw [branchesFor]
  by_cases hkey : key = ""
  · rw [if_pos hkey]
    refine iff_of_false ?_ fun h => h.2.1 hkey
    rintro ⟨e, he, -⟩
    exact absurd (Except.ok.inj he) (by simp)
  · rw [if_neg hkey]
    constructor
    · rintro ⟨e, he, hports⟩
      obtain ⟨first, rest, hfirst, hrest, hsplit⟩ := entriesIn_cons_eq_ok_iff.mp he
      obtain rfl : [] = rest := Except.ok.inj hrest
      obtain rfl : first = some e := by
        rw [List.append_nil] at hsplit
        exact Option.toList_eq_singleton_iff.mp hsplit.symm
      obtain ⟨c, own, hc, hown, rfl⟩ := entryOf?_eq_some_iff.mp hfirst
      exact ⟨ports_branchFor_iff.mp hports, hkey, c, own, hc, hown⟩
    · rintro ⟨hcommon, -, c, own, hc, hown⟩
      have hentry : r.entryOf? device plan (r.branchFor type rule key)
          = .ok (some ⟨r.liveRule device own (r.branchFor type rule key), .added⟩) :=
        entryOf?_eq_some_iff.mpr ⟨c, own, hc, hown, rfl⟩
      exact ⟨_, entriesIn_cons_eq_ok_iff.mpr ⟨_, [], hentry, rfl, rfl⟩, ports_branchFor_iff.mpr hcommon⟩

end Reconciler

/-! ## What is reported -/

variable {o : Order} {r : Reconciler} {type type' : DeviceType} {rule : Rule} {s t u : State}
  {d : Device} {plan : List Channel} {key before after queried : String} {given : Option DeviceType}

/-- The text of the edit for one rule. -/
def additionText (r : Reconciler) (type : DeviceType) (rule : Rule) (key : String) : String :=
  (Reconciler.editOf (r.creation type) [(rule, key)]).render r.dataSpace

/-- It is the item of the channel. -/
theorem toList_additionText (r : Reconciler) (type : DeviceType) (rule : Rule) (key : String) :
    (additionText r type rule key).toList
      = (Edit.renderItem r.dataSpace key [r.creation type rule]).toList := by
  obtain ⟨hchannels, hchanges⟩ := Reconciler.channels_editOf_singleton (r.creation type) rule key
  rw [additionText, Edit.toList_render, hchannels, List.flatMap_singleton, hchanges]

/-- A document with this text in its place is the one with the key as it is read back. -/
theorem document_addition (hfront : ∀ c ∈ r.portFront.toList, isFrontChar c = true)
    (hspace : Xml.Declarable r.dataSpace) (haround : Surrounds plan before after) :
    document (before ++ additionText r type rule key ++ after)
      = document (before ++ additionText r type rule (Xml.readBack key) ++ after) := by
  have hverbatim : ∀ c ∈ [r.creation type rule], c.Verbatim := fun c hc =>
    List.mem_singleton.mp hc ▸ Reconciler.verbatim_creation hfront type rule
  have hunified : Xml.unifyLineEnds (additionText r type rule key).toList
      = (additionText r type rule (Xml.readBack key)).toList := by
    rw [toList_additionText, toList_additionText, Edit.unifyLineEnds_renderItem hspace key hverbatim]
  have hbracketed : Xml.Bracketed (additionText r type rule key).toList := by
    rw [toList_additionText]
    exact Edit.bracketed_renderItem _ _ _
  have hparse := haround.room.parseChars_unifyLineEnds hbracketed after.toList
  rw [document, document, Xml.parse?, Xml.parse?]
  simp only [String.toList_append]
  rw [hparse, hunified]

/-- A reply with the edit for one rule in its place has the plan and the branch of this rule, with the
key as it is read back. -/
theorem contents_of_addition (hfront : ∀ c ∈ r.portFront.toList, isFrontChar c = true)
    (hspace : Xml.Declarable r.dataSpace) (howner : owner? plan rule.slot = some key)
    (hport : Numeral.Writable (rule.leafPort r.commonPort)) (haround : Surrounds plan before after) :
    planOf (before ++ additionText r type rule key ++ after) = .ok plan ∧
      branchesOf r.portFront (before ++ additionText r type rule key ++ after)
        = .ok (r.branchesFor type rule (Xml.readBack key)) := by
  obtain ⟨c, hc, rfl⟩ := Option.map_eq_some_iff.mp howner
  obtain ⟨hallowed, htrimmed⟩ := key_of_planOf haround.plan (List.mem_of_find?_eq_some hc)
  have hsayable :
      (Reconciler.editOf (r.creation type) [(rule, Xml.readBack c.key)]).Sayable := by
    refine @Reconciler.sayable_creations r hfront type [(rule, { c with key := Xml.readBack c.key })]
      (List.cons_ne_nil _ _) fun p hp => ?_
    obtain rfl := List.mem_singleton.mp hp
    exact Xml.isAllowed_readBack hallowed
  have hinserts := Edit.inserts_render hspace hsayable
  obtain ⟨hplan, hbranches⟩ := contents_of_surrounds haround hinserts r.portFront
  rw [planOf, branchesOf, document_addition hfront hspace haround, ← planOf, ← branchesOf]
  refine ⟨hplan, ?_⟩
  rw [additionText, hbranches, Reconciler.items_editOf_singleton,
    Reconciler.onSide_item_creation hfront _ hport (Xml.trimmed_readBack htrimmed),
    Reconciler.onSide_item_creation hfront _ hport (Xml.trimmed_readBack htrimmed)]
  cases rule.side r.commonPort <;> simp [Bind.bind, Except.bind, Pure.pure, Except.pure]

/-- **What an order to add is told is on the device only when one port is the common one.** Let an order
to a device that switches be answered with a rule. Then it is the rule of the order, with its ports, and
the device has taken one edit for the first channel of its plan that holds the slot. Let the text of this
edit come to stand in a reply with the same plan and with no other media channels. Then the rule is what
is listed, with its two ports and alone, exactly when one of the ports is the common one and the key of the
channel, as it is read back, is known. -/
theorem query_of_added (ht : r.typeOf o.device none = .ok type) (hf : type.isFullBand = false)
    (hfront : ∀ c ∈ r.portFront.toList, isFrontChar c = true) (hspace : Xml.Declarable r.dataSpace)
    (hadd : Act.exec (o.add r) s = (.ok (some rule), t)) :
    o.rule = .ok rule ∧ Form.whole o.input = .ok rule.input ∧ Form.whole o.output = .ok rule.output ∧
      ∃ d plan key config, Serves s o.device d 2 ∧ r.planIn d = some plan ∧
        d.takes = true ∧ owner? plan rule.slot = some key ∧
        messages (o.add r) s = [.read o.device r.filter, .edit o.device "merge" config] ∧
        ∀ before after queried given type' later u,
          Numeral.Writable (rule.leafPort r.commonPort) → Surrounds plan before after →
          r.typeOf queried given = .ok type' → type'.isFullBand = false → Serves u queried later 1 →
          later.readFault = none → later.reply r.filter = some (before ++ config ++ after) →
          ((∃ e v, Act.exec (r.query queried given) u = (.ok (some [e]), v) ∧
              e.rule.input = rule.input ∧ e.rule.output = rule.output) ↔
            (rule.input = r.commonPort ∨ rule.output = r.commonPort) ∧
              Reconciler.Known plan (Xml.readBack key)) := by
  obtain ⟨hrule, d, plan, key, hserves, hplan, htakes, howner, hmessages⟩ :=
    Order.of_exec_add ht hf hadd
  obtain ⟨hinput, houtput⟩ := Order.ports_of_rule hrule
  refine ⟨hrule, hinput, houtput, d, plan, key, additionText r type rule key, hserves, hplan, htakes,
    howner, hmessages, ?_⟩
  intro before after queried given type' later u hport haround ht' hf' hlater hfault hreply
  obtain ⟨hplan', hbranches⟩ := contents_of_addition hfront hspace howner hport haround
  obtain ⟨v, hquery, -, -⟩ :=
    Reconciler.exec_query_of_serves ht' hf' hlater hfault hreply hplan' hbranches
  rw [← @Reconciler.entriesIn_branchesFor_iff r queried type rule plan (Xml.readBack key), hquery]
  constructor
  · rintro ⟨e, w, hlisted, hports⟩
    obtain ⟨es, hes, hmap⟩ := Outcome.map_eq_ok_iff.mp (congrArg Prod.fst hlisted)
    exact ⟨e, by rw [hes, Option.some.inj hmap], hports⟩
  · rintro ⟨e, he, hports⟩
    exact ⟨e, v, by rw [he]; rfl, hports⟩

/-! ## Orders to a line degree -/

/-- An order for light at the anchor between two ports. -/
def anchorOrder (input output : Int) : Order :=
  ⟨"r", .int input, .int output, .int 193100000, .int 50⟩

/-- The rule of this order. -/
def anchorRule (input output : Int) : Rule :=
  ⟨"r", input, output, ⟨.flex, .ghz6p25, 0, 4⟩, none⟩

/-- An order at the anchor has a rule at the anchor. -/
theorem rule_anchorOrder (input output : Int) :
    (anchorOrder input output).rule = .ok (anchorRule input output) := by
  have hslot : Slot.ofOrder (.int 193100000) (.int 50) = .ok ⟨.flex, .ghz6p25, 0, 4⟩ :=
    Outcome.eq_ok_of_toOption (by decide +kernel)
  rw [Order.rule, Order.slot, anchorOrder, hslot]
  rfl

theorem owner?_anchorRule (input output : Int) :
    owner? edgePlan (anchorRule input output).slot = some "high" := by
  show owner? edgePlan ⟨.flex, .ghz6p25, 0, 4⟩ = some "high"
  decide +kernel

/-- A line degree takes the order, whatever its ports are. -/
theorem exec_add_anchorOrder (input output : Int) :
    (∃ t, Act.exec ((anchorOrder input output).add lineReconciler) (lineSite edgeReply)
        = (.ok (some (anchorRule input output)), t)) ∧
      messages ((anchorOrder input output).add lineReconciler) (lineSite edgeReply)
        = [.read "r" lineReconciler.filter, .edit "r" "merge"
          (additionText lineReconciler .lineDegree (anchorRule input output) "high")] := by
  have hplaced := Reconciler.placed_singleton_of_some (owner?_anchorRule input output)
  obtain ⟨t, happly, hst, -⟩ := Reconciler.exec_reconcile_of_placed (r := lineReconciler) rfl rfl
    planOf_edgeReply (Reconciler.onlyLogs_tellCreation lineReconciler "r") "merge"
    (lineReconciler.creation .lineDegree) (serves_lineSite edgeReply 2)
    (by rw [hplaced]; exact List.cons_ne_nil _ _)
  rw [← @Reconciler.exec_apply lineReconciler "r" none .lineDegree rfl rfl, hplaced] at happly
  rw [hplaced] at hst
  obtain ⟨u, hadd, htu⟩ : ∃ u, Act.exec ((anchorOrder input output).add lineReconciler)
      (lineSite edgeReply) = (.ok (some (anchorRule input output)), u) ∧ Logs t u := by
    rw [Order.add, rule_anchorOrder, exec_bind_ok (exec_yield_ok _ _)]
    show ∃ u, Act.exec (lineReconciler.apply "r" [anchorRule input output] none >>= _) _ = _ ∧ _
    rw [exec_bind_ok happly]
    exact ⟨_, rfl, _, rfl⟩
  exact ⟨⟨u, hadd⟩, (hst.logs htu).messages hadd⟩

theorem isFrontChar_of_mem_portFront :
    ∀ c ∈ lineReconciler.portFront.toList, isFrontChar c = true := by
  have hletters : ∀ c ∈ "E".toList, c.isAlpha = true := List.all_eq_true.mp (by decide)
  exact fun c hc => isFrontChar_of_isAlpha (hletters c hc)

theorem declarable_dataSpace : Xml.Declarable lineReconciler.dataSpace :=
  ⟨List.all_eq_true.mp (by decide +kernel), by decide +kernel, by decide +kernel, by decide +kernel⟩

/-- An order to add a channel is listed once its edit stands in its place. -/
theorem query_of_added_anchor :
    ∃ config e v, messages ((anchorOrder 3 100).add lineReconciler) (lineSite edgeReply)
        = [.read "r" lineReconciler.filter, .edit "r" "merge" config] ∧
      Act.exec (lineReconciler.query "r" none)
          (lineSite (String.ofList edgeBefore ++ config ++ String.ofList edgeAfter))
        = (.ok (some [e]), v) ∧
      e.rule.input = 3 ∧ e.rule.output = 100 := by
  obtain ⟨⟨t, hadd⟩, -⟩ := exec_add_anchorOrder 3 100
  obtain ⟨-, -, -, d, plan, key, config, hserves, hplan, -, howner, hmessages, hlisted⟩ :=
    query_of_added (r := lineReconciler) rfl rfl isFrontChar_of_mem_portFront declarable_dataSpace hadd
  -- the plan is that of the reply, and the key that of its upper channel
  have hsame : lineReconciler.planIn d = lineReconciler.planIn (willing edgeReply) :=
    Reconciler.planIn_congr (hserves.answers_eq (serves_lineSite edgeReply 2))
  have hedge : lineReconciler.planIn (willing edgeReply) = some edgePlan :=
    Reconciler.planIn_eq_some_iff.mpr ⟨edgeReply, rfl, planOf_edgeReply⟩
  obtain rfl : plan = edgePlan := Option.some.inj (hplan.symm.trans (hsame.trans hedge))
  obtain rfl : key = "high" := Option.some.inj (howner.symm.trans (owner?_anchorRule 3 100))
  have hport : Numeral.Writable ((anchorRule 3 100).leafPort lineReconciler.commonPort) := by
    unfold Numeral.Writable
    decide
  have hread : Xml.readBack "high" = "high" := by decide +kernel
  have hknown : Reconciler.Known edgePlan (Xml.readBack "high") := by
    rw [hread]
    exact ⟨by decide, ⟨"high", 193075000, 193125000⟩, ⟨.flex, .ghz6p25, 0, 4⟩, rfl, by rfl⟩
  obtain ⟨e, v, hquery, hinput, houtput⟩ :=
    (hlisted (String.ofList edgeBefore) (String.ofList edgeAfter) "r" none .lineDegree _ _
      hport surrounds_edgePlan rfl rfl (serves_lineSite _ 1) rfl rfl).mpr
      ⟨Or.inr rfl, hknown⟩
  exact ⟨config, e, v, hmessages, hquery, hinput, houtput⟩

/-- **An order between two leaf ports is listed as a connection to the common port**, which nobody has
asked for. -/
theorem query_of_added_leaves :
    (∃ t, Act.exec ((anchorOrder 1 2).add lineReconciler) (lineSite edgeReply)
        = (.ok (some (anchorRule 1 2)), t)) ∧
      ∃ config e v, messages ((anchorOrder 1 2).add lineReconciler) (lineSite edgeReply)
          = [.read "r" lineReconciler.filter, .edit "r" "merge" config] ∧
        Act.exec (lineReconciler.query "r" none)
            (lineSite (String.ofList edgeBefore ++ config ++ String.ofList edgeAfter))
          = (.ok (some [e]), v) ∧
        e.rule.input = 1 ∧ e.rule.output = 100 := by
  obtain ⟨hadd, hmessages⟩ := exec_add_anchorOrder 1 2
  have hport : Numeral.Writable ((anchorRule 1 2).leafPort lineReconciler.commonPort) := by
    unfold Numeral.Writable
    decide
  obtain ⟨hplan, hbranches⟩ := @contents_of_addition lineReconciler .lineDegree (anchorRule 1 2) _ _ _ _
    isFrontChar_of_mem_portFront declarable_dataSpace (owner?_anchorRule 1 2) hport surrounds_edgePlan
  obtain ⟨v, hquery, -, -⟩ := @Reconciler.exec_query_of_serves lineReconciler _ _ _ _ _ none .lineDegree
    _ _ rfl rfl (serves_lineSite _ 1) rfl rfl hplan hbranches
  exact ⟨hadd, _, ⟨⟨"r", 1, 100, ⟨.flex, .ghz6p25, 0, 4⟩, some (-12.0)⟩, .added⟩, v, hmessages, hquery,
    rfl, rfl⟩

end Lightpath.CrossConnect
