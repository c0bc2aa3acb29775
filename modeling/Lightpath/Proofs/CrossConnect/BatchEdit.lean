import Lightpath.Proofs.CrossConnect.ReadBack
import Lightpath.Proofs.Xml.RootElement

/-!
# The edit of many rules

All rules that are applied or removed together make one edit. Its text reads as one item for each
channel that owns one of them, in ascending order of the keys, and behind its channel an item has
the changes for its own rules in their order and nothing else. So the order of rules of different
channels makes no difference, and applying and removing differ only in what stands inside the
changes. Main statement: `edits_of_apply_and_remove`.
-/

namespace Lightpath.CrossConnect

open Lightpath.Site Lightpath.Xml

/-! ## Texts of edits -/

/-- A set of texts ascends in one way only. -/
theorem eq_of_ascending {texts others : List String} (h : texts.Pairwise (· < ·))
    (k : others.Pairwise (· < ·)) (hmem : ∀ s, s ∈ texts ↔ s ∈ others) : texts = others := by
  have hne {a b : String} (hab : a < b) : a ≠ b := String.ne_of_lt hab
  have hperm : texts.Perm others :=
    (List.perm_ext_iff_of_nodup (h.imp hne) (k.imp hne)).mpr hmem
  refine hperm.eq_of_pairwise (fun a b _ _ hab hba => ?_) h k
  exact absurd (String.lt_trans hab hba) (String.lt_irrefl a)

/-- The text of an edit tells nothing but the changes to each channel. -/
theorem Edit.render_eq_of_changesOf {e f : Edit} (he : (OrderedMap.keys e).Nodup)
    (hf : (OrderedMap.keys f).Nodup)
    (hkeys : ∀ key, key ∈ OrderedMap.keys e ↔ key ∈ OrderedMap.keys f)
    (hchanges : ∀ key, e.changesOf key = f.changesOf key) (space : String) :
    e.render space = f.render space := by
  have hchannels : e.channels = f.channels := by
    refine eq_of_ascending (pairwise_sorted he) (pairwise_sorted hf) fun key => ?_
    rw [mem_channels, mem_channels, hkeys]
  refine String.toList_inj.mp ?_
  rw [toList_render, toList_render, hchannels]
  exact List.flatMap_congr fun key _ => by rw [hchanges]

/-- A text says some elements: between the tags of an element it is a document with these elements
inside and nothing else. -/
def Says (config : String) (items : List Element) : Prop :=
  parse? ("<config>" ++ config ++ "</config>") = some ⟨⟨none, "config"⟩, [], "", items⟩

/-- What can be put into any element says what it reads as. -/
theorem says_of_inserts {config : String} {items : List Element}
    (h : Inserts config.toList items) : Says config items := by
  have hname : isPlainName "config".toList = true := by decide +kernel
  have hopen : "<config>".toList = '<' :: ("config".toList ++ ['>']) := by decide +kernel
  have hclose : "</config>".toList = '<' :: '/' :: ("config".toList ++ ['>']) := by decide +kernel
  have htext : ("<config>" ++ config ++ "</config>").toList
      = written "config".toList [] config.toList := by
    simp only [String.toList_append, hopen, hclose, written, List.append_assoc, List.cons_append,
      List.nil_append]
  have hroot := h.parseChars_written hname
  rw [Says, parse?, htext, hroot, defaultName, String.ofList_toList]
  rfl

/-- What an item is about: the channel that it starts with, and the names of what follows. -/
def outline (item : Element) : Option Element × List Name :=
  (item.children.head?, item.children.tail.map Element.name)

namespace Reconciler

/-! ## The rules of a channel -/

variable {r : Reconciler} {plan : List Channel} {rules : List Rule} {key : String}

/-- The changes to a channel are those for the rules that it owns, in their order. -/
theorem changesOf_editOf_placed (change : Rule → Change) (plan : List Channel) (rules : List Rule)
    (key : String) :
    (editOf change (placed plan rules)).changesOf key = (ownedBy plan rules key).map change := by
  rw [placed_eq, changesOf_editOf, ← map_fst_matched_filter, List.map_map]
  rfl

theorem keys_editOf_nodup (change : Rule → Change) (placed : List (Rule × String)) :
    (OrderedMap.keys (editOf change placed)).Nodup :=
  Edit.keys_ofChanges_nodup _

/-- An edit has the channels that own a rule. -/
theorem mem_keys_editOf_placed (change : Rule → Change) :
    key ∈ OrderedMap.keys (editOf change (placed plan rules))
      ↔ ∃ rule ∈ rules, owner? plan rule.slot = some key := by
  rw [editOf, Edit.mem_keys_ofChanges, List.map_map, List.mem_map]
  constructor
  · rintro ⟨p, hp, rfl⟩
    exact ⟨p.1, mem_placed.mp hp⟩
  · rintro ⟨rule, hrule, howner⟩
    exact ⟨(rule, key), mem_placed.mpr ⟨hrule, howner⟩, rfl⟩

/-- **The order of rules of different channels makes no difference to the text of their edit.** -/
theorem render_editOf_eq_of_ownedBy {rules' : List Rule}
    (h : ∀ key, ownedBy plan rules' key = ownedBy plan rules key) (change : Rule → Change)
    (space : String) :
    (editOf change (placed plan rules')).render space
      = (editOf change (placed plan rules)).render space := by
  refine Edit.render_eq_of_changesOf (keys_editOf_nodup _ _) (keys_editOf_nodup _ _)
    (fun key => ?_) (fun key => ?_) space
  · have hmem (l : List Rule) : (∃ rule ∈ l, owner? plan rule.slot = some key)
        ↔ ∃ rule, rule ∈ ownedBy plan l key := by
      simp only [mem_ownedBy]
    rw [mem_keys_editOf_placed, mem_keys_editOf_placed, hmem, hmem, h]
  · rw [changesOf_editOf_placed, changesOf_editOf_placed, h]

/-! ## Items -/

/-- The elements that the text of an edit reads as: one item for each of some channels, with a
change for each rule that the channel owns. -/
def itemsFor (space : String) (change : Rule → Change) (plan : List Channel) (rules : List Rule)
    (channels : List String) : List Element :=
  channels.map fun key => Edit.item space key ((ownedBy plan rules key).map change)

theorem items_editOf_placed (space : String) (change : Rule → Change) (plan : List Channel)
    (rules : List Rule) :
    (editOf change (placed plan rules)).items space
      = itemsFor space change plan rules (editOf change (placed plan rules)).channels := by
  rw [Edit.items, itemsFor]
  simp only [changesOf_editOf_placed]

/-- The text of the edit for some rules says an item for each of its channels. -/
theorem says_render_editOf (hspace : Declarable r.dataSpace) {reply : String}
    (hplan : planOf reply = .ok plan) (hkeys : ∀ c ∈ plan, '\r' ∉ c.key.toList)
    (howned : owned plan rules ≠ []) (change : Rule → Change)
    (hchange : ∀ rule, (change rule).Verbatim) :
    Says ((editOf change (placed plan rules)).render r.dataSpace)
      (itemsFor r.dataSpace change plan rules (editOf change (placed plan rules)).channels) := by
  rw [← items_editOf_placed]
  have hne : matched plan rules ≠ [] := fun hnil => howned (by rw [← map_fst_matched, hnil]; rfl)
  have hsayable : (editOf change (placed plan rules)).Sayable := by
    rw [placed_eq]
    refine sayable_editOf (fun p _ => hchange p.1) hne fun p hp c hc => ?_
    have hmem := channel_mem_of_matched hp
    exact ⟨(key_of_planOf hplan hmem).1 c hc, fun hreturn => hkeys p.2 hmem (hreturn ▸ hc)⟩
  exact says_of_inserts (Edit.inserts_render hspace hsayable)

/-- Edits for the same rules have the same channels, whatever the changes are. -/
theorem channels_editOf_eq (change change' : Rule → Change) (plan : List Channel)
    (rules : List Rule) :
    (editOf change (placed plan rules)).channels = (editOf change' (placed plan rules)).channels := by
  refine eq_of_ascending (Edit.pairwise_sorted (keys_editOf_nodup _ _))
    (Edit.pairwise_sorted (keys_editOf_nodup _ _)) fun key => ?_
  rw [Edit.mem_channels, Edit.mem_channels, mem_keys_editOf_placed, mem_keys_editOf_placed]

/-- Items of changes to the same sides have the same outline. -/
theorem outline_itemsFor_eq (space : String) (change change' : Rule → Change)
    (h : ∀ rule, (change rule).side = (change' rule).side) (plan : List Channel)
    (rules : List Rule) (channels : List String) :
    (itemsFor space change plan rules channels).map outline
      = (itemsFor space change' plan rules channels).map outline := by
  have hname (c : Change) : (c.element space).name = dataName space c.side.name := by
    cases c <;> rfl
  rw [itemsFor, itemsFor, List.map_map, List.map_map]
  refine List.map_congr_left fun key _ => ?_
  simp only [Function.comp_apply, outline, Edit.item, List.head?_cons, List.tail_cons, List.map_map]
  congr 1
  refine List.map_congr_left fun rule _ => ?_
  rw [Function.comp_apply, Function.comp_apply, Function.comp_apply, Function.comp_apply, hname,
    hname, h]

/-! ## Applying and removing -/

variable {s : Site.State} {device operation : String} {d : Device} {reply : String}
  {given : Option DeviceType} {type : DeviceType} {tell : Rule × Option String → Act Unit}

/-- What the texts of two edits say that apply and remove the same rules: one item for each key of a
channel that owns a rule, in ascending order of the keys, and behind its channel an item has the
changes for the rules that the channel owns, in their order. -/
structure Batch (r : Reconciler) (type : DeviceType) (plan : List Channel) (rules : List Rule)
    (created withdrawn : String) (channels : List String) : Prop where
  ascending : channels.Pairwise (· < ·)
  mem_channels : ∀ key, key ∈ channels ↔ ∃ rule ∈ rules, owner? plan rule.slot = some key
  says_created : Says created (itemsFor r.dataSpace (r.creation type) plan rules channels)
  says_withdrawn : Says withdrawn (itemsFor r.dataSpace r.withdrawal plan rules channels)
  outlines : (itemsFor r.dataSpace r.withdrawal plan rules channels).map outline
    = (itemsFor r.dataSpace (r.creation type) plan rules channels).map outline

/-- A device that keeps its session is asked for its plan and sent the edit for the owned rules, and
these are yielded if it takes the edit. -/
theorem exec_reconcile_of_owned (h : Serves s device d 2) (hfault : d.readFault = none)
    (hreply : d.reply r.filter = some reply) (hplan : planOf reply = .ok plan)
    (htell : ∀ p, OnlyLogs (tell p)) (operation : String) (change : Rule → Change)
    (howned : owned plan rules ≠ []) :
    (Act.exec (r.reconcile device operation change tell rules) s).1
        = .ok (if d.takes then some (owned plan rules) else none) ∧
      messages (r.reconcile device operation change tell rules) s
        = [.read device r.filter,
          .edit device operation ((editOf change (placed plan rules)).render r.dataSpace)] := by
  have hplaced : placed plan rules ≠ [] := mt placed_eq_nil_iff.mp howned
  obtain ⟨t, hrun, hsends, -⟩ := exec_reconcile_of_placed (r := r) hfault hreply hplan htell
    operation change h hplaced
  exact ⟨by rw [hrun, map_fst_placed], hsends.messages hrun⟩

/-- The edits that apply and remove some rules say the same of the channels that own them. -/
theorem exists_batch (hfront : ∀ c ∈ r.portFront.toList, isFrontChar c = true)
    (hspace : Declarable r.dataSpace) (hplan : planOf reply = .ok plan)
    (hkeys : ∀ c ∈ plan, '\r' ∉ c.key.toList) (howned : owned plan rules ≠ []) (type : DeviceType) :
    ∃ channels, Batch r type plan rules
      ((editOf (r.creation type) (placed plan rules)).render r.dataSpace)
      ((editOf r.withdrawal (placed plan rules)).render r.dataSpace) channels := by
  have hwithdrawn := says_render_editOf hspace hplan hkeys howned r.withdrawal fun _ => trivial
  rw [channels_editOf_eq r.withdrawal (r.creation type)] at hwithdrawn
  exact ⟨(editOf (r.creation type) (placed plan rules)).channels,
    { ascending := Edit.pairwise_sorted (keys_editOf_nodup _ _)
      mem_channels := fun key => by rw [Edit.mem_channels, mem_keys_editOf_placed]
      says_created :=
        says_render_editOf hspace hplan hkeys howned (r.creation type) (verbatim_creation hfront type)
      says_withdrawn := hwithdrawn
      outlines := outline_itemsFor_eq r.dataSpace r.withdrawal (r.creation type) (fun _ => rfl)
        plan rules _ }⟩

/-- Rules of which each channel owns the same are owned by some channel too. -/
theorem owned_ne_nil_of_ownedBy {rules' : List Rule} (howned : owned plan rules ≠ [])
    (hsame : ∀ key, ownedBy plan rules' key = ownedBy plan rules key) : owned plan rules' ≠ [] := by
  obtain ⟨rule, rest, hcons⟩ := List.exists_cons_of_ne_nil howned
  have hrule : rule ∈ owned plan rules := hcons ▸ List.mem_cons_self
  obtain ⟨hmem, hsome⟩ := mem_owned.mp hrule
  obtain ⟨key, hkey⟩ := Option.isSome_iff_exists.mp hsome
  have hrule' := mem_ownedBy.mp (hsame key ▸ mem_ownedBy.mpr ⟨hmem, hkey⟩)
  exact List.ne_nil_of_mem (mem_owned.mpr ⟨hrule'.1, hsome⟩)

/-- **The edit of many rules is canonical, and removing mirrors applying.** Let some rules have a
channel on a device that keeps its session. Applying and removing each send one edit, and what
either yields is the same: the owned rules if the device takes the edit. The texts of both edits
list the same channels in ascending order, each with the changes for its own rules in their order.
Any other list with the same rules for each channel is told to the device in the same words. -/
theorem edits_of_apply_and_remove (ht : r.typeOf device given = .ok type)
    (hf : type.isFullBand = false)
    (hfront : ∀ c ∈ r.portFront.toList, isFrontChar c = true) (hspace : Declarable r.dataSpace)
    (h : Serves s device d 2) (hfault : d.readFault = none) (hreply : d.reply r.filter = some reply)
    (hplan : planOf reply = .ok plan) (hkeys : ∀ c ∈ plan, '\r' ∉ c.key.toList)
    (howned : owned plan rules ≠ []) :
    ∃ created withdrawn,
      (∃ channels, Batch r type plan rules created withdrawn channels) ∧
      messages (r.apply device rules given) s
        = [.read device r.filter, .edit device "merge" created] ∧
      messages (r.remove device rules given) s
        = [.read device r.filter, .edit device "none" withdrawn] ∧
      (Act.exec (r.apply device rules given) s).1
        = .ok (if d.takes then some (owned plan rules) else none) ∧
      (Act.exec (r.remove device rules given) s).1 = (Act.exec (r.apply device rules given) s).1 ∧
      ∀ rules', (∀ key, ownedBy plan rules' key = ownedBy plan rules key) →
        messages (r.apply device rules' given) s = messages (r.apply device rules given) s ∧
        messages (r.remove device rules' given) s = messages (r.remove device rules given) s := by
  have happly (l : List Rule) (hl : owned plan l ≠ []) :=
    exec_reconcile_of_owned (r := r) h hfault hreply hplan (onlyLogs_tellCreation r device) "merge"
      (r.creation type) hl
  have hremove (l : List Rule) (hl : owned plan l ≠ []) :=
    exec_reconcile_of_owned (r := r) h hfault hreply hplan (onlyLogs_tellWithdrawal r device) "none"
      r.withdrawal hl
  simp only [messages, ← exec_apply ht hf] at happly
  simp only [messages, ← exec_remove ht hf] at hremove
  refine ⟨_, _, exists_batch hfront hspace hplan hkeys howned type, (happly rules howned).2,
    (hremove rules howned).2, (happly rules howned).1, ?_, fun rules' hsame => ?_⟩
  · rw [(hremove rules howned).1, (happly rules howned).1]
  · have howned' := owned_ne_nil_of_ownedBy howned hsame
    rw [messages, messages, messages, messages, (happly rules' howned').2,
      (happly rules howned).2, (hremove rules' howned').2, (hremove rules howned).2,
      render_editOf_eq_of_ownedBy hsame, render_editOf_eq_of_ownedBy hsame]
    exact ⟨rfl, rfl⟩

end Reconciler

/-! ## Four rules on a line degree -/

/-- Two rules on the lower one of two channels around a rule on the upper one, and a rule that no
channel holds. -/
def mixedRules : List Rule :=
  [⟨"r", 100, 7, ⟨.flex, .ghz6p25, -8, 4⟩, none⟩, ⟨"r", 3, 100, ⟨.flex, .ghz6p25, 0, 4⟩, none⟩,
    ⟨"r", 9, 100, ⟨.flex, .ghz6p25, 80, 4⟩, none⟩, ⟨"r", 5, 100, ⟨.flex, .ghz6p25, -8, 4⟩, none⟩]

/-- The three rules that are owned go out in one edit each way. -/
theorem edits_of_apply_and_remove_mixed :
    ∃ created withdrawn,
      (∃ channels, Reconciler.Batch lineReconciler .lineDegree edgePlan mixedRules created withdrawn
        channels) ∧
      messages (lineReconciler.apply "r" mixedRules none) (lineSite edgeReply)
        = [.read "r" lineReconciler.filter, .edit "r" "merge" created] ∧
      messages (lineReconciler.remove "r" mixedRules none) (lineSite edgeReply)
        = [.read "r" lineReconciler.filter, .edit "r" "none" withdrawn] ∧
      (Act.exec (lineReconciler.apply "r" mixedRules none) (lineSite edgeReply)).1
        = .ok (some (Reconciler.owned edgePlan mixedRules)) ∧
      (Act.exec (lineReconciler.remove "r" mixedRules none) (lineSite edgeReply)).1
        = (Act.exec (lineReconciler.apply "r" mixedRules none) (lineSite edgeReply)).1 ∧
      ∀ rules', (∀ key,
          Reconciler.ownedBy edgePlan rules' key = Reconciler.ownedBy edgePlan mixedRules key) →
        messages (lineReconciler.apply "r" rules' none) (lineSite edgeReply)
            = messages (lineReconciler.apply "r" mixedRules none) (lineSite edgeReply) ∧
          messages (lineReconciler.remove "r" rules' none) (lineSite edgeReply)
            = messages (lineReconciler.remove "r" mixedRules none) (lineSite edgeReply) := by
  have hfront : ∀ c ∈ lineReconciler.portFront.toList, isFrontChar c = true := by
    have hletters : ∀ c ∈ "E".toList, c.isAlpha = true := List.all_eq_true.mp (by decide)
    exact fun c hc => isFrontChar_of_isAlpha (hletters c hc)
  have hspace : Declarable lineReconciler.dataSpace :=
    ⟨List.all_eq_true.mp (by decide +kernel), by decide +kernel, by decide +kernel,
      by decide +kernel⟩
  have hkeys : ∀ c ∈ edgePlan, '\r' ∉ c.key.toList := by decide +kernel
  have howned : Reconciler.owned edgePlan mixedRules ≠ [] := by decide +kernel
  exact Reconciler.edits_of_apply_and_remove (r := lineReconciler) rfl rfl hfront hspace
    (serves_lineSite edgeReply 2) rfl rfl planOf_edgeReply hkeys howned

end Lightpath.CrossConnect
