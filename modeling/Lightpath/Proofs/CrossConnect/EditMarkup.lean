import Lightpath.CrossConnect.Edit
import Lightpath.Proofs.OrderedMap
import Lightpath.Proofs.Text.Order
import Lightpath.Proofs.Xml.Insertion

/-!
# What an edit says

The text of an edit reads as one item for each channel that is changed, in ascending order of the
channels, and the item holds the changes of its channel in the order in which they were asked for.
Main statement: `inserts_render`.
-/

namespace Lightpath.CrossConnect

open Lightpath.Xml

/-! ## Changes by channel -/

/-- The changes to one channel among some changes. -/
def changesTo (channel : String) (changes : List (String × Change)) : List Change :=
  (changes.filter fun p => p.1 = channel).map Prod.snd

theorem changesTo_cons (channel : String) (p : String × Change) (changes : List (String × Change)) :
    changesTo channel (p :: changes)
      = (if p.1 = channel then [p.2] else []) ++ changesTo channel changes := by
  rw [changesTo, changesTo, List.filter_cons]
  by_cases h : p.1 = channel
  · rw [if_pos (decide_eq_true h), if_pos h, List.map_cons, List.singleton_append]
  · rw [if_neg (by simpa using h), if_neg h, List.nil_append]

namespace Edit

/-- The changes to a channel that an edit holds. -/
def changesOf (e : Edit) (channel : String) : List Change :=
  (OrderedMap.get? e channel).getD []

/-- Another change is the last one of its channel. -/
theorem changesOf_extend (e : Edit) (p : String × Change) (channel : String) :
    (e.extend p.1 p.2).changesOf channel
      = e.changesOf channel ++ if p.1 = channel then [p.2] else [] := by
  rw [changesOf, extend]
  by_cases h : p.1 = channel
  · rw [if_pos h, ← h, OrderedMap.get?_put_self]
    rfl
  · rw [if_neg h, OrderedMap.get?_put_of_ne _ _ h, List.append_nil]
    rfl

theorem mem_keys_extend (e : Edit) (p : String × Change) (channel : String) :
    channel ∈ OrderedMap.keys (e.extend p.1 p.2) ↔ channel ∈ OrderedMap.keys e ∨ channel = p.1 := by
  rw [extend, OrderedMap.keys_put]
  split
  · rename_i h
    constructor
    · exact Or.inl
    · rintro (hmem | rfl)
      · exact hmem
      · exact h
  · rw [List.mem_append, List.mem_singleton]

/-- **An edit keeps the changes to each channel together, in the order in which they were asked
for.** -/
theorem changesOf_ofChanges (changes : List (String × Change)) (channel : String) :
    (ofChanges changes).changesOf channel = changesTo channel changes := by
  have hall (e : Edit) : (changes.foldl (fun (e : Edit) p => e.extend p.1 p.2) e).changesOf channel
      = e.changesOf channel ++ changesTo channel changes := by
    induction changes generalizing e with
    | nil => exact (List.append_nil _).symm
    | cons p changes ih =>
      rw [List.foldl_cons, ih, changesOf_extend, changesTo_cons, List.append_assoc]
  exact hall []

/-- The channels of an edit are those of its changes. -/
theorem mem_keys_ofChanges {changes : List (String × Change)} {channel : String} :
    channel ∈ OrderedMap.keys (ofChanges changes) ↔ channel ∈ changes.map Prod.fst := by
  have hall (e : Edit) :
      channel ∈ OrderedMap.keys (changes.foldl (fun (e : Edit) p => e.extend p.1 p.2) e)
        ↔ channel ∈ OrderedMap.keys e ∨ channel ∈ changes.map Prod.fst := by
    induction changes generalizing e with
    | nil => simp
    | cons p changes ih =>
      rw [List.foldl_cons, ih, mem_keys_extend, List.map_cons, List.mem_cons, or_assoc]
  rw [ofChanges, hall]
  simp [OrderedMap.keys]

/-- Each channel stands in an edit once. -/
theorem keys_ofChanges_nodup (changes : List (String × Change)) :
    (OrderedMap.keys (ofChanges changes)).Nodup := by
  have hall (e : Edit) (he : (OrderedMap.keys e).Nodup) :
      (OrderedMap.keys (changes.foldl (fun (e : Edit) p => e.extend p.1 p.2) e)).Nodup := by
    induction changes generalizing e with
    | nil => exact he
    | cons p changes ih =>
      exact ih _ (OrderedMap.keys_nodup_put he p.1 _)
  exact hall [] List.nodup_nil

/-- The channels of an edit in the order in which their items are sent. -/
def channels (e : Edit) : List String :=
  Text.sorted (OrderedMap.keys e)

/-- Different texts that are put in order ascend. -/
theorem pairwise_sorted {texts : List String} (h : texts.Nodup) :
    (Text.sorted texts).Pairwise (· < ·) :=
  Text.pairwise_sorted h

end Edit

/-! ## Texts that stand for themselves -/

/-- A text that is written into a document as it is and read as it is written. -/
def Verbatim (s : String) : Prop :=
  ∀ c ∈ s.toList, isAllowed c = true ∧ escapeChar c = [c] ∧ c ≠ '\r'

/-- A text without markup is written as it is. -/
theorem Verbatim.escaped {s : String} (h : Verbatim s) :
    s.toList.flatMap escapeChar = s.toList := by
  rw [List.flatMap_congr fun c hc => (h c hc).2.1, List.flatMap_singleton']

/-- An element with such a text reads as one with this text. -/
theorem Verbatim.reads {s : String} (h : Verbatim s) {name : List Char}
    (hname : isPlainName name = true) (scope : Scope) :
    Reads scope (written name [] s.toList) [⟨defaultName scope name, [], s, []⟩] := by
  have hleaf := @reads_leaf scope name s.toList hname fun c hc => (h c hc).1
  rwa [h.escaped, String.ofList_toList] at hleaf

/-! ## Changes -/

/-- A name in the namespace of the device's data. -/
def dataName (space name : String) : Name :=
  ⟨if space = "" then none else some space, name⟩

theorem defaultName_eq {scope : Scope} {space : String} (h : scope.lookup "" = some space)
    (name : String) : defaultName scope name.toList = dataName space name := by
  rw [defaultName, h, dataName, String.ofList_toList]
  by_cases hspace : space = ""
  · rw [if_pos (by rw [hspace]), if_pos hspace]
  · rw [if_neg (by simpa using hspace), if_neg hspace]

namespace Change

/-- The element that a change is read as. -/
def element (space : String) : Change → Element
  | .create side port power =>
    ⟨dataName space side.name, [], "",
      [⟨dataName space "port", [], port, []⟩,
        ⟨dataName space "power", [], Numeral.floatText power, []⟩]⟩
  | .withdraw side =>
    ⟨dataName space side.name, [(⟨some editSpace, "operation"⟩, "remove")], "", []⟩

/-- A change whose texts stand for themselves. -/
def Verbatim : Change → Prop
  | .create _ port power =>
    CrossConnect.Verbatim port ∧ CrossConnect.Verbatim (Numeral.floatText power)
  | .withdraw _ => True

/-- The name of a side is a name of an element. -/
theorem isPlainName_side (side : Side) : isPlainName side.name.toList = true := by
  cases side <;> decide +kernel

/-- A branch that is created is written with its port and its power. -/
theorem toList_render_create (side : Side) (port : String) (power : Float) :
    (Change.create side port power).render.toList
      = written side.name.toList [] (written "port".toList [] port.toList
          ++ written "power".toList [] (Numeral.floatText power).toList) := by
  simp [render, written, String.toList_append]

/-- The two attributes of an element that is to be removed. -/
def operationText : List Char :=
  attributeText "xmlns:nc".toList editSpace.toList
    ++ attributeText "nc:operation".toList "remove".toList

/-- A branch that is withdrawn is written as an empty element with an attribute. -/
theorem toList_render_withdraw (side : Side) :
    (Change.withdraw side).render.toList
      = ('<' :: side.name.toList) ++ (operationText ++ ['/', '>']) := by
  simp [render, operationText, attributeText, String.toList_append]

/-- The tag of such an element, last attribute first. -/
def operationTag (name : List Char) : Tag :=
  ⟨name, [("nc:operation".toList, "remove".toList), ("xmlns:nc".toList, editSpace.toList)]⟩

/-- The attribute of a withdrawal is read as the operation. -/
theorem run_operationText {d : Draft} (name : List Char) :
    run ⟨.startName name.reverse, d⟩ operationText = some ⟨.tag (operationTag name) false, d⟩ := by
  have hspace : ∀ c ∈ editSpace.toList, isValueChar c = true :=
    List.all_eq_true.mp (by decide +kernel)
  have hremove : ∀ c ∈ "remove".toList, isValueChar c = true :=
    List.all_eq_true.mp (by decide +kernel)
  have hspaceName : ∀ c ∈ "mlns:nc".toList, isNameMore c = true :=
    List.all_eq_true.mp (by decide +kernel)
  have hremoveName : ∀ c ∈ "c:operation".toList, isNameMore c = true :=
    List.all_eq_true.mp (by decide +kernel)
  have hfirst : run ⟨.startName name.reverse, d⟩ (attributeText "xmlns:nc".toList editSpace.toList)
      = some ⟨.tag ⟨name, [("xmlns:nc".toList, editSpace.toList)]⟩ false, d⟩ := by
    rw [attributeText, run_cons, step_startName (by decide), ← run_cons, List.reverse_reverse,
      ← attributeText]
    exact @run_attribute d 'x' "mlns:nc".toList _ (by decide) hspaceName hspace _ _
  rw [operationText, run_append_of_run hfirst]
  exact @run_attribute d 'n' "c:operation".toList _ (by decide) hremoveName hremove _ _

/-- Such a tag opens an element with the operation as its one attribute. -/
theorem openFrame?_operationTag {name : List Char} (hname : isPlainName name = true)
    (scope : Scope) :
    openFrame? scope (operationTag name)
      = some ⟨name, defaultName scope name, [(⟨some editSpace, "operation"⟩, "remove")],
          ("nc", editSpace) :: scope, [], []⟩ := by
  have hspaced : splitName ['x', 'm', 'l', 'n', 's', ':', 'n', 'c']
      = some (some "xmlns", "nc") := by
    decide +kernel
  have hremoved : splitName ['n', 'c', ':', 'o', 'p', 'e', 'r', 'a', 't', 'i', 'o', 'n']
      = some (some "nc", "operation") := by
    decide +kernel
  have hbindable : bindable editSpace = true := by decide +kernel
  have hxml : editSpace ≠ xmlSpace := by decide +kernel
  have hxmlns : editSpace ≠ xmlnsSpace := by decide +kernel
  have hempty : editSpace ≠ "" := by decide +kernel
  have hbind : Xml.bind scope (some "xmlns", "nc") editSpace
      = some (("nc", editSpace) :: scope) := by
    simp [Xml.bind, hbindable, hxml, hxmlns, hempty]
  have hbind' (other : Scope) : Xml.bind other (some "nc", "operation") "remove" = some other := by
    simp [Xml.bind]
  have hdistinct : allDistinct ["xmlns:nc".toList, "nc:operation".toList] = true := by
    decide +kernel
  -- the element itself stays in the default namespace: only the prefix of the operation is bound
  have hname' : defaultName (("nc", editSpace) :: scope) name = defaultName scope name := by
    have hne : ("" == "nc") = false := by decide
    have hlookup : (("nc", editSpace) :: scope).lookup "" = scope.lookup "" := by
      rw [List.lookup_cons, hne]
    rw [defaultName, defaultName, hlookup]
  simp only [openFrame?, operationTag, List.reverse_cons, List.reverse_nil, List.nil_append,
    List.singleton_append, List.map_cons, List.map_nil, hdistinct, Bool.not_true]
  simp [hspaced, hremoved, hbind, hbind', splitName_of_isPlainName hname, elementName_none, hname',
    isDeclaration, attributeName, List.lookup_cons_self, allDistinct]

/-- An element that is to be removed reads as one with the operation and with nothing inside. -/
theorem reads_withdraw (side : Side) (scope : Scope) :
    Reads scope (Change.withdraw side).render.toList
      [⟨defaultName scope side.name.toList,
        [(⟨some editSpace, "operation"⟩, "remove")], "", []⟩] := by
  intro n f outer root doctype hf
  subst hf
  have hname := isPlainName_side side
  have hstart := @run_startTag ⟨f :: outer, root, doctype⟩ n _ hname (by simp)
  have hopen : Draft.openTag ⟨f :: outer, root, doctype⟩ (operationTag side.name.toList) = _ :=
    (openTag_eq _ _).trans (congrArg _ (openFrame?_operationTag hname f.scope))
  have hend :
      run ⟨.tag (operationTag side.name.toList) false, ⟨f :: outer, root, doctype⟩⟩ ['/', '>']
      = some ⟨.content 0, ⟨{ f with children := ⟨defaultName f.scope side.name.toList,
          [(⟨some editSpace, "operation"⟩, "remove")], "", []⟩ :: f.children } :: outer, root,
          doctype⟩⟩ := by
    have hslash : step ⟨.tag (operationTag side.name.toList) false, ⟨f :: outer, root, doctype⟩⟩ '/'
        = some ⟨.emptyEnd (operationTag side.name.toList), ⟨f :: outer, root, doctype⟩⟩ := rfl
    rw [run_cons_of_step hslash, run_cons]
    show (((Draft.openTag _ _).bind Draft.closeTag).map _).bind _ = _
    rw [hopen]
    rfl
  rw [toList_render_withdraw, run_append_of_run hstart, run_append_of_run (run_operationText _),
    hend]
  rfl

/-- **A change reads as its element**, wherever the namespace of the device's data is the default
one. -/
theorem reads_render {c : Change} (h : c.Verbatim) {scope : Scope} {space : String}
    (hspace : scope.lookup "" = some space) : Reads scope c.render.toList [c.element space] := by
  cases c with
  | create side port power =>
    obtain ⟨hport, hpower⟩ := h
    have hportName : isPlainName "port".toList = true := by decide +kernel
    have hpowerName : isPlainName "power".toList = true := by decide +kernel
    have hinner := reads_append (hport.reads hportName scope) (hpower.reads hpowerName scope)
    have hparent := reads_parent (isPlainName_side side) hinner
    rw [defaultName_eq hspace, defaultName_eq hspace, defaultName_eq hspace] at hparent
    rw [toList_render_create]
    exact hparent
  | withdraw side =>
    have hside := reads_withdraw side scope
    rw [defaultName_eq hspace] at hside
    exact hside

end Change

/-! ## Items -/

namespace Edit

/-- The element that the item of a channel is read as. -/
def item (space channel : String) (changes : List Change) : Element :=
  ⟨dataName space "media-channels", [], "",
    ⟨dataName space "channel", [], channel, []⟩ :: changes.map (Change.element space)⟩

/-- The item of a channel is written with its name and then its changes. -/
theorem toList_renderItem (space channel : String) (changes : List Change) :
    (renderItem space channel changes).toList
      = written "media-channels".toList (attributeText "xmlns".toList space.toList)
          (written "channel".toList [] (channel.toList.flatMap escapeChar)
            ++ changes.flatMap fun c => c.render.toList) := by
  have hopen : "<media-channels xmlns=\"".toList
      = '<' :: ("media-channels".toList ++ ' ' :: ("xmlns".toList ++ ['=', '"'])) := by
    decide +kernel
  have hchannel : "\"><channel>".toList = '"' :: '>' :: '<' :: ("channel".toList ++ ['>']) := by
    decide +kernel
  have hend : "</channel>".toList = '<' :: '/' :: ("channel".toList ++ ['>']) := by decide +kernel
  have hclose : "</media-channels>".toList = '<' :: '/' :: ("media-channels".toList ++ ['>']) := by
    decide +kernel
  have hescape : (escape channel).toList = channel.toList.flatMap escapeChar := String.toList_ofList
  have hjoin : (String.join (changes.map Change.render)).toList
      = changes.flatMap fun c => c.render.toList := by
    rw [String.toList_join, List.flatMap_map]
  -- the parts are put together before they are compared, so that no literal is unfolded on the way
  have hparts {s t u v w x y : String} {a b c d e f g : List Char} (hs : s.toList = a)
      (ht : t.toList = b) (hu : u.toList = c) (hv : v.toList = d) (hw : w.toList = e)
      (hx : x.toList = f) (hy : y.toList = g) :
      (s ++ t ++ u ++ v ++ w ++ x ++ y).toList = a ++ (b ++ (c ++ (d ++ (e ++ (f ++ g))))) := by
    simp only [String.toList_append, List.append_assoc, hs, ht, hu, hv, hw, hx, hy]
  refine (hparts hopen rfl hchannel hescape hend hjoin hclose).trans ?_
  generalize "media-channels".toList = media, "channel".toList = name, "xmlns".toList = declared
  simp only [written, attributeText, List.append_assoc, List.cons_append, List.nil_append]

/-- The text of an item reads as the item. -/
theorem reads_renderItem {space channel : String} {changes : List Change}
    (hspace : Declarable space)
    (hchannel : ∀ c ∈ channel.toList, isAllowed c = true) (hchanges : ∀ c ∈ changes, c.Verbatim)
    (scope : Scope) :
    Reads scope (renderItem space channel changes).toList [item space channel changes] := by
  have hlookup : (("", space) :: scope).lookup "" = some space := List.lookup_cons_self
  have hchannelName : isPlainName "channel".toList = true := by decide +kernel
  have hmediaName : isPlainName "media-channels".toList = true := by decide +kernel
  have hleaf := @reads_leaf (("", space) :: scope) _ _ hchannelName hchannel
  have hall := @reads_flatMap (("", space) :: scope) Change changes (fun c => c.render.toList)
    (fun c => [c.element space]) fun c hc => Change.reads_render (hchanges c hc) hlookup
  have hitem := reads_spaced hmediaName hspace (reads_append hleaf hall)
  rw [defaultName_eq hlookup, defaultName_eq hlookup, String.ofList_toList] at hitem
  have hxmlns : "xmlns".toList = ['x', 'm', 'l', 'n', 's'] := by decide +kernel
  rw [toList_renderItem, item, hxmlns, List.map_eq_flatMap]
  exact hitem

/-- The elements that an edit is read as. -/
def items (space : String) (e : Edit) : List Element :=
  e.channels.map fun channel => item space channel (e.changesOf channel)

/-- An edit is written item by item, in the order of its channels. -/
theorem toList_render (space : String) (e : Edit) :
    (e.render space).toList
      = e.channels.flatMap fun channel =>
        (renderItem space channel (e.changesOf channel)).toList := by
  rw [render, String.toList_join, List.flatMap_map]
  rfl

/-- What an edit says can be said in a document and, where the device reads it, is what was meant.
-/
structure Sayable (e : Edit) : Prop where
  nonempty : e ≠ []
  channel : ∀ channel ∈ OrderedMap.keys e, ∀ c ∈ channel.toList, isAllowed c = true ∧ c ≠ '\r'
  change : ∀ channel, ∀ c ∈ e.changesOf channel, c.Verbatim

/-- The channels of an edit in order are its channels. -/
theorem mem_channels {e : Edit} {channel : String} :
    channel ∈ e.channels ↔ channel ∈ OrderedMap.keys e :=
  Text.mem_sorted

/-- An edit that is not empty has a channel. -/
theorem channels_ne_nil {e : Edit} (h : e ≠ []) : e.channels ≠ [] := by
  obtain ⟨p, rest, rfl⟩ := List.exists_cons_of_ne_nil h
  exact List.ne_nil_of_mem (mem_channels.mpr List.mem_cons_self)

/-- The text of an edit starts with markup. -/
theorem head?_render {e : Edit} (h : e ≠ []) (space : String) :
    (e.render space).toList.head? = some '<' := by
  rw [toList_render]
  obtain ⟨channel, rest, hchannels⟩ := List.exists_cons_of_ne_nil (channels_ne_nil h)
  rw [hchannels, List.flatMap_cons, toList_renderItem, written]
  rfl

/-- No carriage return stands in a change, -/
theorem noReturn_render_change {c : Change} (h : c.Verbatim) : '\r' ∉ c.render.toList := by
  have hside (side : Side) : '\r' ∉ side.name.toList := by
    cases side <;> decide +kernel
  cases c with
  | create side port power =>
    have hportName : '\r' ∉ "port".toList := by decide +kernel
    have hpowerName : '\r' ∉ "power".toList := by decide +kernel
    have hport := noReturn_written hportName List.not_mem_nil fun hc => (h.1 _ hc).2.2 rfl
    have hpower := noReturn_written hpowerName List.not_mem_nil fun hc => (h.2 _ hc).2.2 rfl
    rw [Change.toList_render_create]
    refine noReturn_written (hside side) List.not_mem_nil fun hc => ?_
    rcases List.mem_append.mp hc with hc | hc
    · exact hport hc
    · exact hpower hc
  | withdraw side =>
    have hoperation : '\r' ∉ Change.operationText ++ ['/', '>'] := by decide +kernel
    rw [Change.toList_render_withdraw]
    intro hc
    rcases List.mem_append.mp hc with hc | hc
    · exact hside side ((List.mem_cons.mp hc).resolve_left (by decide))
    · exact hoperation hc

/-- and none in an item whose channel has none. -/
theorem noReturn_renderItem {space channel : String} {changes : List Change}
    (hspace : Declarable space)
    (hchannel : '\r' ∉ channel.toList) (hchanges : ∀ c ∈ changes, c.Verbatim) :
    '\r' ∉ (renderItem space channel changes).toList := by
  have hvalue : '\r' ∉ space.toList := fun hc => absurd (hspace.chars _ hc) (by decide)
  rw [toList_renderItem]
  refine noReturn_written (by decide +kernel) (noReturn_attributeText (by decide +kernel) hvalue)
    fun hc => ?_
  rcases List.mem_append.mp hc with hc | hc
  · exact noReturn_written (by decide +kernel) List.not_mem_nil (noReturn_escaped hchannel) hc
  · obtain ⟨c, hcmem, hc⟩ := List.mem_flatMap.mp hc
    exact noReturn_render_change (hchanges c hcmem) hc

/-- An item stands in brackets. -/
theorem bracketed_renderItem (space channel : String) (changes : List Change) :
    Bracketed (renderItem space channel changes).toList := by
  rw [toList_renderItem]
  exact bracketed_written _ _ _

/-- Of the line ends in an item only those in the name of its channel are made one. -/
theorem unifyLineEnds_renderItem {space : String} (hspace : Declarable space) (channel : String)
    {changes : List Change} (hchanges : ∀ c ∈ changes, c.Verbatim) :
    unifyLineEnds (renderItem space channel changes).toList
      = (renderItem space (readBack channel) changes).toList := by
  have hmedia : '\r' ∉ "media-channels".toList := by decide +kernel
  have hchannel : '\r' ∉ "channel".toList := by decide +kernel
  have hvalue : '\r' ∉ space.toList := fun hc => absurd (hspace.chars _ hc) (by decide)
  have hdeclared : '\r' ∉ attributeText "xmlns".toList space.toList :=
    noReturn_attributeText (by decide +kernel) hvalue
  have hrest : '\r' ∉ changes.flatMap fun c => c.render.toList := by
    intro hmem
    obtain ⟨c, hc, hmem⟩ := List.mem_flatMap.mp hmem
    exact noReturn_render_change (hchanges c hc) hmem
  -- the name stands between two tags, so no line end goes through the cut behind it
  have hcut (inner : List Char) :
      unifyLineEnds (written "channel".toList [] inner ++ changes.flatMap fun c => c.render.toList)
        = written "channel".toList [] (unifyLineEnds inner)
          ++ changes.flatMap fun c => c.render.toList := by
    have heq := (bracketed_written "channel".toList [] inner).unifyLineEnds []
      (changes.flatMap fun c => c.render.toList)
    rw [List.nil_append, unifyLineEnds_written hchannel List.not_mem_nil,
      unifyLineEnds_eq_self hrest] at heq
    exact heq
  rw [toList_renderItem, toList_renderItem, unifyLineEnds_written hmedia hdeclared, hcut,
    unifyLineEnds_escaped, toList_readBack]

/-- **An edit can be put between the parts of any element of a document, where it reads as its
items.** -/
theorem inserts_render {space : String} (hspace : Declarable space) {e : Edit} (h : e.Sayable) :
    Inserts (e.render space).toList (e.items space) where
  reads := by
    intro scope
    rw [toList_render, items, List.map_eq_flatMap]
    exact reads_flatMap fun channel hchannel => reads_renderItem hspace
      (fun c hc => (h.channel channel (mem_channels.mp hchannel) c hc).1) (h.change channel) scope
  head := head?_render h.nonempty space
  noReturn := by
    rw [toList_render, List.mem_flatMap]
    rintro ⟨channel, hchannel, hmem⟩
    exact noReturn_renderItem hspace
      (fun hc => (h.channel channel (mem_channels.mp hchannel) _ hc).2 rfl) (h.change channel) hmem
  nonempty := by
    rw [items]
    exact fun hnil => channels_ne_nil h.nonempty (List.map_eq_nil_iff.mp hnil)

end Edit

end Lightpath.CrossConnect
