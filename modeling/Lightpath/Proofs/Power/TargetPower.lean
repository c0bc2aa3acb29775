import Lightpath.Proofs.CrossConnect.BranchReading
import Lightpath.Proofs.Numeral.FloatText
import Lightpath.Proofs.Power.Readings
import Lightpath.Proofs.Xml.RootElement

/-!
# A target power reads back

What is sent to a terminal device to set a target power is a document with one component. A device that
gives this document back, alone or somewhere inside another one, is read as having the power that was
set. Main statement: `target_reads_back`.
-/

namespace Lightpath.Power

open Lightpath.Site Lightpath.Xml
open Lightpath.CrossConnect (Token isTokenChar isTokenChar_of_toNat)

variable {name reply before after : String} {power : Float} {scope : Scope} {raw : List Char}
  {attributes : List (List Char × List Char)} {f : Frame}

/-! ## The text of a power -/

/-- The text of a number is a token, with a sign, a point or an exponent in it, or as a word. -/
theorem token_floatText (x : Float) : Token (Numeral.floatText x) where
  nonempty := by
    intro hempty
    have hnone : Numeral.floatOf "" = none := by decide
    rw [← hempty, Numeral.floatOf_floatText] at hnone
    exact Option.some_ne_none x hnone
  chars := by
    intro c hc
    rcases Numeral.mem_floatText hc with (rfl | rfl | rfl | rfl | hdigit) | hletter
    · decide
    · decide
    · decide
    · decide
    · have hplace := Char.isDigit_iff_toNat.mp hdigit
      have hzero : '0'.toNat = 48 := rfl
      have hnine : '9'.toNat = 57 := rfl
      exact isTokenChar_of_toNat (Or.inl (by omega))
    · have hletters : Numeral.wordLetters.all isTokenChar = true := by decide
      exact List.all_eq_true.mp hletters c hletter

/-! ## The document -/

/-- The element that names a component. -/
def nameElement (name : String) : Element :=
  ⟨⟨some platformSpace, "name"⟩, [], name, []⟩

/-- The optical channel with the power. -/
def channelElement (power : Float) : Element :=
  ⟨⟨some terminalSpace, "optical-channel"⟩, [], "",
    [⟨⟨some terminalSpace, "config"⟩, [], "",
      [⟨⟨some terminalSpace, "target-output-power"⟩, [], Numeral.floatText power, []⟩]⟩]⟩

/-- The component with its name and its channel. -/
def componentElement (name : String) (power : Float) : Element :=
  ⟨⟨some platformSpace, "component"⟩, [], "", [nameElement name, channelElement power]⟩

/-- The document that sets a target power, as it is read. -/
def targetDocument (name : String) (power : Float) : Element :=
  ⟨⟨some platformSpace, "components"⟩, [], "", [componentElement name power]⟩

/-- The names of the elements are plain ones. -/
theorem isPlainName_names :
    ∀ n ∈ ["components", "component", "name", "optical-channel", "config", "target-output-power"],
      isPlainName n.toList = true := by
  simp only [List.forall_mem_cons]
  refine ⟨?_, ?_, ?_, ?_, ?_, ?_, List.forall_mem_nil _⟩ <;>
  · rw [String.toList_ofList]
    decide

/-- The declaration of a default namespace. -/
def spaceText (space : String) : List Char :=
  attributeText ['x', 'm', 'l', 'n', 's'] space.toList

/-- The component inside the document, as it is written. -/
def targetInner (name : String) (power : Float) : List Char :=
  written "component".toList []
    (written "name".toList [] (name.toList.flatMap escapeChar)
      ++ written "optical-channel".toList (spaceText terminalSpace)
        (written "config".toList []
          (written "target-output-power".toList [] (Numeral.floatText power).toList)))

/-- A part of the channel is written inside its element, -/
theorem toList_channelText (inner : String) : (channelText inner).toList
    = written "optical-channel".toList (spaceText terminalSpace) inner.toList := by
  have hname : "optical-channel".toList = _ := String.toList_ofList
  have hopen : "<optical-channel xmlns=\"".toList
      = '<' :: ("optical-channel".toList ++ [' ', 'x', 'm', 'l', 'n', 's', '=', '"']) := by
    rw [hname]
    exact String.toList_ofList
  have hclose : "</optical-channel>".toList = '<' :: '/' :: ("optical-channel".toList ++ ['>']) := by
    rw [hname]
    exact String.toList_ofList
  have hbracket : "\">".toList = ['"', '>'] := String.toList_ofList
  -- the parts are put together before they are compared, so that no literal is unfolded on the way
  have hparts {s t u : String} {a b c : List Char} (hs : s.toList = a) (ht : t.toList = b)
      (hu : u.toList = c) :
      (s ++ terminalSpace ++ t ++ inner ++ u).toList
        = a ++ (terminalSpace.toList ++ (b ++ (inner.toList ++ c))) := by
    simp only [String.toList_append, List.append_assoc, hs, ht, hu]
  -- the shape of an element, over any characters in place of the literals
  have hwritten (channel space rest : List Char) :
      '<' :: (channel ++ [' ', 'x', 'm', 'l', 'n', 's', '=', '"'])
          ++ (space ++ (['"', '>'] ++ (rest ++ '<' :: '/' :: (channel ++ ['>']))))
        = written channel (attributeText ['x', 'm', 'l', 'n', 's'] space) rest := by
    simp [written, attributeText]
  exact (hparts hopen hbracket hclose).trans (hwritten _ _ _)

/-- and a part of the component behind its escaped name. -/
theorem toList_componentText (name inner : String) : (componentText name inner).toList
    = written "components".toList (spaceText platformSpace)
        (written "component".toList [] (written "name".toList [] (name.toList.flatMap escapeChar)
          ++ inner.toList)) := by
  have hcomponents : "components".toList = _ := String.toList_ofList
  have hcomponent : "component".toList = _ := String.toList_ofList
  have hlabel : "name".toList = _ := String.toList_ofList
  have hopen : "<components xmlns=\"".toList
      = '<' :: ("components".toList ++ [' ', 'x', 'm', 'l', 'n', 's', '=', '"']) := by
    rw [hcomponents]
    exact String.toList_ofList
  have hname : "\"><component><name>".toList
      = '"' :: '>' :: '<' :: ("component".toList ++ '>' :: '<' :: ("name".toList ++ ['>'])) := by
    rw [hcomponent, hlabel]
    exact String.toList_ofList
  have hescape : (escape name).toList = name.toList.flatMap escapeChar := String.toList_ofList
  have hend : "</name>".toList = '<' :: '/' :: ("name".toList ++ ['>']) := by
    rw [hlabel]
    exact String.toList_ofList
  have hclose : "</component></components>".toList = '<' :: '/' :: ("component".toList
      ++ '>' :: '<' :: '/' :: ("components".toList ++ ['>'])) := by
    rw [hcomponent, hcomponents]
    exact String.toList_ofList
  have hparts {s t u v w : String} {a b c d e : List Char} (hs : s.toList = a) (ht : t.toList = b)
      (hu : u.toList = c) (hv : v.toList = d) (hw : w.toList = e) :
      (s ++ platformSpace ++ t ++ u ++ v ++ inner ++ w).toList
        = a ++ (platformSpace.toList ++ (b ++ (c ++ (d ++ (inner.toList ++ e))))) := by
    simp only [String.toList_append, List.append_assoc, hs, ht, hu, hv, hw]
  have hwritten (components component label space text rest : List Char) :
      '<' :: (components ++ [' ', 'x', 'm', 'l', 'n', 's', '=', '"'])
          ++ (space ++ ('"' :: '>' :: '<' :: (component ++ '>' :: '<' :: (label ++ ['>']))
            ++ (text ++ ('<' :: '/' :: (label ++ ['>']) ++ (rest ++ '<' :: '/' :: (component
              ++ '>' :: '<' :: '/' :: (components ++ ['>'])))))))
        = written components (attributeText ['x', 'm', 'l', 'n', 's'] space)
            (written component [] (written label [] text ++ rest)) := by
    simp [written, attributeText]
  exact (hparts hopen hname hescape hend hclose).trans (hwritten _ _ _ _ _ _)

/-- **The text that sets a target power**, from the elements that it is made of. -/
theorem toList_targetText (name : String) (power : Float) :
    (targetText name (.float power)).toList
      = written "components".toList (spaceText platformSpace) (targetInner name power) := by
  have hconfig : "config".toList = _ := String.toList_ofList
  have hleaf : "target-output-power".toList = _ := String.toList_ofList
  have hopen : "<config><target-output-power>".toList
      = '<' :: ("config".toList ++ '>' :: '<' :: ("target-output-power".toList ++ ['>'])) := by
    rw [hconfig, hleaf]
    exact String.toList_ofList
  have hdisplay : (Json.float power).display = Numeral.floatText power := String.ofList_toList
  have hclose : "</target-output-power></config>".toList
      = '<' :: '/' :: ("target-output-power".toList ++ '>' :: '<' :: '/' :: ("config".toList ++ ['>'])) := by
    rw [hconfig, hleaf]
    exact String.toList_ofList
  have hparts {s t u : String} {a c : List Char} (hs : s.toList = a) (hu : u.toList = c) :
      (s ++ t ++ u).toList = a ++ (t.toList ++ c) := by
    simp only [String.toList_append, List.append_assoc, hs, hu]
  have hwritten (config leaf text : List Char) :
      '<' :: (config ++ '>' :: '<' :: (leaf ++ ['>']))
          ++ (text ++ '<' :: '/' :: (leaf ++ '>' :: '<' :: '/' :: (config ++ ['>'])))
        = written config [] (written leaf [] text) := by
    simp [written]
  rw [targetText, toList_componentText, toList_channelText, hdisplay, hparts hopen hclose, targetInner,
    hwritten]

theorem declarable_platformSpace : Declarable platformSpace :=
  declarable_of_letters String.toList_ofList (by decide) (by simp [platformSpace, xmlSpace])
    (by simp [platformSpace, xmlnsSpace])

theorem declarable_terminalSpace : Declarable terminalSpace :=
  declarable_of_letters String.toList_ofList (by decide) (by simp [terminalSpace, xmlSpace])
    (by simp [terminalSpace, xmlnsSpace])

theorem platformSpace_ne_empty : platformSpace ≠ "" := by
  simp [platformSpace]

theorem terminalSpace_ne_empty : terminalSpace ≠ "" := by
  simp [terminalSpace]

/-- No carriage return stands in a declaration. -/
theorem noReturn_spaceText {space : String} (h : Declarable space) : '\r' ∉ spaceText space :=
  noReturn_attributeText (by decide) fun hr => absurd (h.chars _ hr) (by decide)

/-- The name of an element where a namespace is the default one. -/
theorem defaultName_declared {space : String} (hspace : space ≠ "") (scope : Scope) (n : String) :
    defaultName (("", space) :: scope) n.toList = ⟨some space, n⟩ := by
  rw [defaultName, List.lookup_cons_self, if_neg (by simpa using hspace), String.ofList_toList]

/-- What stands inside the root is read as its one component, whatever else the scope binds. -/
theorem reads_targetInner (hname : ∀ c ∈ name.toList, isAllowed c = true) (power : Float)
    (scope : Scope) :
    Reads (("", platformSpace) :: scope) (targetInner name power) [componentElement name power] := by
  have hpower := (token_floatText power).verbatim.reads
    (isPlainName_names "target-output-power" (by simp)) (("", terminalSpace) :: ("", platformSpace) :: scope)
  have hchannel := reads_spaced (isPlainName_names "optical-channel" (by simp)) declarable_terminalSpace
    (reads_parent (isPlainName_names "config" (by simp)) hpower)
  have hleaf := @reads_leaf (("", platformSpace) :: scope) _ _ (isPlainName_names "name" (by simp)) hname
  have hcomponent := reads_parent (isPlainName_names "component" (by simp)) (reads_append hleaf hchannel)
  simp only [defaultName_declared platformSpace_ne_empty,
    defaultName_declared terminalSpace_ne_empty, String.ofList_toList]
    at hcomponent
  exact hcomponent

/-- What is sent has no carriage returns, unless the name has one. -/
theorem noReturn_targetInner (hname : '\r' ∉ name.toList) (power : Float) :
    '\r' ∉ targetInner name power := by
  have hnames := fun n hn =>
    noReturn_of_isWrittenName (isWrittenName_of_isPlainName (isPlainName_names n hn))
  have hpower : '\r' ∉ (Numeral.floatText power).toList := fun hr =>
    ((token_floatText power).verbatim _ hr).2.2 rfl
  have hnil : '\r' ∉ ([] : List Char) := List.not_mem_nil
  have hchannel := noReturn_written (hnames "optical-channel" (by simp))
    (noReturn_spaceText declarable_terminalSpace) (noReturn_written (hnames "config" (by simp)) hnil
      (noReturn_written (hnames "target-output-power" (by simp)) hnil hpower))
  refine noReturn_written (hnames "component" (by simp)) hnil ?_
  rw [List.mem_append, not_or]
  exact ⟨noReturn_written (hnames "name" (by simp)) hnil (noReturn_escaped hname), hchannel⟩

/-- **The text that sets a target power is a document** with one component, which has the name and the
power that were given. -/
theorem parse?_targetText (hname : ∀ c ∈ name.toList, isAllowed c = true ∧ c ≠ '\r') (power : Float) :
    parse? (targetText name (.float power)) = some (targetDocument name power) := by
  have hplain := isPlainName_names "components" (by simp)
  have hroot := parseChars_written (opens_spaced hplain declarable_platformSpace)
    (noReturn_targetInner (fun hr => (hname _ hr).2 rfl) power)
    (reads_targetInner (fun c hc => (hname c hc).1) power outerScope)
  have hopened : Frame.opened "components".toList (("", platformSpace) :: outerScope)
      = ⟨"components".toList, ⟨some platformSpace, "components"⟩, [],
        ("", platformSpace) :: outerScope, [], []⟩ := by
    rw [Frame.opened, defaultName_declared platformSpace_ne_empty]
  have hspace : attributesText [(['x', 'm', 'l', 'n', 's'], platformSpace.toList)]
      = spaceText platformSpace := List.append_nil _
  rw [hopened, hspace] at hroot
  rw [parse?, toList_targetText]
  exact hroot

/-- The text can be put between the parts of any element, where it reads as the same document. -/
theorem inserts_targetText (hname : ∀ c ∈ name.toList, isAllowed c = true ∧ c ≠ '\r')
    (power : Float) :
    Inserts (targetText name (.float power)).toList [targetDocument name power] where
  reads := fun scope => by
    have hplain := isPlainName_names "components" (by simp)
    have hspaced := reads_spaced hplain declarable_platformSpace
      (reads_targetInner (fun c hc => (hname c hc).1) power scope)
    rw [defaultName_declared platformSpace_ne_empty] at hspaced
    rw [toList_targetText]
    exact hspaced
  head := by
    rw [toList_targetText]
    rfl
  noReturn := by
    rw [toList_targetText]
    exact noReturn_written
      (noReturn_of_isWrittenName (isWrittenName_of_isPlainName (isPlainName_names _ (by simp))))
      (noReturn_spaceText declarable_platformSpace)
      (noReturn_targetInner (fun hr => (hname _ hr).2 rfl) power)
  nonempty := List.cons_ne_nil _ _

/-- The document has one list of components, one component in it, and one name in this. -/
theorem allNamed_targetDocument (name : String) (power : Float) :
    (targetDocument name power).allNamed "components" = [targetDocument name power] ∧
      (targetDocument name power).allNamed "component" = [componentElement name power] ∧
      (componentElement name power).childrenNamed "name" = [nameElement name] := by
  refine ⟨?_, ?_, ?_⟩
  · simp [targetDocument, componentElement, nameElement, channelElement, Element.allNamed,
      Element.inOrder, Element.inOrderAll, Element.isNamed]
  · simp [targetDocument, componentElement, nameElement, channelElement, Element.allNamed,
      Element.inOrder, Element.inOrderAll, Element.isNamed]
  · simp [componentElement, nameElement, channelElement, Element.childrenNamed, Element.isNamed]

/-- Where this is the one list of components, the power is found in it. -/
theorem componentAt?_target {root : Element}
    (h : root.allNamed "components" = [targetDocument name power]) :
    componentAt? root Reading.target.path = some (Numeral.floatText power) := by
  have hreach : Element.reach [targetDocument name power]
      ("component" :: Reading.target.path)
        = [⟨⟨some terminalSpace, "target-output-power"⟩, [], Numeral.floatText power, []⟩] := by
    simp [targetDocument, componentElement, nameElement, channelElement, Reading.target,
      Element.reach, Element.childrenNamed, Element.isNamed]
  rw [componentAt?, h]
  simp only [List.head?_cons, Element.textAt?, hreach, Option.bind_some]
  exact (token_floatText power).content? _

/-! ## Replies -/

/-- **A document with a place for another one**: it has no list of components itself. Elements of any
name and namespace may stand around the place. -/
structure Envelope (before after : String) : Prop where
  room : Room (fun n => n.localPart ≠ "components") before.toList
  document : ∃ root, parse? (before ++ after) = some root ∧ root.allNamed "components" = []

/-- The tags of an element that is no list of components itself, of any namespace, with a prefix or
without and with any attributes, have such a place between them. -/
theorem envelope_of_opens (h : Opens raw attributes f) (hf : f.name.localPart ≠ "components") :
    Envelope (String.ofList ('<' :: (raw ++ (attributesText attributes ++ ['>']))))
      (String.ofList ('<' :: '/' :: (raw ++ ['>']))) where
  room := by
    obtain ⟨hraw, hattributes⟩ := h.noReturn
    have hreturn : '\r' ∉ '<' :: (raw ++ (attributesText attributes ++ ['>'])) := by
      simp [hraw, hattributes]
    refine ⟨0, ⟨[f], none, false⟩, ?_, by simp, by simpa using hf⟩
    rw [String.toList_ofList, withoutMark_cons (by decide), unifyLineEnds_eq_self hreturn,
      run_rootTag h]
  document := by
    have hempty := parseChars_written h List.not_mem_nil (reads_nil _)
    refine ⟨⟨f.name, f.attributes, "", []⟩, ?_, ?_⟩
    · rw [parse?, String.toList_append, String.toList_ofList, String.toList_ofList]
      simpa [written] using hempty
    · rw [Element.allNamed_of_not_isNamed (beq_eq_false_iff_ne.mpr hf)]
      rfl

/-- **A reply gives a text back**: it is the text alone, or the text in its place in another
document. -/
inductive GivesBack (text : String) : String → Prop
  | alone : GivesBack text text
  | inside {before after : String} (h : Envelope before after) :
      GivesBack text (before ++ text ++ after)

/-- A text inside an element that declares the namespace of its own prefix. -/
def enclosed (p n space text : String) : String :=
  String.ofList ('<' :: (p.toList ++ ':' :: n.toList
      ++ (attributesText [(['x', 'm', 'l', 'n', 's'] ++ ':' :: p.toList, space.toList)] ++ ['>'])))
    ++ text ++ String.ofList ('<' :: '/' :: (p.toList ++ ':' :: n.toList ++ ['>']))

/-- A data element gives back what it encloses, whatever its namespace and its prefix are. -/
theorem givesBack_enclosed {p space : String} (hp : isPlainName p.toList = true) (hxml : p ≠ "xml")
    (hxmlns : p ≠ "xmlns") (hspace : Declarable space) (hne : space ≠ "") (text : String) :
    GivesBack text (enclosed p "data" space text) := by
  have hdata : isPlainName "data".toList = true := by
    rw [String.toList_ofList]
    decide
  have hlocal : String.ofList "data".toList ≠ "components" := by simp
  have hself : String.ofList p.toList = p := String.ofList_toList
  rw [← hself] at hxml hxmlns
  exact .inside (envelope_of_opens (opens_prefixed hp hdata hxml hxmlns hspace hne) hlocal)

/-- What gives the text of a target power back is a document with its list of components and no
other. -/
theorem exists_document_of_givesBack (hname : ∀ c ∈ name.toList, isAllowed c = true ∧ c ≠ '\r')
    (h : GivesBack (targetText name (.float power)) reply) :
    ∃ root, parse? reply = some root ∧ root.allNamed "components" = [targetDocument name power] := by
  have hown := (allNamed_targetDocument name power).1
  cases h with
  | alone => exact ⟨_, parse?_targetText hname power, hown⟩
  | @inside before after henvelope =>
    obtain ⟨root, hroot, hnone⟩ := henvelope.document
    have hchars : parseChars (before.toList ++ after.toList) = some root := by
      rw [← String.toList_append]
      exact hroot
    -- the lists of components of the grown document are those of the envelope, with the inserted one
    obtain ⟨root', hroot', hgrows⟩ := parseChars_insert henvelope.room hchars
      (inserts_targetText hname power)
    obtain ⟨pre, post, hpre, hpost⟩ := hgrows.allNamed fun n hn => hn
    rw [hnone] at hpre
    obtain ⟨rfl, rfl⟩ := List.append_eq_nil_iff.mp hpre.symm
    refine ⟨root', ?_, ?_⟩
    · rw [parse?, String.toList_append, String.toList_append]
      exact hroot'
    · rw [hpost, List.flatMap_singleton, hown, List.nil_append, List.append_nil]

/-! ## Setting and reading -/

namespace Terminals

variable {t : Terminals} {device : String} {port : Int} {s : Site.State} {d : Device}

/-- A port with a component is set by one edit. -/
theorem messages_setTarget (hcomponent : t.componentOf device port = some name)
    (hserves : Serves s device d 1) (c : Component) (power : Json) :
    messages (t.setTarget device port c power) s
      = [.edit device "merge" (targetText name power)] := by
  obtain ⟨uses, u, hfound, hsends, -⟩ := hserves.exec_session?
  have hsession : Act.exec (sessionOf? device) s = (.ok (some { d with uses := uses }), u) := by
    rw [sessionOf?, exec_bind_ok hfound]
    rfl
  have hedit := exec_edit { d with uses := uses } device "merge" (targetText name power) u
  have hrun : ∃ v o, Act.exec (t.setTarget device port c power) s = (o, v) ∧
      Logs { u with events := u.events ++ [.edit device "merge" (targetText name power)] } v := by
    unfold setTarget
    rw [hcomponent]
    simp only
    rw [exec_bind_ok hsession]
    simp only
    rw [exec_bind_ok hedit]
    cases d.editFault with
    | some text => exact ⟨_, _, rfl, _, rfl⟩
    | none =>
      cases d.accepts with
      | true => exact ⟨_, _, rfl, Logs.refl _⟩
      | false =>
        -- the line about the refusal cannot always be written, but the edit has been sent by then
        simp only
        cases hlabel : c.label with
        | error f => exact ⟨_, _, rfl, Logs.refl _⟩
        | ok label => exact ⟨_, _, rfl, _, rfl⟩
  obtain ⟨v, o, hrun, hlogs⟩ := hrun
  exact ((hsends.trans (Sends.send u _)).logs hlogs).messages hrun

/-- What stands in the reply of a device is the target power. -/
theorem exec_target (hcomponent : t.componentOf device port = some name)
    (hserves : Serves s device d 1)
    (hanswer : d.answer? (filterText name Reading.target.inner) = some reply) {root : Element}
    (hroot : parse? reply = some root) {text : String}
    (htext : componentAt? root Reading.target.path = some text)
    (hpower : Numeral.floatOf text = some power) :
    ∃ u, Act.exec (t.target device port) s = (.ok (some power), u) := by
  have hanswers : AnswersInText s device (filterText name Reading.target.inner) := fun e he _ =>
    ⟨reply, Device.reply_of_answer? (by
      rw [← Device.answer?_answers, he.answers_eq hserves, Device.answer?_answers, hanswer])⟩
  obtain ⟨found, u, hdocument, -, hfound⟩ := exec_document? hcomponent Reading.target.inner hanswers
  obtain rfl := (hfound root).mpr ⟨d, hserves, by rw [documentIn, hanswer]; exact hroot⟩
  refine ⟨u, ?_⟩
  rw [target, read, exec_bind_ok hdocument]
  simp only [htext, hpower]
  rfl

/-- **A target power reads back.** What is sent to set it is a document with one component of exactly the
name that the port has, and a device that gives this document back, alone or inside another one, is read
as having the power, whatever power it is. -/
theorem target_reads_back (hcomponent : t.componentOf device port = some name)
    (hname : ∀ c ∈ name.toList, isAllowed c = true ∧ c ≠ '\r') (power : Float) :
    (∀ s d c, Serves s device d 1 → messages (t.setTarget device port c (.float power)) s
        = [.edit device "merge" (targetText name (.float power))]) ∧
      (∃ root component label, parse? (targetText name (.float power)) = some root ∧
        root.allNamed "component" = [component] ∧ component.childrenNamed "name" = [label] ∧
        label.text = name) ∧
      ∀ s d reply, Serves s device d 1 → d.answer? (filterText name Reading.target.inner) = some reply →
        GivesBack (targetText name (.float power)) reply →
        ∃ u, Act.exec (t.target device port) s = (.ok (some power), u) := by
  obtain ⟨-, hone, hlabel⟩ := allNamed_targetDocument name power
  refine ⟨fun s d c hserves => messages_setTarget hcomponent hserves c _,
    ⟨_, _, _, parse?_targetText hname power, hone, hlabel, rfl⟩, ?_⟩
  intro s d reply hserves hanswer hback
  obtain ⟨root, hroot, hcomponents⟩ := exists_document_of_givesBack hname hback
  exact exec_target hcomponent hserves hanswer hroot (componentAt?_target hcomponents)
    (Numeral.floatOf_floatText power)

/-- Terminal devices of which each port belongs to a component with markup in its name. -/
def markedTerminals : Terminals :=
  ⟨fun _ _ => some "och <1> & ]]>", none⟩

/-- A power of a component with markup in its name is sent as a document with this name, and reads back
from inside a data element. -/
theorem target_reads_back_enclosed :
    let text := targetText "och <1> & ]]>" (.float (-2.5))
    let reply := enclosed "nc" "data" CrossConnect.editSpace text
    let s : Site.State := .ofDevices [("tx", transponder reply)]
    messages (markedTerminals.setTarget "tx" 1 (.direction .all) (.float (-2.5))) s
        = [.edit "tx" "merge" text] ∧
      (∃ root component label, parse? text = some root ∧ root.allNamed "component" = [component] ∧
        component.childrenNamed "name" = [label] ∧ label.text = "och <1> & ]]>") ∧
      ∃ u, Act.exec (markedTerminals.target "tx" 1) s = (.ok (some (-2.5)), u) := by
  intro text reply s
  have hcomponent : markedTerminals.componentOf "tx" 1 = some "och <1> & ]]>" := rfl
  have hchars : "och <1> & ]]>".toList.all (fun c => isAllowed c && c != '\r') = true := by
    rw [String.toList_ofList]
    decide
  have hname : ∀ c ∈ "och <1> & ]]>".toList, isAllowed c = true ∧ c ≠ '\r' := by
    simpa using List.all_eq_true.mp hchars
  have hplain : isPlainName "nc".toList = true := by
    rw [String.toList_ofList]
    decide
  have hspace : Declarable CrossConnect.editSpace :=
    declarable_of_letters String.toList_ofList (by decide) (by simp [CrossConnect.editSpace, xmlSpace])
      (by simp [CrossConnect.editSpace, xmlnsSpace])
  have hback : GivesBack text reply := givesBack_enclosed hplain (by decide) (by decide) hspace
    (by simp [CrossConnect.editSpace]) text
  have hserves : Serves s "tx" (transponder reply) 1 := ⟨none, rfl, by simp⟩
  obtain ⟨hsent, hdocument, hread⟩ := Terminals.target_reads_back hcomponent hname (-2.5)
  exact ⟨hsent s _ _ hserves, hdocument, hread s _ _ hserves rfl hback⟩

end Terminals

end Lightpath.Power
