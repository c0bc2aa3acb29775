import Lightpath.Proofs.CrossConnect.Unspaced
import Lightpath.Proofs.Power.Readings

/-!
# Readings without namespaces

Two sites whose devices answer with the same documents, but perhaps in other namespaces, cannot be told apart
by reading powers: step by step both readings do the same, see the same but for namespaces, and end in the
same way. Main statement: neither the plan nor the live branches nor the powers that are read depend on the
namespaces in a reply (`readings_ignore_namespaces`).
-/

namespace Lightpath.Site

variable {α β γ δ : Type}

/-! ## Sites with the same documents -/

/-- A device as it is seen without namespaces: what it does apart from its replies, and the documents in the
replies. -/
def Device.unspaced (d : Device) : Device × (String → Option (Option Xml.Element)) :=
  ({ d with reply := fun _ => none },
    fun filter => (d.reply filter).map fun text => (Xml.parse? text).map Xml.Element.unspaced)

/-- **The sites differ at most in the namespaces of what their devices reply.** -/
structure Respaced (s u : State) : Prop where
  devices : ∀ name, (OrderedMap.get? s.devices name).map Device.unspaced
    = (OrderedMap.get? u.devices name).map Device.unspaced
  rest : { s with devices := u.devices } = u

namespace Respaced

variable {s u : State}

/-- The messages are the same, -/
theorem events_eq (h : Respaced s u) : s.events = u.events := by
  have hrest := congrArg State.events h.rest
  exact hrest

/-- and so is the log. -/
theorem lines_eq (h : Respaced s u) : s.lines = u.lines := by
  have hrest := congrArg State.lines h.rest
  exact hrest

/-- A line is logged on both sites. -/
theorem log (h : Respaced s u) (l : Line) :
    Respaced { s with lines := s.lines ++ [l] } { u with lines := u.lines ++ [l] } where
  devices := h.devices
  rest := by
    rw [h.lines_eq]
    have hrest := congrArg (fun v : State => { v with lines := u.lines ++ [l] }) h.rest
    exact hrest

/-- A message is sent on both sites. -/
theorem send (h : Respaced s u) (e : Event) :
    Respaced { s with events := s.events ++ [e] } { u with events := u.events ++ [e] } where
  devices := h.devices
  rest := by
    rw [h.events_eq]
    have hrest := congrArg (fun v : State => { v with events := u.events ++ [e] }) h.rest
    exact hrest

end Respaced

/-- Two runs end in the same way: with values of a kind or with one failure, on sites that differ in
namespaces at most. -/
inductive SameEnd (R : α → β → Prop) : Outcome α × State → Outcome β × State → Prop
  | ok {a : α} {b : β} {s u : State} (hab : R a b) (h : Respaced s u) :
      SameEnd R (.ok a, s) (.ok b, u)
  | error (f : Failure) {s u : State} (h : Respaced s u) : SameEnd R (.error f, s) (.error f, u)

/-- **Two steps do the same** on sites that differ in namespaces at most. -/
def SameRun (R : α → β → Prop) (x : Act α) (y : Act β) : Prop :=
  ∀ s u, Respaced s u → SameEnd R (Act.exec x s) (Act.exec y u)

namespace SameRun

variable {R : α → β → Prop} {S : γ → δ → Prop}

theorem pure {a : α} {b : β} (h : R a b) : SameRun R (Pure.pure a) (Pure.pure b) :=
  fun _ _ hsu => .ok h hsu

theorem throw (R : α → β → Prop) (f : Failure) :
    SameRun R (MonadExcept.throw f : Act α) (MonadExcept.throw f : Act β) :=
  fun _ _ hsu => .error f hsu

/-- One step behind another is the same on both sites if both are. -/
theorem bind {x : Act α} {y : Act β} {f : α → Act γ} {g : β → Act δ} (h : SameRun R x y)
    (hf : ∀ a b, R a b → SameRun S (f a) (g b)) : SameRun S (x >>= f) (y >>= g) := by
  intro s u hsu
  have hfirst := h s u hsu
  rw [exec_bind, exec_bind]
  generalize Act.exec x s = p at hfirst ⊢
  generalize Act.exec y u = q at hfirst ⊢
  cases hfirst with
  | ok hab hends => exact hf _ _ hab _ _ hends
  | error f hends => exact .error f hends

/-- A line of the log, and then the same on both sites. -/
theorem log (level : Controller.LogLevel) (text : String) {x : Act γ} {y : Act δ} (h : SameRun S x y) :
    SameRun S (Site.log level text >>= fun _ => x) (Site.log level text >>= fun _ => y) := by
  intro s u hsu
  rw [exec_bind_ok (exec_log level text s), exec_bind_ok (exec_log level text u)]
  exact h _ _ (hsu.log _)

/-- A message, and then the same on both sites. -/
theorem send (e : Event) {x : Act γ} {y : Act δ} (h : SameRun S x y) :
    SameRun S (Site.send e >>= fun _ => x) (Site.send e >>= fun _ => y) := by
  intro s u hsu
  rw [exec_bind_ok (exec_send e s), exec_bind_ok (exec_send e u)]
  exact h _ _ (hsu.send e)

end SameRun

/-! ## Sessions -/

/-- Devices that are the same without namespaces have as many uses left, -/
theorem Device.uses_eq {d e : Device} (h : d.unspaced = e.unspaced) : d.uses = e.uses := by
  have huses := congrArg Device.uses (Prod.mk.inj h).1
  exact huses

/-- and they break in the same way. -/
theorem Device.readFault_eq {d e : Device} (h : d.unspaced = e.unspaced) :
    d.readFault = e.readFault := by
  have hfault := congrArg Device.readFault (Prod.mk.inj h).1
  exact hfault

/-- A use that is spent is spent on both sites. -/
theorem Respaced.spend {s u : State} (h : Respaced s u) {d e : Device} (hde : d.unspaced = e.unspaced)
    (device : String) (n : Option Nat) :
    Respaced { s with devices := OrderedMap.put s.devices device { d with uses := n } }
      { u with devices := OrderedMap.put u.devices device { e with uses := n } } where
  devices := by
    intro name
    by_cases hname : device = name
    · subst hname
      rw [OrderedMap.get?_put_self, OrderedMap.get?_put_self]
      have hspent (c : Device) : ({ c with uses := n } : Device).unspaced
          = ({ c.unspaced.1 with uses := n }, c.unspaced.2) := rfl
      rw [Option.map_some, Option.map_some, hspent, hspent, hde]
    · rw [OrderedMap.get?_put_of_ne _ _ hname, OrderedMap.get?_put_of_ne _ _ hname]
      exact h.devices name
  rest := congrArg (fun v : State =>
    { v with devices := OrderedMap.put u.devices device { e with uses := n } }) h.rest

/-- Look-ups find the same devices. -/
theorem sameRun_session? (device : String) :
    SameRun (Option.Rel fun d e => d.unspaced = e.unspaced) (session? device) (session? device) := by
  intro s u hsu
  have hfound := hsu.devices device
  rw [session?, exec_bind_ok (exec_get s), exec_bind_ok (exec_get u)]
  cases hd : OrderedMap.get? s.devices device with
  | none =>
    rw [hd, Option.map_none] at hfound
    rw [Option.map_eq_none_iff.mp hfound.symm]
    exact .ok .none hsu
  | some d =>
    rw [hd, Option.map_some] at hfound
    obtain ⟨e, he, hed⟩ := Option.map_eq_some_iff.mp hfound.symm
    rw [he]
    simp only
    rw [Device.uses_eq hed]
    cases d.uses with
    | none => exact .ok (.some hed.symm) hsu
    | some n =>
      cases n with
      | zero => exact .ok .none hsu
      | succ n => exact .ok (.some hed.symm) (hsu.spend hed.symm device (some n))

/-- Answers of a device that differ in namespaces at most. -/
inductive SameAnswer : Except String (Option String) → Except String (Option String) → Prop
  | fault (text : String) : SameAnswer (.error text) (.error text)
  | silence : SameAnswer (.ok none) (.ok none)
  | reply {x y : String} (h : Xml.SameDocument x y) : SameAnswer (.ok (some x)) (.ok (some y))

/-- Devices that are asked give such answers. -/
theorem sameRun_read {d e : Device} (h : d.unspaced = e.unspaced) (device filter : String) :
    SameRun SameAnswer (d.read device filter) (e.read device filter) := by
  rw [Device.read, Device.read, Device.readFault_eq h]
  refine SameRun.send _ ?_
  cases e.readFault with
  | some text => exact SameRun.pure (.fault text)
  | none =>
    refine SameRun.pure ?_
    have hreply := congrFun (Prod.mk.inj h).2 filter
    cases hx : d.reply filter with
    | none =>
      rw [hx, Option.map_none] at hreply
      rw [Option.map_eq_none_iff.mp hreply.symm]
      exact .silence
    | some x =>
      rw [hx, Option.map_some] at hreply
      obtain ⟨y, hy, hsame⟩ := Option.map_eq_some_iff.mp hreply.symm
      rw [hy]
      exact .reply hsame.symm

end Lightpath.Site

namespace Lightpath.Power

open Lightpath.Site Lightpath.Xml Lightpath.CrossConnect

/-! ## Documents -/

/-- What is reached in a document does not depend on its namespaces. -/
theorem componentAt?_unspaced (root : Element) (path : List String) :
    componentAt? root.unspaced path = componentAt? root path := by
  rw [componentAt?, componentAt?, Element.allNamed_unspaced, List.head?_map]
  cases (root.allNamed "components").head? with
  | none => rfl
  | some components => exact Element.textAt?_unspaced components ("component" :: path)

/-- Documents that differ in namespaces only have the same texts. -/
theorem componentAt?_congr {a b : Element} (h : a.unspaced = b.unspaced) (path : List String) :
    componentAt? a path = componentAt? b path := by
  rw [← componentAt?_unspaced a, h, componentAt?_unspaced]

namespace Terminals

/-- The same device is found on both sites. -/
theorem sameRun_sessionOf? (device : String) :
    SameRun (Option.Rel fun d e => d.unspaced = e.unspaced) (sessionOf? device) (sessionOf? device) := by
  refine (sameRun_session? device).bind fun a b hab => ?_
  cases hab with
  | none => exact SameRun.log .error _ (SameRun.pure .none)
  | some hde => exact SameRun.pure (.some hde)

/-- **The documents that two sites tell are the same but for their namespaces.** -/
theorem sameRun_document? (t : Terminals) (device : String) (port : Int) (inner : String) :
    SameRun (Option.Rel fun a b => a.unspaced = b.unspaced) (t.document? device port inner)
      (t.document? device port inner) := by
  unfold document?
  cases t.componentOf device port with
  | none => exact SameRun.pure .none
  | some name =>
    refine (sameRun_sessionOf? device).bind fun a b hab => ?_
    cases hab with
    | none => exact SameRun.pure .none
    | some hde =>
      refine (sameRun_read hde device _).bind fun answer answer' hanswer => ?_
      cases hanswer with
      | fault text => exact SameRun.log .error _ (SameRun.pure .none)
      | silence => exact SameRun.throw _ .wrongKind
      | @reply x y hxy =>
        rw [SameDocument] at hxy
        simp only
        cases hx : parse? x with
        | none =>
          rw [hx, Option.map_none] at hxy
          rw [Option.map_eq_none_iff.mp hxy.symm]
          exact SameRun.log .error _ (SameRun.pure .none)
        | some a =>
          rw [hx, Option.map_some] at hxy
          obtain ⟨b, hy, hba⟩ := Option.map_eq_some_iff.mp hxy.symm
          rw [hy]
          exact SameRun.pure (.some hba.symm)

/-! ## Powers -/

/-- A power is read in the same way. -/
theorem sameRun_power (t : Terminals) (device : String) (port : Int) (r : Reading) :
    SameRun Eq (t.read device port r) (t.read device port r) := by
  unfold read
  refine (sameRun_document? t device port r.inner).bind fun found found' hfound => ?_
  cases hfound with
  | none => exact SameRun.pure rfl
  | some hab =>
    simp only
    rw [componentAt?_congr hab]
    cases componentAt? _ r.path with
    | none => exact SameRun.pure rfl
    | some text =>
      simp only
      cases Numeral.floatOf text with
      | none => exact SameRun.log .warning _ (SameRun.pure rfl)
      | some power => exact SameRun.pure rfl

/-- The range of powers at the input is read in the same way, or fails in the same way. -/
theorem sameRun_inputRange (t : Terminals) (device : String) (port : Int) :
    SameRun Eq (t.inputRange device port) (t.inputRange device port) := by
  unfold inputRange
  refine (sameRun_document? t device port Reading.inputRange.inner).bind fun found found' hfound => ?_
  cases hfound with
  | none => exact SameRun.pure rfl
  | some hab =>
    simp only
    rw [componentAt?_congr hab, componentAt?_congr hab]
    cases componentAt? _ (Reading.inputRange.path ++ ["min"]) with
    | none => exact SameRun.pure rfl
    | some low =>
      cases componentAt? _ (Reading.inputRange.path ++ ["max"]) with
      | none => exact SameRun.pure rfl
      | some high =>
        simp only
        cases Numeral.floatOf low with
        | none => exact SameRun.throw _ .unreadable
        | some l =>
          cases Numeral.floatOf high with
          | none => exact SameRun.throw _ .unreadable
          | some h => exact SameRun.pure rfl

end Terminals

/-- **Reading a reply ignores the namespaces in it.** However the elements of a document are put into
namespaces, each by itself, an element has the name that stands behind the last closing brace of its written
one. Trees that differ in namespaces at most have the same plan, or fail to have one in the same way; they
have the same live branches, or fail to have any in the same way; and the same texts are reached in them. The
plan and the branches of replies with the same document are the same. On two sites whose devices reply with
the same documents the four readings of a power send and log the same, and yield the same power or end in the
same failure. -/
theorem readings_ignore_namespaces :
    (∀ (text : String) (root other e : Element) (n : String), parse? text = some root →
      other.unspaced = root.unspaced → e ∈ other.inOrder →
        e.isNamed n = (behindBrace e.name.written == n)) ∧
    (∀ a b : Element, a.unspaced = b.unspaced →
      Declaration.channels (Declaration.all a) = Declaration.channels (Declaration.all b) ∧
      (∀ front, Branch.all front a = Branch.all front b) ∧
      ∀ path, componentAt? a path = componentAt? b path) ∧
    (∀ x y : String, SameDocument x y →
      planOf x = planOf y ∧ ∀ front, branchesOf front x = branchesOf front y) ∧
    ∀ (t : Terminals) (device : String) (port : Int) (s u : Site.State), Respaced s u →
      SameEnd Eq (Act.exec (t.target device port) s) (Act.exec (t.target device port) u) ∧
      SameEnd Eq (Act.exec (t.output device port) s) (Act.exec (t.output device port) u) ∧
      SameEnd Eq (Act.exec (t.input device port) s) (Act.exec (t.input device port) u) ∧
      SameEnd Eq (Act.exec (t.inputRange device port) s) (Act.exec (t.inputRange device port) u) := by
  refine ⟨?_, ?_, ?_, ?_⟩
  · intro text root other e n hparse hother he
    exact isNamed_eq_behindBrace hparse hother he n
  · intro a b h
    refine ⟨?_, ?_, componentAt?_congr h⟩
    · rw [← Declaration.all_unspaced a, h, Declaration.all_unspaced]
    · intro front
      rw [← Branch.all_unspaced front a, h, Branch.all_unspaced]
  · intro x y h
    exact ⟨planOf_eq_of_sameDocument h, fun front => branchesOf_eq_of_sameDocument front h⟩
  · intro t device port s u h
    exact ⟨t.sameRun_power device port .target s u h, t.sameRun_power device port .output s u h,
      t.sameRun_power device port .input s u h, t.sameRun_inputRange device port s u h⟩

/-- The reply of a transponder that tells a target power, with some attributes in each of its elements. -/
def targetReply (attributes : String → List Char) : String :=
  String.ofList (("components" :: "component" :: Reading.target.path).foldr
    (fun name inner => Xml.written name.toList (attributes name) inner) ['1'])

/-- The declaration of a default namespace that has the name of the element. -/
def ownSpace (name : String) : List Char :=
  attributeText ['x', 'm', 'l', 'n', 's'] name.toList

/-- A site with one transponder that replies with a text. -/
def replySite (reply : String) : Site.State :=
  .ofDevices [("tx", transponder reply)]

/-- Two replies with the same document make two sites that differ in namespaces only. -/
theorem respaced_replySite {x y : String} (h : SameDocument x y) :
    Respaced (replySite x) (replySite y) where
  devices := by
    intro name
    show (OrderedMap.get? [("tx", transponder x)] name).map Device.unspaced
      = (OrderedMap.get? [("tx", transponder y)] name).map Device.unspaced
    have hdevice : (transponder x).unspaced = (transponder y).unspaced :=
      congrArg (fun document =>
        (({ transponder x with reply := fun _ => none } : Device), fun _ : String => some document)) h
    by_cases hname : "tx" = name
    · subst hname
      exact congrArg some hdevice
    · have hnone (d : Device) : OrderedMap.get? [("tx", d)] name = none := if_neg hname
      rw [hnone, hnone]
  rest := rfl

/-- A component with a text, in some namespace. -/
def componentIn (space : Option String) : Element :=
  ⟨⟨space, "components"⟩, [], "", [⟨⟨space, "component"⟩, [], "1", []⟩]⟩

/-- A transponder that puts each element into a namespace of its own tells the same target power as one that
does without namespaces; and an element is found behind a namespace with a brace in it. -/
theorem readings_ignore_namespaces_transponder :
    planOf (targetReply fun _ => []) = planOf (targetReply ownSpace) ∧
      SameEnd Eq (Act.exec (transponders.target "tx" 1) (replySite (targetReply fun _ => [])))
        (Act.exec (transponders.target "tx" 1) (replySite (targetReply ownSpace))) ∧
      (componentIn (some "a\x7db")).isNamed "components"
        = (behindBrace (componentIn (some "a\x7db")).name.written == "components") ∧
      componentAt? (componentIn (some "a\x7db")) [] = componentAt? (componentIn none) [] := by
  have hsame : SameDocument (targetReply fun _ => []) (targetReply ownSpace) := by
    rw [SameDocument, parse?, parse?, targetReply, targetReply, String.toList_ofList,
      String.toList_ofList]
    decide +kernel
  have hparse : parse? (String.ofList (Xml.written "components".toList []
      (Xml.written "component".toList [] ['1']))) = some (componentIn none) := by
    rw [parse?, String.toList_ofList]
    decide +kernel
  have hspaces : (componentIn (some "a\x7db")).unspaced = (componentIn none).unspaced := rfl
  obtain ⟨hnames, htrees, hreplies, hpowers⟩ := readings_ignore_namespaces
  refine ⟨(hreplies _ _ hsame).1, (hpowers _ _ _ _ _ (respaced_replySite hsame)).1, ?_, ?_⟩
  · refine hnames _ _ _ _ "components" hparse hspaces ?_
    rw [componentIn, Element.inOrder]
    exact List.mem_cons_self
  · exact (htrees _ _ hspaces).2.2 []

end Lightpath.Power
