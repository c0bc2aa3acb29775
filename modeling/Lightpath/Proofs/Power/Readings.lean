import Lightpath.Proofs.Engine.LifeCycle
import Lightpath.Proofs.Xml.Reads

/-!
# Reading the powers of terminal devices

Each reading looks the session of the device up, asks for a part of the component of a port and reads a
number off the document in the reply. A device without a session, a broken session, a text that is no
document and a missing element all end in no power. A text that is no number ends in no power too, but only
for the three single powers: nothing looks at the two texts of a range before they are made numbers. Main
statement: `readings_answer_iff`.
-/

namespace Lightpath.Power

open Lightpath.Site Lightpath.Rest Lightpath.Controller

/-! ## Answers of a device -/

/-- What a device answers to a filter with is a text, if it can be read. -/
def TellsText (d : Device) (filter : String) : Prop :=
  d.readFault = none → ∃ reply, d.reply filter = some reply

/-- The session of a device answers to a filter with a text. -/
def AnswersInText (s : State) (device filter : String) : Prop :=
  ∀ d, Serves s device d 1 → TellsText d filter

/-- The document in the answer of a device to a filter. -/
def documentIn (d : Device) (filter : String) : Option Xml.Element :=
  (d.answer? filter).bind Xml.parse?

/-- From a site to another one a use of the session of a device is spent, if there is one. -/
def Ages (s u : State) (device : String) : Prop :=
  ∀ e n, Serves u device e (n + 1) ↔ Serves s device e (n + 2)

variable {s u : State} {device : String} {port : Int} {t : Terminals} {name : String}

/-- A use that is spent ages the session by one. -/
theorem Ages.of_spends {d : Device} (h : Spends s u device d) : Ages s u device :=
  fun e n => h.left e (n + 1)

/-- A session that is lost stays lost. -/
theorem Ages.of_lost (hlost : Lost s device) (hlogs : Logs s u) : Ages s u device := by
  obtain ⟨lines, rfl⟩ := hlogs
  intro e n
  refine iff_of_false ?_ fun h => hlost e (h.mono (Nat.le_add_left 1 (n + 1)))
  intro h
  exact hlost e (h.mono (Nat.le_add_left 1 n))

theorem Ages.logs {v : State} (h : Ages s u device) (hv : Logs u v) : Ages s v device := by
  obtain ⟨lines, rfl⟩ := hv
  exact h

/-- A device that answers in text goes on doing so. -/
theorem AnswersInText.ages {filter : String} (h : AnswersInText s device filter) (hu : Ages s u device) :
    AnswersInText u device filter :=
  fun d hd => h d (((hu d 0).mp hd).mono (Nat.le_succ 1))

/-! ## Documents -/

namespace Terminals

/-- The session of a terminal device is lost, or it is found and one use of it is spent. -/
theorem exec_sessionOf?_cases (device : String) (s : State) :
    (∃ u, Act.exec (sessionOf? device) s = (.ok none, u) ∧ Logs s u ∧ Lost s device) ∨
      ∃ d u, Act.exec (sessionOf? device) s = (.ok (some d), u) ∧
        OrderedMap.get? s.devices device = some d ∧ Spends s u device d := by
  obtain ⟨hnone, hlost⟩ | ⟨d, u, hfound, -, hd, hspends⟩ := exec_session?_cases s device
  · exact Or.inl ⟨_, by rw [sessionOf?, exec_bind_ok hnone]; rfl, ⟨_, rfl⟩, hlost⟩
  · exact Or.inr ⟨d, u, by rw [sessionOf?, exec_bind_ok hfound]; rfl, hd, hspends⟩

/-- **Asking for a component yields the document in the answer of the device** to the filter, or nothing if
there is none. -/
theorem exec_document? (hname : t.componentOf device port = some name) (inner : String)
    (htext : AnswersInText s device (filterText name inner)) :
    ∃ found u, Act.exec (t.document? device port inner) s = (.ok found, u) ∧ Ages s u device ∧
      ∀ root, found = some root
        ↔ ∃ d, Serves s device d 1 ∧ documentIn d (filterText name inner) = some root := by
  unfold document?
  rw [hname]
  simp only
  obtain ⟨u, hnone, hlogs, hlost⟩ | ⟨d, u, hfound, -, hspends⟩ := exec_sessionOf?_cases device s
  · refine ⟨none, u, by rw [exec_bind_ok hnone]; rfl, Ages.of_lost hlost hlogs, fun root => ?_⟩
    refine iff_of_false (by simp) ?_
    rintro ⟨d, hd, -⟩
    exact hlost d hd
  have honly : ∀ root, documentIn d (filterText name inner) = some root
      ↔ ∃ e, Serves s device e 1 ∧ documentIn e (filterText name inner) = some root := by
    intro root
    constructor
    · intro h
      exact ⟨d, hspends.serves, h⟩
    · rintro ⟨e, he, h⟩
      rwa [documentIn, ← Device.answer?_answers, hspends.serves.answers_eq he, Device.answer?_answers,
        ← documentIn]
  have hread := exec_read d device (filterText name inner) u
  rw [exec_bind_ok hfound]
  simp only
  rw [exec_bind_ok hread]
  cases hfault : d.readFault with
  | some text =>
    have hdocument : documentIn d (filterText name inner) = none := by
      rw [documentIn, Device.answer?, hfault]
      rfl
    refine ⟨none, _, rfl, Ages.of_spends (hspends.of_devices_eq rfl), fun root => ?_⟩
    rw [← honly, hdocument]
  | none =>
    obtain ⟨reply, hreply⟩ := htext d hspends.serves hfault
    have hdocument : documentIn d (filterText name inner) = Xml.parse? reply := by
      rw [documentIn, Device.answer?_of_readFault_none hfault, hreply]
      rfl
    rw [hreply]
    simp only [← honly, hdocument]
    cases Xml.parse? reply with
    | none => exact ⟨none, _, rfl, Ages.of_spends (hspends.of_devices_eq rfl), fun root => Iff.rfl⟩
    | some found => exact ⟨some found, _, rfl, Ages.of_spends (hspends.of_devices_eq rfl), fun root => Iff.rfl⟩

/-- A port without a component is not asked about. -/
theorem exec_document?_of_none (hname : t.componentOf device port = none) (inner : String) (s : State) :
    Act.exec (t.document? device port inner) s = (.ok none, s) := by
  unfold document?
  rw [hname]
  rfl

/-! ## Powers -/

/-- What is made of a document is a power or none. -/
theorem exec_read_of_document {found : Option Xml.Element} {r : Reading}
    (h : Act.exec (t.document? device port r.inner) s = (.ok found, u)) :
    ∃ power v, Act.exec (t.read device port r) s = (.ok power, v) ∧ Logs u v := by
  rw [read, exec_bind_ok h]
  cases found with
  | none => exact ⟨none, u, rfl, Logs.refl u⟩
  | some root =>
    simp only
    cases componentAt? root r.path with
    | none => exact ⟨none, u, rfl, Logs.refl u⟩
    | some text =>
      simp only
      cases Numeral.floatOf text with
      | some power => exact ⟨some power, u, rfl, Logs.refl u⟩
      | none => exact ⟨none, _, rfl, _, rfl⟩

/-- A reading of a port with a component uses the session once. -/
theorem exec_read_ages (hname : t.componentOf device port = some name) (r : Reading)
    (htext : AnswersInText s device (filterText name r.inner)) :
    ∃ power u, Act.exec (t.read device port r) s = (.ok power, u) ∧ Ages s u device := by
  obtain ⟨found, v, hdocument, hages, -⟩ := exec_document? hname r.inner htext
  obtain ⟨power, u, hread, hlogs⟩ := exec_read_of_document hdocument
  exact ⟨power, u, hread, hages.logs hlogs⟩

/-- **A reading of a single power never fails.** -/
theorem exec_read_total (t : Terminals) (port : Int) (r : Reading)
    (htext : ∀ filter, AnswersInText s device filter) :
    ∃ power u, Act.exec (t.read device port r) s = (.ok power, u) := by
  cases hname : t.componentOf device port with
  | none =>
    obtain ⟨power, u, hread, -⟩ := exec_read_of_document (exec_document?_of_none hname r.inner s)
    exact ⟨power, u, hread⟩
  | some name =>
    obtain ⟨power, u, hread, -⟩ := exec_read_ages hname r (htext _)
    exact ⟨power, u, hread⟩

/-! ## Ranges -/

/-- A document has both texts of the range of powers at the input, and one of them is no number. -/
def UnreadableRange (root : Xml.Element) : Prop :=
  ∃ low high, componentAt? root (Reading.inputRange.path ++ ["min"]) = some low ∧
    componentAt? root (Reading.inputRange.path ++ ["max"]) = some high ∧
    (Numeral.floatOf low = none ∨ Numeral.floatOf high = none)

/-- A port has a component, and in a look-up of its session, the first being number one, the device answers
with such a document when it is asked for the range of this component. -/
def RangeTrips (t : Terminals) (s : State) (device : String) (port : Int) (lookUp : Nat) : Prop :=
  ∃ name d root, t.componentOf device port = some name ∧ Serves s device d lookUp ∧
    documentIn d (filterText name Reading.inputRange.inner) = some root ∧ UnreadableRange root

/-- The next look-up is one look-up nearer. -/
theorem RangeTrips.ages_iff {n : Nat} (h : Ages s u device) :
    t.RangeTrips u device port (n + 1) ↔ t.RangeTrips s device port (n + 2) := by
  unfold RangeTrips
  simp only [h _ n]

/-- What is made of a document is a range or none, unless a text of the range is no number. -/
theorem exec_inputRange_of_document {found : Option Xml.Element}
    (h : Act.exec (t.document? device port Reading.inputRange.inner) s = (.ok found, u)) :
    (∃ range, Act.exec (t.inputRange device port) s = (.ok range, u) ∧
        ¬ ∃ root, found = some root ∧ UnreadableRange root) ∨
      Act.exec (t.inputRange device port) s = (.error .unreadable, u) ∧
        ∃ root, found = some root ∧ UnreadableRange root := by
  unfold inputRange
  simp only
  rw [exec_bind_ok h]
  cases found with
  | none => exact Or.inl ⟨none, rfl, by simp⟩
  | some root =>
    simp only [Option.some.injEq, exists_eq_left', UnreadableRange]
    cases componentAt? root (Reading.inputRange.path ++ ["min"]) with
    | none => exact Or.inl ⟨none, rfl, by simp⟩
    | some low =>
      cases componentAt? root (Reading.inputRange.path ++ ["max"]) with
      | none => exact Or.inl ⟨none, rfl, by simp⟩
      | some high =>
        simp only [Option.some.injEq, exists_eq_left', exists_and_left]
        cases Numeral.floatOf low with
        | none => exact Or.inr ⟨rfl, Or.inl rfl⟩
        | some l =>
          cases Numeral.floatOf high with
          | none => exact Or.inr ⟨rfl, Or.inr rfl⟩
          | some h => exact Or.inl ⟨some (l, h), rfl, by simp⟩

/-- Of a port with a component the range is a pair or none, unless the device trips. -/
theorem exec_inputRange_cases (hname : t.componentOf device port = some name)
    (htext : AnswersInText s device (filterText name Reading.inputRange.inner)) :
    (∃ range u, Act.exec (t.inputRange device port) s = (.ok range, u) ∧ ¬ t.RangeTrips s device port 1) ∨
      ∃ u, Act.exec (t.inputRange device port) s = (.error .unreadable, u) ∧
        t.RangeTrips s device port 1 := by
  obtain ⟨found, u, hdocument, -, hfound⟩ := exec_document? hname Reading.inputRange.inner htext
  have htrips : (∃ root, found = some root ∧ UnreadableRange root) ↔ t.RangeTrips s device port 1 := by
    simp only [hfound, RangeTrips, hname, Option.some.injEq]
    constructor
    · rintro ⟨root, ⟨d, hd, hroot⟩, hrange⟩
      exact ⟨name, d, root, rfl, hd, hroot, hrange⟩
    · rintro ⟨_, d, root, rfl, hd, hroot, hrange⟩
      exact ⟨root, ⟨d, hd, hroot⟩, hrange⟩
  obtain ⟨range, hrun, hnot⟩ | ⟨hrun, hyes⟩ := exec_inputRange_of_document hdocument
  · exact Or.inl ⟨range, u, hrun, fun h => hnot (htrips.mpr h)⟩
  · exact Or.inr ⟨u, hrun, htrips.mp hyes⟩

/-- A range is read, or there is none, unless the device trips. -/
theorem exec_inputRange_ok_iff (htext : ∀ filter, AnswersInText s device filter) :
    (∃ range u, Act.exec (t.inputRange device port) s = (.ok range, u)) ↔
      ¬ t.RangeTrips s device port 1 := by
  cases hname : t.componentOf device port with
  | none =>
    refine iff_of_true ?_ (by simp [RangeTrips, hname])
    have hdocument := exec_document?_of_none hname Reading.inputRange.inner s
    obtain ⟨range, hrun, -⟩ | ⟨-, root, hroot, -⟩ := exec_inputRange_of_document hdocument
    · exact ⟨range, s, hrun⟩
    · exact absurd hroot (by simp)
  | some name =>
    obtain ⟨range, u, hrun, hnot⟩ | ⟨u, hrun, htrips⟩ := exec_inputRange_cases hname (htext _)
    · exact iff_of_true ⟨range, u, hrun⟩ hnot
    · refine iff_of_false ?_ (not_not_intro htrips)
      rintro ⟨range, v, h⟩
      exact absurd (hrun.symm.trans h) (by simp)

/-! ## Requests -/

/-- The status of the reply about the powers of a port: no component, a range that cannot be read in the
fourth reply, or all of them. -/
theorem status_portPower (t : Terminals) (port : Int) (htext : ∀ filter, AnswersInText s device filter) :
    (t.componentOf device port = none →
        (settled (Act.exec (portPower t device port).run s).1).status = 404) ∧
      (t.RangeTrips s device port 4 →
        (settled (Act.exec (portPower t device port).run s).1).status = 500) ∧
      (t.componentOf device port ≠ none → ¬ t.RangeTrips s device port 4 →
        (settled (Act.exec (portPower t device port).run s).1).status = 200) := by
  cases hname : t.componentOf device port with
  | none =>
    refine ⟨fun _ => ?_, ?_, fun h => absurd rfl h⟩
    swap
    · rintro ⟨name, d, root, hsome, -⟩
      exact absurd (hname.symm.trans hsome) (by simp)
    have hrange : t.targetRange? device port = none := by rw [targetRange?, hname]; rfl
    rw [portPower, hrange]
    rfl
  | some name =>
    have hrange : t.targetRange? device port = some targetRange := by rw [targetRange?, hname]; rfl
    obtain ⟨target, u₁, htarget, h₁⟩ := exec_read_ages hname .target (htext _)
    obtain ⟨output, u₂, houtput, h₂⟩ := exec_read_ages hname .output ((htext _).ages h₁)
    obtain ⟨input, u₃, hinput, h₃⟩ := exec_read_ages hname .input (((htext _).ages h₁).ages h₂)
    -- each of the three readings before it uses the session once
    have hfourth : t.RangeTrips u₃ device port 1 ↔ t.RangeTrips s device port 4 :=
      (RangeTrips.ages_iff h₃).trans ((RangeTrips.ages_iff h₂).trans (RangeTrips.ages_iff h₁))
    have hrun : Act.exec (portPower t device port).run s
        = Act.exec (liftM (t.inputRange device port) >>= fun range => pure (accepted 200
          (PortPower.toJson ⟨device, port, target, output, input, some targetRange, range⟩)) :
            Handling Reply).run u₃ := by
      rw [portPower, hrange, orRefuse, pure_bind]
      exact (exec_run_bind_ok (exec_run_lift htarget) _).trans
        ((exec_run_bind_ok (exec_run_lift houtput) _).trans (exec_run_bind_ok (exec_run_lift hinput) _))
    refine ⟨fun h => absurd h (by simp), fun htrips => ?_, fun _ hnot => ?_⟩
    · obtain ⟨range, u, -, hnot⟩ | ⟨u, hfails, -⟩ :=
        exec_inputRange_cases hname ((((htext _).ages h₁).ages h₂).ages h₃)
      · exact absurd (hfourth.mpr htrips) hnot
      · rw [hrun, exec_run_bind_failed hfails]
        rfl
    · obtain ⟨range, u, hreads, -⟩ | ⟨u, -, htrips⟩ :=
        exec_inputRange_cases hname ((((htext _).ages h₁).ages h₂).ages h₃)
      · rw [hrun, exec_run_bind_ok (exec_run_lift hreads)]
        rfl
      · exact absurd (hfourth.mp htrips) hnot

/-- **The only reading that a text of a device can break is that of the range at the input.** Let the
session of a device answer with texts, break, or not be there. Then the target power and the powers at the
output and at the input are numbers or none. The range at the input is a pair or none unless the document in
the reply to its filter has both its texts and one of them is no number. The request for the powers of a port
does all four readings, each with its own filter: it is answered with 404 for a port without a component, and
else with 200 unless the fourth reply is of this kind. -/
theorem readings_answer_iff (t : Terminals) (port : Int)
    (htext : ∀ filter, AnswersInText s device filter) :
    (∃ power u, Act.exec (t.target device port) s = (.ok power, u)) ∧
      (∃ power u, Act.exec (t.output device port) s = (.ok power, u)) ∧
      (∃ power u, Act.exec (t.input device port) s = (.ok power, u)) ∧
      ((∃ range u, Act.exec (t.inputRange device port) s = (.ok range, u)) ↔
        ¬ t.RangeTrips s device port 1) ∧
      ∀ (settings : Settings) (services : Services) (request : Request) (text : String),
        services.terminals = some t → Route.ofAddress request.address = some (.portPower device text) →
        request.method.map Char.toUpper = "GET" → Form.whole (.str text) = .ok port →
        (t.componentOf device port = none → AnswersWith settings (some services) request s 404) ∧
        (t.RangeTrips s device port 4 → AnswersWith settings (some services) request s 500) ∧
        (t.componentOf device port ≠ none → ¬ t.RangeTrips s device port 4 →
          AnswersWith settings (some services) request s 200) := by
  refine ⟨exec_read_total t port .target htext, exec_read_total t port .output htext,
    exec_read_total t port .input htext, exec_inputRange_ok_iff htext, ?_⟩
  intro settings services request text hterminals hroute hmethod hport
  have hrun : onRoute settings (some services) request (.portPower device text)
      = portPower t device port := by
    rw [onRoute, needTerminals, needServices, orRefuse, pure_bind, hterminals, orRefuse, pure_bind, hport]
    rfl
  simp only [answersWith_iff hroute hmethod, hrun]
  exact status_portPower t port htext

end Terminals

/-! ## A transponder -/

/-- The reply of a device that tells the range of powers at an input. -/
def rangeReply (low high : String) : String :=
  String.ofList (["data", "components", "component", "optical-channel", "state", "input-power-range"].foldr
    (fun name inner => Xml.written name.toList [] inner)
    (Xml.written "min".toList [] low.toList ++ Xml.written "max".toList [] high.toList))

/-- A transponder that answers everything with a reply. -/
def transponder (reply : String) : Device :=
  ⟨fun _ => some reply, none, true, none, none⟩

theorem documentIn_transponder (reply filter : String) :
    documentIn (transponder reply) filter = Xml.parse? reply := rfl

/-- A site with one transponder that tells a range. -/
def transponderSite (low high : String) : State :=
  .ofDevices [("tx", transponder (rangeReply low high))]

/-- Terminal devices of which each port belongs to one component. -/
def transponders : Terminals :=
  ⟨fun _ _ => some "channel-1", none⟩

/-- The services of a laboratory with transponders. -/
def transponderServices : Services :=
  { Engine.laboratoryServices with terminals := some transponders }

/-- A request for the powers of the first port of the transponder. -/
def powerRequest : Request :=
  ⟨"GET", "/api/v1/devices/tx/ports/1/power", none⟩

theorem ofAddress_powerRequest :
    Route.ofAddress powerRequest.address = some (.portPower "tx" "1") := by
  decide +kernel

/-- The session of the transponder is always there. -/
theorem serves_transponderSite (low high : String) (n : Nat) :
    Serves (transponderSite low high) "tx" (transponder (rangeReply low high)) n :=
  ⟨none, rfl, by simp⟩

/-- The transponder answers in text. -/
theorem answersInText_transponderSite (low high filter : String) :
    AnswersInText (transponderSite low high) "tx" filter := by
  intro d hd hfault
  have hanswers := hd.answers_eq (serves_transponderSite low high 1)
  exact ⟨rangeReply low high, congrFun (congrArg Device.reply hanswers) filter⟩

/-- The range is read where it stands. -/
theorem rangeTrips_transponderSite_iff {low high : String} {n : Nat}
    (hread : (Xml.parse? (rangeReply low high)).map (fun root =>
        (componentAt? root (Reading.inputRange.path ++ ["min"]),
          componentAt? root (Reading.inputRange.path ++ ["max"]))) = some (some low, some high)) :
    transponders.RangeTrips (transponderSite low high) "tx" 1 n
      ↔ Numeral.floatOf low = none ∨ Numeral.floatOf high = none := by
  obtain ⟨root, hroot, hpair⟩ := Option.map_eq_some_iff.mp hread
  obtain ⟨hlow, hhigh⟩ := Prod.mk.inj hpair
  constructor
  · rintro ⟨name, d, root', -, hd, hdocument, low', high', hlow', hhigh', hfloat⟩
    rw [documentIn, ← Device.answer?_answers, hd.answers_eq (serves_transponderSite low high 1),
      Device.answer?_answers, ← documentIn, documentIn_transponder] at hdocument
    obtain rfl := Option.some.inj (hroot.symm.trans hdocument)
    rw [Option.some.inj (hlow.symm.trans hlow'), Option.some.inj (hhigh.symm.trans hhigh')]
    exact hfloat
  · intro hfloat
    exact ⟨_, _, root, rfl, serves_transponderSite low high n, (documentIn_transponder _ _).trans hroot,
      low, high, hlow, hhigh, hfloat⟩

/-- The powers of a transponder that tells numbers are read. -/
theorem readings_answer_iff_transponder :
    (∃ range u, Act.exec (transponders.inputRange "tx" 1) (transponderSite "-25" "0") = (.ok range, u)) ∧
      AnswersWith Engine.laboratory (some transponderServices) powerRequest (transponderSite "-25" "0")
        200 := by
  have hread : (Xml.parse? (rangeReply "-25" "0")).map (fun root =>
      (componentAt? root (Reading.inputRange.path ++ ["min"]),
        componentAt? root (Reading.inputRange.path ++ ["max"]))) = some (some "-25", some "0") := by
    rw [Xml.parse?, rangeReply, String.toList_ofList]
    decide +kernel
  have hnot (n : Nat) : ¬ transponders.RangeTrips (transponderSite "-25" "0") "tx" 1 n := by
    rw [rangeTrips_transponderSite_iff hread]
    rintro (h | h)
    · exact absurd (congrArg Option.isSome h) (by decide +kernel)
    · exact absurd (congrArg Option.isSome h) (by decide +kernel)
  obtain ⟨-, -, -, hrange, hrequest⟩ := Terminals.readings_answer_iff transponders 1
    (answersInText_transponderSite "-25" "0")
  refine ⟨hrange.mpr (hnot 1), ?_⟩
  exact (hrequest Engine.laboratory transponderServices powerRequest "1" rfl ofAddress_powerRequest
    (by decide +kernel) rfl).2.2 (by simp [transponders]) (hnot 4)

/-- **A transponder whose range is no numbers breaks the reading**, and the request for its powers is
answered with 500. -/
theorem inputRange_fails_worded :
    (∀ filter, AnswersInText (transponderSite "low" "high") "tx" filter) ∧
      ¬ (∃ range u, Act.exec (transponders.inputRange "tx" 1) (transponderSite "low" "high")
        = (.ok range, u)) ∧
      AnswersWith Engine.laboratory (some transponderServices) powerRequest (transponderSite "low" "high")
        500 := by
  have hread : (Xml.parse? (rangeReply "low" "high")).map (fun root =>
      (componentAt? root (Reading.inputRange.path ++ ["min"]),
        componentAt? root (Reading.inputRange.path ++ ["max"]))) = some (some "low", some "high") := by
    rw [Xml.parse?, rangeReply, String.toList_ofList]
    decide +kernel
  have htrips (n : Nat) : transponders.RangeTrips (transponderSite "low" "high") "tx" 1 n := by
    rw [rangeTrips_transponderSite_iff hread]
    refine Or.inl (Option.isNone_iff_eq_none.mp ?_)
    decide +kernel
  have htext := answersInText_transponderSite "low" "high"
  refine ⟨htext, ?_, ?_⟩
  · rw [Terminals.exec_inputRange_ok_iff htext]
    exact not_not_intro (htrips 1)
  · rw [answersWith_iff ofAddress_powerRequest (by decide +kernel)]
    exact (Terminals.status_portPower transponders 1 htext).2.1 (htrips 4)

end Lightpath.Power
