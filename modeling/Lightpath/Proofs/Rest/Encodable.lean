import Lightpath.Proofs.CrossConnect.Listing
import Lightpath.Proofs.CrossConnect.OrderHistory
import Lightpath.Proofs.Form.Accepted
import Lightpath.Proofs.Json.Equality
import Lightpath.Proofs.Spectrum.OrderedSlot

/-!
# Which accepted requests have a slot

A request for a cross-connect is accepted when its frequency is above zero and its width is not at or below
zero. The width is then multiplied and cut to whole Hz, and this needs a finite number. What is not a number
is accepted, since it is not at or below anything, and so are an infinite width and one whose product is too
large. Main statement: these are the accepted requests that have no slot, and they are answered with 500
(`encodes_iff`).
-/

namespace Lightpath

open Lightpath.Site Lightpath.Controller Lightpath.Numeral Lightpath.Spectrum

/-! ## Orders that have a slot -/

namespace CrossConnect

variable {r : Reconciler} {type : DeviceType}

/-- Adding a cross-connect that has a slot does not fail, whatever the device says. -/
theorem exec_add_ok {w : Wish} {c : Connection} (hw : w.connection? = some c)
    (ht : r.typeOf w.device none = .ok type) (s : State) :
    ∃ added t, Act.exec (w.order.add r) s = (.ok added, t) := by
  cases hf : type.isFullBand with
  | true =>
    obtain ⟨lines, hadd⟩ := exec_add_fullBand ⟨type, ht, hf⟩ hw s
    exact ⟨_, _, hadd⟩
  | false =>
    obtain ⟨applied, t, es, happly, -, -⟩ := Reconciler.exec_reconcile_course
      (Reconciler.onlyLogs_tellCreation r w.device) w.device "merge" (r.creation type) [c.rule] s
    rw [← Reconciler.exec_apply ht hf] at happly
    rw [Order.add, Wish.rule_order hw, Wish.device_order, exec_bind_ok (exec_yield_ok _ s),
      exec_bind_ok happly]
    rcases applied with _ | _ | ⟨rule, rest⟩
    · exact ⟨_, _, rfl⟩
    · exact ⟨_, _, rfl⟩
    · exact ⟨_, _, rfl⟩

/-- Dropping one that has a slot fails only on a device that switches and that cannot be listed. -/
theorem exec_drop_ok {o : Order} {slot : Slot} (hslot : o.slot = .ok slot)
    (ht : r.typeOf o.device none = .ok type) {s : State}
    (hlists : type.isFullBand = true ∨ ¬ r.Trips s o.device) :
    ∃ dropped t, Act.exec (o.drop r) s = (.ok dropped, t) := by
  cases hf : type.isFullBand with
  | false =>
    rw [hf] at hlists
    exact (Order.exec_drop_ok_iff ht hf hslot s).mpr (hlists.resolve_left (by decide))
  | true =>
    rw [Order.drop, hslot, exec_bind_ok (exec_yield_ok slot s),
      exec_bind_ok (Reconciler.exec_query_fullBand ht hf s)]
    simp only
    cases ((s.table.rules o.device).map fun rule => (⟨rule, .added⟩ : Entry)).find? fun e =>
        o.fits slot e.rule with
    | none => exact ⟨_, _, rfl⟩
    | some e =>
      simp only
      rw [exec_bind_ok (Reconciler.exec_remove_fullBand ht hf [e.rule] s)]
      exact ⟨_, _, rfl⟩

end CrossConnect

/-! ## Requests -/

namespace Rest

open CrossConnect

namespace CrossConnectRequest

variable {r : CrossConnectRequest} {body : Json}

/-- The width in Hz that is asked for, with its fraction. -/
def widthHz (r : CrossConnectRequest) : Float :=
  r.slotWidthGHz * hzPerGHz

/-- This width is a finite number. -/
def FiniteWidth (r : CrossConnectRequest) : Prop :=
  (parts r.widthHz).isFinite = true

instance (r : CrossConnectRequest) : Decidable r.FiniteWidth :=
  inferInstanceAs (Decidable ((parts r.widthHz).isFinite = true))

/-- What is wished for. -/
def wish (r : CrossConnectRequest) : Wish :=
  ⟨r.device, r.srcPort, r.dstPort, .int r.frequencyMHz, .float r.slotWidthGHz⟩

/-- A request wishes for what it orders. -/
theorem order_wish (r : CrossConnectRequest) : r.wish.order = r.order := rfl

/-- **Which bodies are accepted.** A width that is no number at all is not at or below zero. -/
theorem check_eq_ok_iff :
    check body = .ok r ↔ ∃ fields, body = .obj fields ∧
      Form.Fields.required fields "device_id" Form.text = .ok r.device ∧
      Form.Fields.required fields "src_port" Form.whole = .ok r.srcPort ∧
      Form.Fields.required fields "dst_port" Form.whole = .ok r.dstPort ∧
      (Form.Fields.required fields "frequency_mhz" Form.whole = .ok r.frequencyMHz ∧
        0 < r.frequencyMHz) ∧
      Form.Fields.required fields "slot_width_ghz" Form.real = .ok r.slotWidthGHz ∧
        ¬ r.slotWidthGHz ≤ 0 := by
  rw [check, Form.record_eq_ok_iff]
  simp only [Form.Checked.seq_eq_ok_iff, Form.Checked.map_eq_ok_iff,
    Form.Fields.required_ensure_eq_ok_iff, decide_eq_true_eq, Bool.not_eq_true', decide_eq_false_iff_not]
  constructor
  · rintro ⟨fields, rfl, -, ⟨-, ⟨-, ⟨-, ⟨device, hdevice, rfl⟩, src, hsrc, rfl⟩, dst, hdst, rfl⟩,
      mhz, hmhz, rfl⟩, ghz, hghz, rfl⟩
    exact ⟨fields, rfl, hdevice, hsrc, hdst, hmhz, hghz⟩
  · rintro ⟨fields, rfl, hdevice, hsrc, hdst, hmhz, hghz⟩
    exact ⟨fields, rfl, _, ⟨_, ⟨_, ⟨_, ⟨_, hdevice, rfl⟩, _, hsrc, rfl⟩, _, hdst, rfl⟩, _, hmhz, rfl⟩,
      _, hghz, rfl⟩

/-- An accepted request has a slot when its width is a finite number of Hz. -/
theorem exists_slot_iff (h : check body = .ok r) :
    (∃ slot, r.order.slot = .ok slot) ↔ r.FiniteWidth := by
  obtain ⟨-, -, -, -, -, -, -, hwidth⟩ := check_eq_ok_iff.mp h
  exact exists_ofOrder_iff r.frequencyMHz hwidth

/-- A width that is not finite in GHz is not finite in Hz. -/
theorem FiniteWidth.isFinite (h : r.FiniteWidth) : (parts r.slotWidthGHz).isFinite = true := by
  by_contra hnot
  have hproduct := isFinite_mul_of_not_isFinite (Bool.eq_false_of_not_eq_true hnot) hzPerGHz
  rw [FiniteWidth, widthHz, hproduct] at h
  exact absurd h (by decide)

/-- A width that is not too large is finite in Hz. -/
theorem finiteWidth_of_le (h : check body = .ok r) (hle : r.slotWidthGHz ≤ roomyGHz) :
    r.FiniteWidth := by
  obtain ⟨-, -, -, -, -, -, -, hwidth⟩ := check_eq_ok_iff.mp h
  exact isFinite_of_le_roomyGHz hwidth hle

end CrossConnectRequest

section Requests

variable {settings : Settings} {services : Services} {request : Request} {r : CrossConnectRequest}
  {s : State} {status : Nat}

/-- A request to add is answered by the outcome of its order. -/
theorem answersWith_addCrossConnect_iff (hroute : Route.ofAddress request.address = some .addCrossConnect)
    (hmethod : request.method.map Char.toUpper = "POST")
    (hr : carried? CrossConnectRequest.check request = some r) :
    AnswersWith settings (some services) request s status
      ↔ statusOf 502 201 (Act.exec (r.order.add services.reconciler) s).1 = status := by
  rw [answersWith_record_iff hroute hmethod rfl hr, ← status_settled_orRefuse _ 502 201
    ("Device " ++ r.device ++ " did not accept the cross-connect") Rule.toJson]
  rfl

/-- A request to drop is answered by the outcome of its order. -/
theorem answersWith_dropCrossConnect_iff
    (hroute : Route.ofAddress request.address = some .dropCrossConnect)
    (hmethod : request.method.map Char.toUpper = "POST")
    (hr : carried? CrossConnectRequest.check request = some r) :
    AnswersWith settings (some services) request s status
      ↔ statusOf 404 200 (Act.exec (r.order.drop services.reconciler) s).1 = status := by
  rw [answersWith_record_iff hroute hmethod rfl hr, ← status_settled_orRefuse _ 404 200
    ("No matching cross-connect on " ++ r.device) Rule.toJson]
  rfl

/-- A request whose width is not a finite number of Hz is given up before anything is done. -/
theorem answersWith_of_not_finiteWidth {body : Json} (h : CrossConnectRequest.check body = .ok r)
    (hwidth : ¬ r.FiniteWidth) (hbody : bodyOf request = .ok body)
    (hroute : Route.ofAddress request.address = some .addCrossConnect ∨
      Route.ofAddress request.address = some .dropCrossConnect)
    (hmethod : request.method.map Char.toUpper = "POST") :
    AnswersWith settings (some services) request s 500 := by
  obtain ⟨fields, hobj, -⟩ := CrossConnectRequest.check_eq_ok_iff.mp h
  have hr := carried?_of_bodyOf hbody ⟨fields, hobj⟩ h
  cases hslot : r.wish.order.slot with
  | ok slot => exact absurd ((CrossConnectRequest.exists_slot_iff h).mp ⟨slot, hslot⟩) hwidth
  | error f =>
    rcases hroute with hroute | hroute
    · rw [answersWith_addCrossConnect_iff hroute hmethod hr, ← r.order_wish, exec_add_of_no_slot hslot]
      rfl
    · rw [answersWith_dropCrossConnect_iff hroute hmethod hr, ← r.order_wish,
        exec_drop_of_no_slot hslot]
      rfl

/-- **Which accepted requests cannot be encoded.** An accepted request has a slot when its width is a finite
number of Hz; this is so up to `2 ^ 992` GHz, and never when the width is not finite in GHz. With a slot the
request to add is answered with 201 or 502 whatever the device does, and the request to drop with 200 or 404
unless the device switches and cannot be listed. Without one both are answered with 500. -/
theorem encodes_iff {body : Json} (h : CrossConnectRequest.check body = .ok r) :
    ((∃ slot, r.order.slot = .ok slot) ↔ r.FiniteWidth) ∧
      (r.slotWidthGHz ≤ roomyGHz → r.FiniteWidth) ∧
      (r.FiniteWidth → (parts r.slotWidthGHz).isFinite = true) ∧
      ∀ (settings : Settings) (services : Services) (request : Request) (type : DeviceType) (s : State),
        bodyOf request = .ok body → request.method.map Char.toUpper = "POST" →
        services.reconciler.typeOf r.device none = .ok type →
        (Route.ofAddress request.address = some .addCrossConnect →
          (r.FiniteWidth → AnswersWith settings (some services) request s 201 ∨
            AnswersWith settings (some services) request s 502) ∧
          (¬ r.FiniteWidth → AnswersWith settings (some services) request s 500)) ∧
        (Route.ofAddress request.address = some .dropCrossConnect →
          (r.FiniteWidth → type.isFullBand = true ∨ ¬ services.reconciler.Trips s r.device →
            AnswersWith settings (some services) request s 200 ∨
              AnswersWith settings (some services) request s 404) ∧
          (¬ r.FiniteWidth → AnswersWith settings (some services) request s 500)) := by
  have hencodes := CrossConnectRequest.exists_slot_iff h
  refine ⟨hencodes, CrossConnectRequest.finiteWidth_of_le h, CrossConnectRequest.FiniteWidth.isFinite, ?_⟩
  intro settings services request type s hbody hmethod ht
  obtain ⟨fields, hobj, -⟩ := CrossConnectRequest.check_eq_ok_iff.mp h
  have hr := carried?_of_bodyOf hbody ⟨fields, hobj⟩ h
  refine ⟨fun hroute => ⟨fun hwidth => ?_, fun hwidth => ?_⟩,
    fun hroute => ⟨fun hwidth hlists => ?_, fun hwidth => ?_⟩⟩
  · obtain ⟨slot, hslot⟩ := hencodes.mpr hwidth
    have hwish : r.wish.connection? = some ⟨r.device, r.srcPort, r.dstPort, slot⟩ :=
      Wish.connection?_eq_some_iff.mpr ⟨rfl, rfl, rfl, hslot⟩
    obtain ⟨added, t, hadd⟩ := exec_add_ok hwish ht s
    simp only [answersWith_addCrossConnect_iff hroute hmethod hr]
    exact statusOf_ok ⟨added, congrArg Prod.fst hadd⟩
  · exact answersWith_of_not_finiteWidth h hwidth hbody (Or.inl hroute) hmethod
  · obtain ⟨slot, hslot⟩ := hencodes.mpr hwidth
    obtain ⟨dropped, t, hdrop⟩ := exec_drop_ok hslot ht hlists
    simp only [answersWith_dropCrossConnect_iff hroute hmethod hr]
    exact statusOf_ok ⟨dropped, congrArg Prod.fst hdrop⟩
  · exact answersWith_of_not_finiteWidth h hwidth hbody (Or.inr hroute) hmethod

end Requests

/-! ## Widths of a line degree -/

/-- A body with a width. -/
def bodyWith (width : Json) : Json :=
  .obj [("device_id", .str "r"), ("src_port", .int 1), ("dst_port", .int 100),
    ("frequency_mhz", .int 193100000), ("slot_width_ghz", width)]

/-- The request that it is when it is accepted. -/
def requestWith (ghz : Float) : CrossConnectRequest :=
  ⟨"r", 1, 100, 193100000, ghz⟩

/-- A body with a width that is a number above zero passes the check. -/
theorem check_bodyWith {width : Json} {ghz : Float} (h : Form.real width = .ok ghz) (hpos : ¬ ghz ≤ 0) :
    CrossConnectRequest.check (bodyWith width) = .ok (requestWith ghz) :=
  CrossConnectRequest.check_eq_ok_iff.mpr ⟨_, rfl, rfl, rfl, rfl,
    ⟨rfl, (by decide : (0 : Int) < 193100000)⟩,
    Form.Fields.required_eq_ok_iff.mpr ⟨width, rfl, h⟩, hpos⟩

/-- A request to add or to drop a cross-connect with a width. -/
def postWith (address width : String) : Request :=
  ⟨"post", address, some ("\x7b\"device_id\":\"r\",\"src_port\":1,\"dst_port\":100,"
    ++ "\"frequency_mhz\":193100000,\"slot_width_ghz\":" ++ width ++ "\x7d")⟩

theorem ofAddress_xc : Route.ofAddress "/api/v1/xc" = some .addCrossConnect := by
  decide +kernel

theorem ofAddress_drop : Route.ofAddress "/api/v1/xc/drop" = some .dropCrossConnect := by
  decide +kernel

/-- The body of a request does not depend on its address. -/
theorem bodyOf_postWith {width : String} {v : Json}
    (h : (bodyOf (postWith "/" width)).toOption = some v) (address : String) :
    bodyOf (postWith address width) = .ok v := by
  have hsame : bodyOf (postWith address width) = bodyOf (postWith "/" width) := by
    simp only [bodyOf, postWith]
  rw [hsame]
  exact Outcome.eq_ok_of_toOption h

/-- A width of 50 GHz is encoded. -/
theorem encodes_iff_fifty :
    (∃ slot, (requestWith (nearestWhole 50)).order.slot = .ok slot) ∧
      (AnswersWith Engine.laboratory (some lineServices) (postWith "/api/v1/xc" "50")
          (lineSite overlapReply) 201 ∨
        AnswersWith Engine.laboratory (some lineServices) (postWith "/api/v1/xc" "50")
          (lineSite overlapReply) 502) ∧
      (AnswersWith Engine.laboratory (some lineServices) (postWith "/api/v1/xc/drop" "50")
          (lineSite overlapReply) 200 ∨
        AnswersWith Engine.laboratory (some lineServices) (postWith "/api/v1/xc/drop" "50")
          (lineSite overlapReply) 404) := by
  have hreal : Form.real (.int 50) = .ok (nearestWhole 50) := by
    have hwhole : Json.floatOfInt 50 = .ok (nearestWhole 50) := by
      rw [Json.floatOfInt, if_pos (by decide +kernel)]
    rw [Form.real, hwhole]
  obtain ⟨hslot, hroomy, -, hanswers⟩ := encodes_iff (check_bodyWith hreal (by decide +kernel))
  have hwidth : (requestWith (nearestWhole 50)).FiniteWidth := hroomy (by decide +kernel)
  have hbody (address : String) : bodyOf (postWith address "50") = .ok (bodyWith (.int 50)) :=
    bodyOf_postWith (by decide +kernel) address
  have hadd := (hanswers Engine.laboratory lineServices (postWith "/api/v1/xc" "50") .lineDegree
    (lineSite overlapReply) (hbody _) (by decide +kernel) rfl).1 ofAddress_xc
  have hdrop := (hanswers Engine.laboratory lineServices (postWith "/api/v1/xc/drop" "50") .lineDegree
    (lineSite overlapReply) (hbody _) (by decide +kernel) rfl).2 ofAddress_drop
  exact ⟨hslot.mpr hwidth, hadd.1 hwidth, hdrop.1 hwidth (Or.inr not_trips_overlapReply)⟩

/-- A request with a width is accepted, it has no slot, and to add it and to drop it is answered with 500. -/
structure Fails (width : String) (ghz : Float) : Prop where
  body : bodyOf (postWith "/" width) = .ok (bodyWith (.float ghz))
  accepted : CrossConnectRequest.check (bodyWith (.float ghz)) = .ok (requestWith ghz)
  noSlot : ¬ ∃ slot, (requestWith ghz).order.slot = .ok slot
  add : AnswersWith Engine.laboratory (some lineServices) (postWith "/api/v1/xc" width)
    (lineSite overlapReply) 500
  drop : AnswersWith Engine.laboratory (some lineServices) (postWith "/api/v1/xc/drop" width)
    (lineSite overlapReply) 500

/-- A width whose product with the Hz of a GHz is not finite fails. -/
theorem fails_of_not_isFinite {width : String} {ghz : Float}
    (h : (bodyOf (postWith "/" width)).toOption = some (bodyWith (.float ghz))) (hpos : ¬ ghz ≤ 0)
    (hproduct : (parts (ghz * hzPerGHz)).isFinite = false) : Fails width ghz := by
  have hchecked := @check_bodyWith (.float ghz) ghz rfl hpos
  have hwidth : ¬ (requestWith ghz).FiniteWidth := fun h => absurd (hproduct.symm.trans h) (by decide)
  have hbody := bodyOf_postWith h
  have hmethod : "post".map Char.toUpper = "POST" := by decide +kernel
  exact
    { body := hbody "/"
      accepted := hchecked
      noSlot := fun hslot => hwidth ((CrossConnectRequest.exists_slot_iff hchecked).mp hslot)
      add := answersWith_of_not_finiteWidth hchecked hwidth (hbody _) (Or.inl ofAddress_xc) hmethod
      drop := answersWith_of_not_finiteWidth hchecked hwidth (hbody _) (Or.inr ofAddress_drop) hmethod }

/-- **Requests that are accepted and cannot be encoded**: the width is not a number, or it is infinite, or it
is finite and too large. -/
theorem encoding_fails_notANumber :
    Fails "NaN" notANumber ∧ Fails "Infinity" (infinity false) ∧
      Fails "1e300" (nearestDecimal false 1 300) :=
  ⟨fails_of_not_isFinite (by decide +kernel) (by decide +kernel) (by decide +kernel),
    fails_of_not_isFinite (by decide +kernel) (by decide +kernel) (by decide +kernel),
    fails_of_not_isFinite (by decide +kernel) (by decide +kernel) (by decide +kernel)⟩

end Rest

end Lightpath
