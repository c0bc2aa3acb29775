import Lightpath.Proofs.CrossConnect.Drop
import Lightpath.Proofs.CrossConnect.Quantisation
import Lightpath.Proofs.Engine.LifeCycle

/-!
# What can be listed

A reply is read with care: a text that is no document, an edge that is no number and a port that is none
all end in a listing of nothing. Behind the reading the slots of the channels are made, and this is where a
listing can fail: a channel whose upper edge lies a whole unit of width below its lower one has no slot.
Main statement: listing, its request and orders to drop fail on the replies that have a live branch of such
a channel, and on no other ones (`answers_listing_iff`).
-/

namespace Lightpath.CrossConnect

open Lightpath.Site Lightpath.Spectrum Lightpath.Rest Lightpath.Controller

/-! ## Channels without a slot -/

/-- The failure of a slot that would be less than no unit wide. -/
def belowNoUnits : Failure :=
  .invalid [⟨[.field "slot_granularity"], .greaterThanEqual⟩]

namespace Channel

/-- The upper edge of a channel lies below its lower one, by a unit of width at least. -/
def Reversed (c : Channel) : Prop :=
  c.highMHz + widthUnitMHz ≤ c.lowMHz

instance (c : Channel) : Decidable c.Reversed :=
  inferInstanceAs (Decidable (c.highMHz + widthUnitMHz ≤ c.lowMHz))

/-- Such a channel would be less than no unit wide. -/
theorem units_neg_iff (c : Channel) : c.widthMHz.tdiv 12500 < 0 ↔ c.Reversed := by
  calc c.widthMHz.tdiv 12500 < 0 ↔ c.widthMHz.tdiv 12500 ≤ -1 := by omega
    _ ↔ c.widthMHz ≤ 12500 * -1 := tdiv_le_iff_of_neg (by decide) (by decide)
    _ ↔ c.Reversed := by
      rw [widthMHz, Reversed, widthUnitMHz]
      omega

/-- **A channel has a slot unless it is reversed.** -/
theorem slot_eq_error_iff {c : Channel} {f : Failure} :
    c.slot = .error f ↔ c.Reversed ∧ f = belowNoUnits := by
  rw [slot_eq, Slot.build, ← units_neg_iff, belowNoUnits]
  by_cases hunits : 0 ≤ c.widthMHz.tdiv 12500
  · rw [if_pos hunits]
    refine iff_of_false (by simp) ?_
    rintro ⟨hneg, -⟩
    omega
  · rw [if_neg hunits, Except.error.injEq]
    constructor
    · intro h
      exact ⟨Int.not_le.mp hunits, h.symm⟩
    · rintro ⟨-, h⟩
      exact h.symm

end Channel

/-! ## Branches without a slot -/

namespace Reconciler

variable {r : Reconciler} {device : String} {plan : List Channel} {b : Branch} {bs : List Branch}
  {f : Failure}

/-- The channel of a live branch is in the plan and is reversed. -/
def OnReversed (plan : List Channel) (b : Branch) : Prop :=
  ∃ c, channelOf? plan b.channel = some c ∧ c.Reversed

/-- What fails for such a branch is its slot. -/
theorem entryOf?_eq_error_iff :
    r.entryOf? device plan b = .error f ↔ OnReversed plan b ∧ f = belowNoUnits := by
  rw [entryOf?, OnReversed]
  cases hc : channelOf? plan b.channel with
  | none => simp
  | some c =>
    simp only [Option.some.injEq, exists_eq_left', ← Channel.slot_eq_error_iff, ruleOf]
    constructor
    · intro h
      rcases Outcome.bind_eq_error_iff.mp h with h | ⟨rule, -, h⟩
      · rcases Outcome.bind_eq_error_iff.mp h with h | ⟨slot, -, h⟩
        · exact h
        · exact absurd h (by simp [Pure.pure, Except.pure])
      · exact absurd h (by simp [Pure.pure, Except.pure])
    · intro h
      rw [h, Outcome.error_bind, Outcome.error_bind]

/-- **Some live branches have no listing when one of them is of a reversed channel**, and there is one way
only to have none. -/
theorem entriesIn_eq_error_iff :
    r.entriesIn device plan bs = .error f ↔
      (∃ b ∈ bs, OnReversed plan b) ∧ f = belowNoUnits := by
  induction bs with
  | nil => simp [entriesIn]
  | cons b bs ih =>
    rw [entriesIn, List.exists_mem_cons_iff, or_and_right, ← ih,
      ← @entryOf?_eq_error_iff r device plan b f]
    constructor
    · intro h
      rcases Outcome.bind_eq_error_iff.mp h with h | ⟨e, -, h⟩
      · exact Or.inl h
      · rcases Outcome.bind_eq_error_iff.mp h with h | ⟨es, -, h⟩
        · exact Or.inr h
        · exact absurd h (by simp [Pure.pure, Except.pure])
    · rintro (h | h)
      · rw [h, Outcome.error_bind]
      · -- the branch in front may be of a reversed channel too; then it fails in the same way
        cases hb : r.entryOf? device plan b with
        | error f' => rw [Outcome.error_bind, (ih.mp h).2, (entryOf?_eq_error_iff.mp hb).2]
        | ok e => exact Outcome.bind_eq_error_iff.mpr (Or.inr ⟨e, rfl, by rw [h, Outcome.error_bind]⟩)

/-! ## Replies without a listing -/

/-- A reply can be read, and one of its live branches is of a reversed channel. -/
def Unlistable (r : Reconciler) (reply : String) : Prop :=
  ∃ plan branches, r.contentsOf reply = .ok (plan, branches) ∧ ∃ b ∈ branches, OnReversed plan b

/-- The session of a device answers with such a reply. -/
def Trips (r : Reconciler) (s : State) (device : String) : Prop :=
  ∃ d reply, Serves s device d 1 ∧ d.answer? r.filter = some reply ∧ r.Unlistable reply

variable {given : Option DeviceType} {type : DeviceType} {s : State}

/-- A device trips by the one answer that it gives to the filter. -/
theorem trips_iff {d : Device} (h : Serves s device d 1) :
    r.Trips s device ↔ ∃ reply, d.answer? r.filter = some reply ∧ r.Unlistable reply := by
  constructor
  · rintro ⟨e, reply, hserves, hanswer, hreply⟩
    refine ⟨reply, ?_, hreply⟩
    rw [← Device.answer?_answers, h.answers_eq hserves, Device.answer?_answers, hanswer]
  · rintro ⟨reply, hanswer, hreply⟩
    exact ⟨d, reply, h, hanswer, hreply⟩

/-- **Listing yields entries or none, or it stumbles over a reversed channel.** -/
theorem exec_query_cases (ht : r.typeOf device given = .ok type) (hf : type.isFullBand = false)
    (s : State) :
    (∃ listed t, Act.exec (r.query device given) s = (.ok listed, t) ∧ ¬ r.Trips s device) ∨
      ∃ t, Act.exec (r.query device given) s = (.error belowNoUnits, t) ∧ r.Trips s device := by
  rw [query, ht, exec_bind_ok (exec_yield_ok type s), if_neg (by rw [hf]; decide)]
  obtain ⟨t, hread, -, hlost⟩ | ⟨d, t, hread, -, hspends⟩ := exec_readReply_cases r device s
  · rw [exec_bind_ok hread]
    refine Or.inl ⟨none, t, rfl, ?_⟩
    rintro ⟨d, reply, hserves, -⟩
    exact hlost d hserves
  rw [exec_bind_ok hread, trips_iff hspends.serves]
  cases hanswer : d.answer? r.filter with
  | none => exact Or.inl ⟨none, t, rfl, by simp⟩
  | some reply =>
    obtain ⟨u, hwarn, -⟩ := onlyLogs_warnSkipped reply t
    simp only [Option.some.injEq, exists_eq_left']
    rw [exec_bind_ok hwarn, Unlistable]
    cases hcontents : r.contentsOf reply with
    | error f => exact Or.inl ⟨none, _, rfl, by simp⟩
    | ok contents =>
      obtain ⟨plan, branches⟩ := contents
      obtain ⟨v, hentries, -⟩ := exec_entriesOf r device plan branches u
      have hreply : (∃ plan' branches', (.ok (plan, branches) : Outcome (List Channel × List Branch))
            = .ok (plan', branches') ∧ ∃ b ∈ branches', OnReversed plan' b)
          ↔ ∃ b ∈ branches, OnReversed plan b := by
        simp only [Except.ok.injEq, Prod.mk.injEq, and_assoc, exists_and_left, exists_eq_left']
      rw [hreply]
      simp only
      cases hin : r.entriesIn device plan branches with
      | error f =>
        obtain ⟨hreversed, rfl⟩ := entriesIn_eq_error_iff.mp hin
        rw [hin] at hentries
        exact Or.inr ⟨v, exec_bind_error hentries _, hreversed⟩
      | ok entries =>
        rw [hin] at hentries
        refine Or.inl ⟨some entries, v, exec_bind_ok hentries _, fun hreversed => ?_⟩
        have herror := (@entriesIn_eq_error_iff r device plan branches _).mpr ⟨hreversed, rfl⟩
        exact absurd (hin.symm.trans herror) (by simp)

/-- Listing yields entries or none just when the device does not trip. -/
theorem exec_query_ok_iff (ht : r.typeOf device given = .ok type) (hf : type.isFullBand = false) :
    (∃ listed t, Act.exec (r.query device given) s = (.ok listed, t)) ↔ ¬ r.Trips s device := by
  obtain ⟨listed, t, hquery, hnot⟩ | ⟨t, hquery, htrips⟩ := exec_query_cases ht hf s
  · exact iff_of_true ⟨listed, t, hquery⟩ hnot
  · refine iff_of_false ?_ (not_not_intro htrips)
    rintro ⟨listed, u, h⟩
    exact absurd (hquery.symm.trans h) (by simp)

end Reconciler

/-! ## What lists -/

variable {r : Reconciler} {device : String} {given : Option DeviceType} {type : DeviceType}

/-- An order to drop that has a slot fails when the listing does. Taking the matched cross-connect off never
fails. -/
theorem Order.exec_drop_ok_iff {o : Order} {slot : Slot} (ht : r.typeOf o.device none = .ok type)
    (hf : type.isFullBand = false) (hslot : o.slot = .ok slot) (s : State) :
    (∃ dropped t, Act.exec (o.drop r) s = (.ok dropped, t)) ↔ ¬ r.Trips s o.device := by
  rw [drop, hslot, exec_bind_ok (exec_yield_ok slot s)]
  obtain ⟨listed, t, hquery, hnot⟩ | ⟨t, hquery, htrips⟩ := Reconciler.exec_query_cases ht hf s
  · refine iff_of_true ?_ hnot
    rw [exec_bind_ok hquery]
    cases listed with
    | none => exact ⟨_, _, rfl⟩
    | some entries =>
      simp only
      cases entries.find? fun e => o.fits slot e.rule with
      | none => exact ⟨_, _, rfl⟩
      | some e =>
        obtain ⟨taken, u, -, -, hremove, -⟩ := Reconciler.exec_remove_singleton ht hf e.rule t
        simp only
        rw [exec_bind_ok hremove]
        rcases taken with _ | _ | ⟨rule, rest⟩
        · exact ⟨_, _, rfl⟩
        · exact ⟨_, _, rfl⟩
        · exact ⟨_, _, rfl⟩
  · refine iff_of_false ?_ (not_not_intro htrips)
    rw [exec_bind_error hquery]
    rintro ⟨dropped, u, h⟩
    exact absurd h (by simp)

/-- The request for the cross-connects of a device is answered with its listing. -/
theorem answersWith_crossConnects_iff {settings : Settings} {services : Services} {request : Request}
    (hroute : Route.ofAddress request.address = some (.crossConnects device))
    (hmethod : request.method.map Char.toUpper = "GET") {s : State} {status : Nat} :
    AnswersWith settings (some services) request s status
      ↔ statusOf 502 200 (Act.exec (services.reconciler.query device none) s).1 = status := by
  rw [answersWith_iff hroute hmethod, ← status_settled_orRefuse _ 502 200
    ("Cannot read cross-connects from " ++ device)
    (fun entries => .arr (entries.map CrossConnect.Entry.toJson))]
  rfl

/-- **Which replies of a device that switches cannot be listed.** Listing yields entries or none unless the
reply has a live branch of a reversed channel. In the same cases, and in no others, the request for the
cross-connects of the device is answered with 200 or with 502, and an order to drop that has a slot does not
fail. -/
theorem answers_listing_iff (ht : r.typeOf device given = .ok type) (hf : type.isFullBand = false)
    (s : State) :
    ((∃ listed t, Act.exec (r.query device given) s = (.ok listed, t)) ↔ ¬ r.Trips s device) ∧
      (given = none →
        (∀ settings services request, services.reconciler = r →
          Route.ofAddress request.address = some (.crossConnects device) →
          request.method.map Char.toUpper = "GET" →
          (¬ r.Trips s device → AnswersWith settings (some services) request s 200 ∨
            AnswersWith settings (some services) request s 502) ∧
          (r.Trips s device → AnswersWith settings (some services) request s 500)) ∧
        ∀ (o : Order) (slot : Slot), o.device = device → o.slot = .ok slot →
          ((∃ dropped t, Act.exec (o.drop r) s = (.ok dropped, t)) ↔ ¬ r.Trips s device)) := by
  refine ⟨Reconciler.exec_query_ok_iff ht hf, ?_⟩
  rintro rfl
  refine ⟨?_, ?_⟩
  · rintro settings services request rfl hroute hmethod
    simp only [answersWith_crossConnects_iff hroute hmethod]
    obtain ⟨listed, t, hquery, hnot⟩ | ⟨t, hquery, htrips⟩ := Reconciler.exec_query_cases ht hf s
    · rw [hquery]
      refine ⟨fun _ => ?_, fun htrips => absurd htrips hnot⟩
      cases listed with
      | none => exact Or.inr rfl
      | some entries => exact Or.inl rfl
    · rw [hquery]
      exact ⟨fun hnot => absurd htrips hnot, fun _ => rfl⟩
  · rintro o slot rfl hslot
    exact Order.exec_drop_ok_iff ht hf hslot s

/-! ## A line degree -/

/-- The services of a laboratory with a line degree. -/
def lineServices : Services :=
  { Engine.laboratoryServices with reconciler := lineReconciler }

/-- A request for the cross-connects of the line degree. -/
def listRequest : Request :=
  ⟨"get", "/api/v1/devices/r/xc", none⟩

theorem ofAddress_listRequest : Route.ofAddress listRequest.address = some (.crossConnects "r") := by
  decide +kernel

theorem typeOf_line : lineReconciler.typeOf "r" none = .ok .lineDegree := rfl

/-- None of the channels that overlap is reversed. -/
theorem not_trips_overlapReply : ¬ lineReconciler.Trips (lineSite overlapReply) "r" := by
  obtain ⟨t, hlisted, -, -⟩ := Reconciler.exec_query_of_serves typeOf_line rfl
    (serves_lineSite overlapReply 1) rfl rfl planOf_overlapReply branchesOf_overlapReply
  refine (Reconciler.exec_query_ok_iff typeOf_line rfl).mp ⟨some overlapEntries, t, ?_⟩
  rw [hlisted, entriesIn_overlap]
  rfl

/-- A line degree whose channels overlap is listed. -/
theorem answers_listing_iff_overlap :
    (∃ listed t, Act.exec (lineReconciler.query "r" none) (lineSite overlapReply) = (.ok listed, t)) ∧
      (AnswersWith Engine.laboratory (some lineServices) listRequest (lineSite overlapReply) 200 ∨
        AnswersWith Engine.laboratory (some lineServices) listRequest (lineSite overlapReply) 502) ∧
      ∃ dropped t, Act.exec ((lineOrder 1 50).drop lineReconciler) (lineSite overlapReply)
        = (.ok dropped, t) := by
  obtain ⟨hquery, hrest⟩ := answers_listing_iff typeOf_line rfl (lineSite overlapReply)
  obtain ⟨hanswers, hdrop⟩ := hrest rfl
  have hslot : (lineOrder 1 50).slot = .ok ⟨.flex, .ghz6p25, 0, 4⟩ :=
    Outcome.eq_ok_of_toOption (by decide +kernel)
  exact ⟨hquery.mpr not_trips_overlapReply,
    (hanswers Engine.laboratory lineServices listRequest rfl ofAddress_listRequest
      (by decide +kernel)).1 not_trips_overlapReply,
    (hdrop (lineOrder 1 50) _ rfl hslot).mpr not_trips_overlapReply⟩

/-- The reply of a device that declares a channel with its edges in the wrong order and has a live add
branch of it. -/
def reversedReply : String :=
  replyOf (channelMarkup "turned" "193125000" "193075000") (addMarkup "turned" "1")

/-- The add branch is of the channel with its edges in the wrong order. -/
theorem unlistable_reversedReply : lineReconciler.Unlistable reversedReply := by
  have hplan : planOf reversedReply = .ok [⟨"turned", 193125000, 193075000⟩] := by
    refine Outcome.eq_ok_of_toOption ?_
    rw [planOf, document, Xml.parse?, reversedReply, replyOf, String.toList_ofList]
    decide +kernel
  have hbranches : branchesOf "E" reversedReply = .ok [⟨"turned", .add, 1, none⟩] := by
    refine Outcome.eq_ok_of_toOption ?_
    rw [branchesOf, document, Xml.parse?, reversedReply, replyOf, String.toList_ofList]
    decide +kernel
  exact ⟨_, _, Reconciler.contentsOf_eq hplan hbranches, ⟨"turned", .add, 1, none⟩,
    List.mem_singleton_self _, ⟨"turned", 193125000, 193075000⟩, rfl, by decide⟩

/-- **A line degree that has its edges in the wrong order cannot be listed**: listing fails, the request for
its cross-connects is answered with 500, and an order to drop fails. -/
theorem listing_fails_reversed :
    ¬ (∃ listed t, Act.exec (lineReconciler.query "r" none) (lineSite reversedReply) = (.ok listed, t)) ∧
      AnswersWith Engine.laboratory (some lineServices) listRequest (lineSite reversedReply) 500 ∧
      ¬ ∃ dropped t, Act.exec ((lineOrder 1 50).drop lineReconciler) (lineSite reversedReply)
        = (.ok dropped, t) := by
  have htrips : lineReconciler.Trips (lineSite reversedReply) "r" :=
    (Reconciler.trips_iff (serves_lineSite reversedReply 1)).mpr ⟨_, rfl, unlistable_reversedReply⟩
  have hslot : (lineOrder 1 50).slot = .ok ⟨.flex, .ghz6p25, 0, 4⟩ :=
    Outcome.eq_ok_of_toOption (by decide +kernel)
  refine ⟨?_, ?_, ?_⟩
  · intro hlisted
    exact (Reconciler.exec_query_ok_iff typeOf_line rfl).mp hlisted htrips
  · rw [answersWith_crossConnects_iff ofAddress_listRequest (by decide +kernel)]
    obtain ⟨-, -, -, hnot⟩ | ⟨t, hquery, -⟩ :=
      Reconciler.exec_query_cases typeOf_line rfl (lineSite reversedReply)
    · exact absurd htrips hnot
    · show statusOf 502 200 (Act.exec (lineReconciler.query "r" none) (lineSite reversedReply)).1 = 500
      rw [hquery]
      rfl
  · intro hdropped
    exact (Order.exec_drop_ok_iff typeOf_line rfl hslot _).mp hdropped htrips

end Lightpath.CrossConnect
