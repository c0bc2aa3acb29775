import Lightpath.Proofs.PathPlan.ReplyPower

/-!
# Route objects

What stands in a route object, for one that has the shape the engine gives it: a record that may
hold a hop, a label and a power. Looking into such an object never fails and finds what stands
there. The planner's way of looking is compared with a plain reading of the fields (`part?`).
-/

namespace Lightpath

/-! ## Fields -/

namespace Json

variable {v w : Json} {name : String}

theorem item_of_field? (h : v.field? name = some w) : v.item name = .ok w := by
  cases v with
  | obj fields =>
    have hget : OrderedMap.get? fields name = some w := h
    rw [item, hget]
  | _ => exact absurd h (by simp [field?])

theorem lookup_of_field? (h : v.field? name = some w) (other : String) :
    v.lookup other = .ok ((v.field? other).getD .null) := by
  cases v with
  | obj fields => rfl
  | _ => exact absurd h (by simp [field?])

end Json

namespace PathPlan

/-! ## The path of a reply -/

/-- The properties of the path of the first response. -/
def pathIn? (reply : Json) : Option Json :=
  match (reply.field? "result").bind (·.field? "response") with
  | some (.arr (response :: _)) => response.field? "path-properties"
  | _ => none

/-- A reply has a path with these forward route objects. -/
def HasForward (reply : Json) (objects : List Json) : Prop :=
  ∃ properties, pathIn? reply = some properties ∧
    properties.field? "path-route-objects" = some (.arr objects)

/-- The path of a reply has these reverse route objects, or it has none. -/
def HasReverse (reply : Json) (objects : List Json) : Prop :=
  ∃ properties, pathIn? reply = some properties ∧
    (properties.field? "reversed-path-route-objects" = some (.arr objects) ∨
      objects = [] ∧ (properties.field? "reversed-path-route-objects").getD .null = .null)

variable {reply properties object : Json} {objects after : List Json} {name scheme device : String}

theorem pathProperties_of_pathIn? (h : pathIn? reply = some properties) :
    pathProperties reply = .ok properties := by
  rw [pathIn?] at h
  split at h
  case h_1 response rest hresponse =>
    obtain ⟨result, hresult, hresponse⟩ := Option.bind_eq_some_iff.mp hresponse
    rw [pathProperties, Json.item_of_field? hresult]
    show (do (← (← result.item "response").first).item "path-properties") = _
    rw [Json.item_of_field? hresponse]
    exact Json.item_of_field? h
  case h_2 => exact absurd h (by simp)

/-! ## Parts of a route object -/

/-- A part of a route object, unless it is not there or null. -/
def part? (object : Json) (name : String) : Option Json :=
  match (object.field? "path-route-object").bind (·.field? name) with
  | some .null => none
  | found => found

/-- A route object is a record. -/
def IsRecord (object : Json) : Prop :=
  ∃ fields, object.field? "path-route-object" = some (.obj fields)

/-- A part that is looked for in a record is found or null. -/
theorem partOf_of_isRecord (h : IsRecord object) (name : String) :
    partOf object name = .ok ((part? object name).getD .null) := by
  obtain ⟨fields, hfields⟩ := h
  have hpart : (part? object name).getD .null = (OrderedMap.get? fields name).getD .null := by
    rw [part?, hfields]
    show (match OrderedMap.get? fields name with
      | some .null => none
      | found => found).getD .null = _
    cases OrderedMap.get? fields name with
    | none => rfl
    | some v => cases v <;> rfl
  rw [partOf, Json.item_of_field? hfields, hpart]
  rfl

/-- The hop in a route object. -/
def hopOf? (object : Json) : Option Hop :=
  match part? object "num-unnum-hop" with
  | none => none
  | some hop =>
    match hop.field? "node-id" with
    | some (.str device) =>
      some ⟨device, (hop.field? "gnpy-node-type").any (·.isText "transceiver")⟩
    | _ => none

/-- The hop in a route object, if it is one of a device. -/
def hopTo? (device : String) (object : Json) : Option Hop :=
  (hopOf? object).filter fun h => h.device == device

/-- The power that a route object tells. -/
def powerIn? (object : Json) : Option Float :=
  match part? object "target-channel-power" with
  | none => none
  | some target => (target.field? "value").bind fun value => value.toFloat.toOption

/-- **A route object is well typed**: it is a record, its hop names a device by a text, and its power
can be read as a floating-point number. -/
structure WellTyped (object : Json) : Prop where
  record : IsRecord object
  hop : ∀ hop, part? object "num-unnum-hop" = some hop →
    ∃ device, hop.field? "node-id" = some (.str device)
  power : ∀ target, part? object "target-channel-power" = some target →
    ∃ value x, target.field? "value" = some value ∧ value.toFloat = .ok x

/-! ## Looking into a well-typed object -/

/-- What a well-typed object has as its hop is a record with the name of a device. -/
theorem WellTyped.part?_hop (h : WellTyped object) :
    part? object "num-unnum-hop" = none ∧ hopOf? object = none ∨
      ∃ fields device transceiver, part? object "num-unnum-hop" = some (.obj fields) ∧
        (Json.obj fields).item "node-id" = .ok (.str device) ∧
        (∃ type, (Json.obj fields).lookup "gnpy-node-type" = .ok type ∧
          type.isText "transceiver" = transceiver) ∧
        hopOf? object = some ⟨device, transceiver⟩ := by
  rw [hopOf?]
  cases hpart : part? object "num-unnum-hop" with
  | none => exact Or.inl ⟨rfl, rfl⟩
  | some hop =>
    obtain ⟨device, hdevice⟩ := h.hop hop hpart
    cases hop with
    | obj fields =>
      refine Or.inr ⟨fields, device, _, rfl, Json.item_of_field? hdevice,
        ⟨_, Json.lookup_of_field? hdevice _, rfl⟩, ?_⟩
      simp only [hdevice]
      cases (Json.obj fields).field? "gnpy-node-type" <;> rfl
    | _ => exact absurd hdevice (by simp [Json.field?])

/-- A hop is found when its device belongs to the scheme. -/
theorem hopIn?_of_wellTyped (h : WellTyped object) (scheme : String) :
    hopIn? scheme object
      = .ok ((hopOf? object).filter fun h => scheme.toList.isPrefixOf h.device.toList) := by
  have hlooked := partOf_of_isRecord h.record "num-unnum-hop"
  rw [hopIn?]
  obtain ⟨hpart, hhop⟩ | ⟨fields, device, transceiver, hpart, hnode, ⟨type, htype, hflag⟩, hhop⟩ :=
    h.part?_hop
  · rw [hpart] at hlooked
    rw [hhop]
    exact Outcome.bind_eq_ok_iff.mpr ⟨.null, hlooked, rfl⟩
  · rw [hpart] at hlooked
    rw [hhop]
    refine Outcome.bind_eq_ok_iff.mpr ⟨.obj fields, hlooked, ?_⟩
    refine Outcome.bind_eq_ok_iff.mpr ⟨.str device, hnode, ?_⟩
    rw [Option.filter_some]
    by_cases hscheme : scheme.toList.isPrefixOf device.toList = true
    · simp only [hscheme, if_true]
      exact Outcome.bind_eq_ok_iff.mpr ⟨type, htype, by rw [hflag]; rfl⟩
    · simp only [hscheme]
      rfl

/-- An object names the device of its hop. -/
theorem names_of_wellTyped (h : WellTyped object) (device : String) :
    names object device = .ok (hopTo? device object).isSome := by
  have hlooked := partOf_of_isRecord h.record "num-unnum-hop"
  rw [names, hopTo?]
  obtain ⟨hpart, hhop⟩ | ⟨fields, other, transceiver, hpart, hnode, -, hhop⟩ := h.part?_hop
  · rw [hpart] at hlooked
    rw [hhop]
    exact Outcome.bind_eq_ok_iff.mpr ⟨.null, hlooked, rfl⟩
  · rw [hpart] at hlooked
    rw [hhop]
    refine Outcome.bind_eq_ok_iff.mpr ⟨.obj fields, hlooked, ?_⟩
    refine Outcome.bind_eq_ok_iff.mpr ⟨.str other, hnode, ?_⟩
    rw [Option.filter_some]
    cases hdevice : other == device with
    | false => simp [Json.isText, hdevice, pure, Except.pure]
    | true => simp [Json.isText, hdevice, pure, Except.pure]

/-- The power that is told is found, and without one it is not known. -/
theorem perHopPower_of_wellTyped (h : WellTyped object) :
    perHopPower object = .ok ((powerIn? object).getD unknownPower) := by
  have hlooked := partOf_of_isRecord h.record "target-channel-power"
  rw [perHopPower, powerIn?]
  cases hpart : part? object "target-channel-power" with
  | none =>
    rw [hpart] at hlooked
    exact Outcome.bind_eq_ok_iff.mpr ⟨.null, hlooked, rfl⟩
  | some target =>
    obtain ⟨value, x, hvalue, hx⟩ := h.power target hpart
    rw [hpart] at hlooked
    cases target with
    | obj fields =>
      refine Outcome.bind_eq_ok_iff.mpr ⟨.obj fields, hlooked, ?_⟩
      refine Outcome.bind_eq_ok_iff.mpr ⟨value, Json.item_of_field? hvalue, ?_⟩
      simp only [hvalue, Option.bind_some, hx]
      rfl
    | _ => exact absurd hvalue (by simp [Json.field?])

/-- **The power of a hop** with some objects behind it: the one that the second of them tells. It
is not known when there is none, and neither is that of a transceiver. -/
def powerBehind (h : Hop) (after : List Json) : Float :=
  if h.isTransceiver then unknownPower else (after[1]?.bind powerIn?).getD unknownPower

theorem Hop.power_of_wellTyped (hop : Hop) (h : ∀ object ∈ after, WellTyped object) :
    hop.power after = .ok (powerBehind hop after) := by
  rw [Hop.power, powerBehind]
  cases hop.isTransceiver with
  | true => rfl
  | false =>
    rcases after with - | ⟨next, - | ⟨object, rest⟩⟩
    · rfl
    · rfl
    · exact perHopPower_of_wellTyped (h object (by simp))

end PathPlan

end Lightpath
