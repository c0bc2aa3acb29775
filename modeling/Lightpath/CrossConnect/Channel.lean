import Lightpath.CrossConnect.Rule
import Lightpath.Xml.Reader

/-!
# Channel plans

A device declares named frequency ranges, its channels, in a plan. A slot can be switched if it lies within
a declared channel; the first such channel of the plan owns it.
-/

namespace Lightpath.CrossConnect

open Lightpath.Spectrum Lightpath.Xml

/-! ## Channels -/

/-- A named frequency range. -/
structure Channel where
  key : String
  lowMHz : Int
  highMHz : Int
  deriving DecidableEq, Repr

namespace Channel

/-- The width of a channel in MHz. -/
def widthMHz (c : Channel) : Int :=
  c.highMHz - c.lowMHz

/-- The middle of a channel in MHz, rounded down. -/
def centralMHz (c : Channel) : Int :=
  c.lowMHz + Int.fdiv c.widthMHz 2

/-- Whether a slot lies within a channel, edges included. -/
def holds (c : Channel) (s : Slot) : Bool :=
  decide (c.lowMHz * 1000000 ≤ s.toBounds.1 ∧ s.toBounds.2 ≤ c.highMHz * 1000000)

/-- The slot that fills a channel, on the finest flexible grid. -/
def slot (c : Channel) : Outcome Slot :=
  Slot.fromBounds (c.lowMHz * 1000000) (c.highMHz * 1000000) .flex .ghz6p25

/-- A channel as a record. -/
def check : Form.Check Channel :=
  Form.record fun fields =>
    mk <$> fields.required "key" Form.text
      <*> fields.required "low_mhz" Form.whole
      <*> fields.required "high_mhz" Form.whole

/-- The record of a channel. -/
def toJson (c : Channel) : Json :=
  .obj [("key", .str c.key), ("low_mhz", .int c.lowMHz), ("high_mhz", .int c.highMHz)]

end Channel

/-- The channel of a plan that owns a slot. -/
def owner? (plan : List Channel) (s : Slot) : Option String :=
  (plan.find? (·.holds s)).map Channel.key

/-! ## Reading a plan -/

/-- A channel as it is written in a reply: complete with name and edges, or not. -/
inductive Declaration where
  | complete (name low high : String)
  | incomplete (name : Option String)
  deriving DecidableEq, Repr

namespace Declaration

/-- The declaration that an element makes. -/
def ofElement (e : Element) : Declaration :=
  match e.childText? "name", e.childText? "lower-frequency", e.childText? "upper-frequency" with
  | some name, some low, some high => complete name low high
  | name, _, _ => incomplete name

/-- The declarations of all plans in a document. -/
def all (root : Element) : List Declaration :=
  (root.allNamed "channel-plan").flatMap fun plan => (plan.childrenNamed "channel").map ofElement

/-- The channel that is declared; an incomplete declaration declares none. -/
def channel? : Declaration → Outcome (Option Channel)
  | incomplete _ => .ok none
  | complete name low high =>
    match Numeral.wholeOf low, Numeral.wholeOf high with
    | some l, some h => .ok (some ⟨name, l, h⟩)
    | _, _ => .error .unreadable

/-- The channels that are declared, unless an edge cannot be read. -/
def channels : List Declaration → Outcome (List Channel)
  | [] => .ok []
  | d :: ds => do
    let c ← d.channel?
    let cs ← channels ds
    return c.toList ++ cs

/-- The names of the incomplete declarations in front of the first one that cannot be read. -/
def skipped : List Declaration → List (Option String)
  | [] => []
  | d :: ds =>
    match d, d.channel? with
    | _, .error _ => []
    | incomplete name, _ => name :: skipped ds
    | complete .., _ => skipped ds

end Declaration

/-- The document of a reply. -/
def document (reply : String) : Outcome Element :=
  match parse? reply with
  | some root => .ok root
  | none => .error .malformedDocument

/-- The channel plan in a reply. -/
def planOf (reply : String) : Outcome (List Channel) := do
  Declaration.channels (Declaration.all (← document reply))

end Lightpath.CrossConnect
