import Lightpath.CrossConnect.Channel

/-!
# Live branches

A media channel on a device has at most one add branch and one drop branch in use. A branch leads to a leaf
port, which is written as a number or as a number behind a fixed text.
-/

namespace Lightpath.CrossConnect

open Lightpath.Xml

/-! ## Leaf ports -/

/-- Takes a text off the front of another, if it stands there. -/
def withoutFront (front : List Char) (cs : List Char) : List Char :=
  if front.isPrefixOf cs then cs.drop front.length else cs

/-- Reads a leaf port. -/
def leafPortOf (front s : String) : Outcome Int :=
  match Numeral.readWhole (withoutFront front.toList s.toList) with
  | some n => .ok n
  | none => .error .unreadable

/-- Reads a leaf port that need not be a text, as long as no text is looked for in front of it. -/
def leafPortOfJson (front : String) : Json → Outcome Int
  | .str s => leafPortOf front s
  | v => if front = "" then v.toWhole else .error .missingOperation

/-! ## Branches -/

/-- A branch in use. -/
structure Branch where
  channel : String
  side : Side
  leafPort : Int
  power : Option Float
  deriving Repr

namespace Branch

/-- Reads a power, if there is one. -/
def powerOf : Option String → Outcome (Option Float)
  | none => .ok none
  | some s =>
    match Numeral.floatOf s with
    | some x => .ok (some x)
    | none => .error .unreadable

/-- The branch on one side of a media channel, if it is there and has a port. -/
def ofElement (front : String) (side : Side) (e : Element) : Outcome (Option Branch) :=
  match e.childText? "channel", (e.childrenNamed side.name).head? with
  | some channel, some branch =>
    match branch.childText? "port" with
    | none => .ok none
    | some port => do
      let leaf ← leafPortOf front port
      let power ← powerOf (branch.childText? "power")
      return some ⟨channel, side, leaf, power⟩
  | _, _ => .ok none

/-- The branches on one side of some media channels. -/
def onSide (front : String) (side : Side) : List Element → Outcome (List Branch)
  | [] => .ok []
  | e :: es => do
    let b ← ofElement front side e
    let bs ← onSide front side es
    return b.toList ++ bs

/-- All branches in a document: those that add and behind them those that drop. -/
def all (front : String) (root : Element) : Outcome (List Branch) := do
  let media := root.allNamed "media-channels"
  let adds ← onSide front .add media
  let drops ← onSide front .drop media
  return adds ++ drops

end Branch

/-- The live branches in a reply. -/
def branchesOf (front reply : String) : Outcome (List Branch) := do
  Branch.all front (← document reply)

end Lightpath.CrossConnect
