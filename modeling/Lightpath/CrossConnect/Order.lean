import Lightpath.CrossConnect.Reconciler
import Lightpath.Spectrum.Quantity

/-!
# Orders of an operator

An operator adds and drops single cross-connects by ports, central frequency in MHz and width in GHz. The
numbers of an order may come as texts or with a fraction; log lines tell them as they came.
-/

namespace Lightpath.CrossConnect

open Lightpath.Site Lightpath.Spectrum

/-- An order for one cross-connect. -/
structure Order where
  device : String
  input : Json
  output : Json
  mhz : Json
  ghz : Json
  deriving Repr

namespace Order

/-- The slot that is ordered. -/
def slot (o : Order) : Outcome Slot :=
  Slot.ofOrder o.mhz o.ghz

/-- The rule that is ordered. -/
def rule (o : Order) : Outcome Rule := do
  let slot ← o.slot
  (Rule.ofOrder (.str o.device) o.input o.output slot).outcome

/-- Whether a rule is for the ports of an order and for the frequencies of a slot. -/
def fits (o : Order) (slot : Slot) (r : Rule) : Bool :=
  r.slot.toCentralAndWidth == slot.toCentralAndWidth && o.input.equalsInt r.input
    && o.output.equalsInt r.output

/-- Adds a cross-connect and yields its rule, or nothing if the device did not take it. -/
def add (r : Reconciler) (o : Order) : Act (Option Rule) := do
  let rule ← yield o.rule
  match ← r.apply o.device [rule] none with
  | some (applied :: _) =>
    info ("Adding XC for the device " ++ o.device ++ " between port " ++ o.input.display ++ " and port "
      ++ o.output.display ++ " on frequency " ++ o.mhz.display ++ " with bandwidth " ++ o.ghz.display)
    return some applied
  | _ =>
    info ("Your rule wasn't added. Something went wrong during the process "
      ++ "(issue on the driver side).")
    return none

/-- Drops the first live cross-connect that fits and yields its rule, or nothing if none fits. -/
def drop (r : Reconciler) (o : Order) : Act (Option Rule) := do
  let slot ← yield o.slot
  match ← r.query o.device none with
  | none => return none
  | some entries =>
    match entries.find? fun e => o.fits slot e.rule with
    | none =>
      info "Your rule wasn't dropped. No match found."
      return none
    | some e =>
      match ← r.remove o.device [e.rule] none with
      | some (_ :: _) =>
        info ("Dropping existing XC from the device " ++ o.device)
        return some e.rule
      | _ => return none

end Order

end Lightpath.CrossConnect
