import Lightpath.Form.Issue

/-!
# Results of checks

A check yields a value or a list of issues. Checks of several parts are put side by side: all issues of all
parts are reported, in the order of the parts.
-/

namespace Lightpath.Form

/-- What a check yields. -/
inductive Checked (α : Type) where
  | ok (value : α)
  | bad (issues : List Issue)
  deriving Repr

namespace Checked

variable {α β : Type}

/-- Applies a function to the value. -/
def map (f : α → β) : Checked α → Checked β
  | .ok a => .ok (f a)
  | .bad is => .bad is

/-- Puts two checks side by side. -/
def both (f : Checked (α → β)) (a : Checked α) : Checked β :=
  match f, a with
  | .ok f, .ok a => .ok (f a)
  | .ok _, .bad js => .bad js
  | .bad is, .ok _ => .bad is
  | .bad is, .bad js => .bad (is ++ js)

instance : Functor Checked where
  map := map

instance : Applicative Checked where
  pure := .ok
  seq f a := both f (a ())

/-- Goes on with a further check of the value. -/
def andThen (c : Checked α) (f : α → Checked β) : Checked β :=
  match c with
  | .ok a => f a
  | .bad is => .bad is

/-- A fault of the input itself. -/
def fail (f : Fault) : Checked α :=
  .bad [Issue.here f]

/-- The check of a part, seen from the whole. -/
def under (step : Step) : Checked α → Checked α
  | .ok a => .ok a
  | .bad is => .bad (is.map (·.under step))

/-- Holds a value to a rule. -/
def ensure (p : α → Bool) (f : Fault) (c : Checked α) : Checked α :=
  c.andThen fun a => if p a then .ok a else fail f

/-- The issues, none for a value. -/
def issues : Checked α → List Issue
  | .ok _ => []
  | .bad is => is

/-- Puts the checks of a list side by side. -/
def all : List (Checked α) → Checked (List α)
  | [] => .ok []
  | c :: cs => both (c.map List.cons) (all cs)

end Checked

end Lightpath.Form
