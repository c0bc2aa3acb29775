import Lightpath.CrossConnect.Rule
import Lightpath.Numeral.Shortest
import Lightpath.Text.Order
import Lightpath.Xml.Character

/-!
# Edits of media channels

An edit changes the branches of some media channels at once. All changes to one channel stand together in
one item, and the items are sent in the order of their channels.
-/

namespace Lightpath.CrossConnect

/-! ## Changes -/

/-- A change to one branch of a channel. -/
inductive Change where
  | create (side : Side) (port : String) (power : Float)
  | withdraw (side : Side)
  deriving Repr

/-- The namespace of the operation of an edit. -/
def editSpace : String := "urn:ietf:params:xml:ns:netconf:base:1.0"

/-- The side of a channel that is changed. -/
def Change.side : Change → Side
  | .create side _ _ => side
  | .withdraw side => side

/-- The element that asks for a change. -/
def Change.render : Change → String
  | .create side port power =>
    "<" ++ side.name ++ "><port>" ++ port ++ "</port><power>" ++ Numeral.floatText power ++ "</power></"
      ++ side.name ++ ">"
  | .withdraw side => "<" ++ side.name ++ " xmlns:nc=\"" ++ editSpace ++ "\" nc:operation=\"remove\"/>"

/-! ## Edits -/

/-- The changes to each channel, in the order in which they were asked for. -/
abbrev Edit := OrderedMap String (List Change)

namespace Edit

/-- Puts a change behind those of its channel. -/
def extend (e : Edit) (channel : String) (c : Change) : Edit :=
  OrderedMap.put e channel ((OrderedMap.get? e channel).getD [] ++ [c])

/-- The edit of some changes to channels. -/
def ofChanges (changes : List (String × Change)) : Edit :=
  changes.foldl (fun (e : Edit) p => e.extend p.1 p.2) []

/-- The item of a channel, in the namespace of the device's data. -/
def renderItem (space channel : String) (changes : List Change) : String :=
  "<media-channels xmlns=\"" ++ space ++ "\"><channel>" ++ Xml.escape channel ++ "</channel>"
    ++ String.join (changes.map Change.render) ++ "</media-channels>"

/-- The text of an edit. -/
def render (space : String) (e : Edit) : String :=
  String.join ((Text.sorted (OrderedMap.keys e)).map fun channel =>
    renderItem space channel ((OrderedMap.get? e channel).getD []))

end Edit

end Lightpath.CrossConnect
