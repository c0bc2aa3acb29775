import Lightpath.Topology.ConnectPoint

/-!
# Links and paths of links

A link leads from one connect point to another. A path is a list of links in the order in which light
passes them.
-/

namespace Lightpath.Topology

/-- A link from its source to its destination. -/
structure Link where
  src : ConnectPoint
  dst : ConnectPoint
  deriving DecidableEq, Repr

namespace Link

/-- Whether a link starts or ends on a device. -/
def touches (l : Link) (device : String) : Bool :=
  l.src.device == device || l.dst.device == device

/-- A link as a record. -/
def check : Form.Check Link :=
  Form.record fun fields =>
    mk <$> fields.required "src" ConnectPoint.check <*> fields.required "dst" ConnectPoint.check

/-- The record of a link. -/
def toJson (l : Link) : Json :=
  .obj [("src", l.src.toJson), ("dst", l.dst.toJson)]

/-- The texts of both ends. -/
def toPair (l : Link) : Json :=
  .arr [.str l.src.text, .str l.dst.text]

end Link

/-- Links in the order in which light passes them. -/
structure LinkPath where
  links : List Link
  deriving DecidableEq, Repr

namespace LinkPath

/-- Where the path starts. -/
def src? (p : LinkPath) : Option ConnectPoint :=
  p.links.head?.map Link.src

/-- Where the path ends. -/
def dst? (p : LinkPath) : Option ConnectPoint :=
  p.links.getLast?.map Link.dst

/-- A path as a record. -/
def check : Form.Check LinkPath :=
  Form.record fun fields => mk <$> fields.orElse "links" (Form.list Link.check) []

/-- The record of a path. -/
def toJson (p : LinkPath) : Json :=
  .obj [("links", .arr (p.links.map Link.toJson))]

end LinkPath

end Lightpath.Topology
