import SceneFlow.Json.Decoder

/-!
# Identifiers

Nodes, edges and ports are named by texts that the editor chooses. The three kinds of name are
kept apart by their types.
-/

namespace SceneFlow

/-- The name of a node, and of each instance of a drawable object. -/
structure NodeId where
  /-- The name as it is written. -/
  text : String
deriving DecidableEq, Repr, Inhabited

/-- The name of an edge. Where edges compete, the one with the smaller name goes first. -/
structure EdgeId where
  /-- The name as it is written. -/
  text : String
deriving DecidableEq, Repr, Inhabited

/-- The name of a port of a node. -/
structure PortId where
  /-- The name as it is written. -/
  text : String
deriving DecidableEq, Repr, Inhabited

namespace NodeId

/-- Read a name. -/
def ofJson : Decoder NodeId := fun value => (Decoder.text value).map NodeId.mk

/-- The name as a value. -/
def toJson (id : NodeId) : Json :=
  .str id.text

/-- A path of nodes as messages write it. -/
def pathText (path : List NodeId) : String :=
  " -> ".intercalate (path.map NodeId.text)

end NodeId

namespace EdgeId

/-- Read a name. -/
def ofJson : Decoder EdgeId := fun value => (Decoder.text value).map EdgeId.mk

/-- The name as a value. -/
def toJson (id : EdgeId) : Json :=
  .str id.text

end EdgeId

namespace PortId

/-- Read a name. -/
def ofJson : Decoder PortId := fun value => (Decoder.text value).map PortId.mk

/-- The name as a value. -/
def toJson (id : PortId) : Json :=
  .str id.text

end PortId

end SceneFlow
