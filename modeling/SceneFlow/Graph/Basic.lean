import SceneFlow.Identifier
import SceneFlow.Json.Reader

/-!
# Graph documents

A graph as the editor stores it: nodes with a type and a payload that only the type can
interpret, and edges from an output port to an input port. Nothing is checked here but the form.
-/

namespace SceneFlow

/-- A node of a document. -/
structure RawNode where
  /-- The name of the node. -/
  id : NodeId
  /-- What the editor calls it on the screen. -/
  name : String
  /-- Its type. -/
  kind : String
  /-- Its payload. -/
  data : Json

/-- An edge of a document. -/
structure Edge where
  /-- The name of the edge. -/
  id : EdgeId
  /-- The node it leaves. -/
  source : NodeId
  /-- The output port it leaves. -/
  sourcePort : PortId
  /-- The node it enters. -/
  target : NodeId
  /-- The input port it enters. -/
  targetPort : PortId
deriving DecidableEq

/-- A graph document. -/
structure Graph where
  /-- The nodes. -/
  nodes : List RawNode
  /-- The edges. -/
  edges : List Edge

namespace RawNode

/-- Read a node. -/
def ofJson : Decoder RawNode :=
  .record "NodeDef" <| mk
    <$> .required "id" NodeId.ofJson
    <*> .defaulted "name" .text ""
    <*> .required "type" .text
    <*> .defaulted "data" .any .null

/-- The fields of a node. -/
def toJson (node : RawNode) : Json :=
  .obj [("id", node.id.toJson), ("name", .str node.name), ("type", .str node.kind),
    ("data", node.data)]

/-- The outline of a node in a text. -/
def shape : Json.Shape :=
  .record "NodeDef"
    [("id", true, .text), ("name", false, .text), ("type", true, .text), ("data", false, .any)]

end RawNode

namespace Edge

/-- Read an edge. -/
def ofJson : Decoder Edge :=
  .record "EdgeDef" <| mk
    <$> .required "id" EdgeId.ofJson
    <*> .required "source" NodeId.ofJson
    <*> .defaulted "source_port" PortId.ofJson ⟨""⟩
    <*> .required "target" NodeId.ofJson
    <*> .defaulted "target_port" PortId.ofJson ⟨""⟩

/-- The fields of an edge. -/
def toJson (edge : Edge) : Json :=
  .obj [("id", edge.id.toJson), ("source", edge.source.toJson),
    ("source_port", edge.sourcePort.toJson), ("target", edge.target.toJson),
    ("target_port", edge.targetPort.toJson)]

/-- The outline of an edge in a text. -/
def shape : Json.Shape :=
  .record "EdgeDef"
    [("id", true, .text), ("source", true, .text), ("source_port", false, .text),
      ("target", true, .text), ("target_port", false, .text)]

end Edge

namespace Graph

/-- The graph without nodes. -/
def empty : Graph :=
  ⟨[], []⟩

/-- Read a graph. -/
def ofJson : Decoder Graph :=
  .record "GraphDef" <| mk
    <$> .defaulted "nodes" (.list RawNode.ofJson) []
    <*> .defaulted "edges" (.list Edge.ofJson) []

/-- The fields of a graph. -/
def toJson (graph : Graph) : Json :=
  .obj [("nodes", .arr (graph.nodes.map RawNode.toJson)),
    ("edges", .arr (graph.edges.map Edge.toJson))]

/-- The outline of a graph in a text. -/
def shape : Json.Shape :=
  .record "GraphDef" [("nodes", false, .list RawNode.shape), ("edges", false, .list Edge.shape)]

/-- Read a graph from text. -/
def parse (text : String) : Except Json.ReadError Graph := do
  let value ← Json.read shape text
  (ofJson value).mapError .unfit

end Graph

end SceneFlow
