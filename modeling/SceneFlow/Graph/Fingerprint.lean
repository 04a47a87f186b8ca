import SceneFlow.Fingerprint
import SceneFlow.Graph.Basic
import SceneFlow.Json.Printer

/-!
# Fingerprints of graphs

The fingerprint of a graph takes in its nodes and edges in their order, and payloads as compact
text, so that the order of the keys of a payload does not count.
-/

namespace SceneFlow

open Fingerprint in
/-- The bytes that a node contributes. -/
def RawNode.bytes (node : RawNode) : List UInt8 :=
  textBytes node.id.text ++ textBytes node.name ++ textBytes node.kind
    ++ textBytes node.data.compact

open Fingerprint in
/-- The bytes that an edge contributes. -/
def Edge.bytes (edge : Edge) : List UInt8 :=
  textBytes edge.id.text ++ textBytes edge.source.text ++ textBytes edge.sourcePort.text
    ++ textBytes edge.target.text ++ textBytes edge.targetPort.text

/-- The bytes whose hash is the fingerprint of a graph. -/
def Graph.bytes (graph : Graph) : List UInt8 :=
  Fingerprint.listBytes RawNode.bytes graph.nodes ++ Fingerprint.listBytes Edge.bytes graph.edges

/-- The fingerprint of a graph. -/
def Graph.fingerprint (graph : Graph) : Fingerprint :=
  .ofBytes graph.bytes

end SceneFlow
