import SceneFlow.Graph.Query

/-!
# Inspections

All that the program tells of one node of a graph.
-/

namespace SceneFlow

/-- What lies before and behind a node. -/
structure Inspection where
  /-- The node. -/
  node : NodeId
  /-- The objects that reach it. -/
  upstreamObjects : List NodeId
  /-- The variables before it. -/
  visibleVariables : List VariableRef
  /-- The nodes next behind it. -/
  downstream : List NodeId
  /-- The share of each outgoing edge in the objects. -/
  branches : List (EdgeId × BranchAvailability)
  /-- Its input ports, if it is a merge node. -/
  mergePorts : Option (List PortId)
  /-- The dangling edges of the graph. -/
  dangling : List DanglingEdge

namespace Inspection

/-- The shares of the edges that leave a node in the document, in the order of their names. -/
def branchesOf (graph : Graph) (net : Network) (node : NodeId) :
    List (EdgeId × BranchAvailability) :=
  let edges := Network.sortEdges (graph.edges.filter fun edge => edge.source = node)
  edges.filterMap fun edge =>
    match net.branch node edge.id with
    | .ok share => some (edge.id, share)
    | .error _ => none

/-- Inspect a node. -/
def ofNode (graph : Graph) (net : Network) (node : NodeId) : Except QueryError Inspection := do
  let upstreamObjects ← net.upstreamObjects node
  let visibleVariables ← net.visibleVariables node
  let downstream ← net.downstreamNodes node
  .ok {
    node
    upstreamObjects
    visibleVariables
    downstream
    branches := branchesOf graph net node
    mergePorts := net.mergePorts? node
    dangling := net.dangling }

/-- The fields of an inspection; ports are left out unless the node is a merge node. -/
def toJson (inspection : Inspection) : Json :=
  let branches := inspection.branches.map fun (edge, share) =>
    Json.obj (("edge", edge.toJson) :: share.fields)
  .obj <|
    [("node", inspection.node.toJson),
        ("upstream_objects", .arr (inspection.upstreamObjects.map NodeId.toJson)),
        ("visible_variables", .arr (inspection.visibleVariables.map VariableRef.toJson)),
        ("downstream", .arr (inspection.downstream.map NodeId.toJson)),
        ("branches", .arr branches)]
      ++ (inspection.mergePorts.toList.map fun ports =>
        ("merge_ports", .arr (ports.map PortId.toJson)))
      ++ [("dangling_edges", .arr (inspection.dangling.map DanglingEdge.toJson))]

end Inspection

end SceneFlow
