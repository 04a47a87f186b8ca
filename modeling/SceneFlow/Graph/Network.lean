import SceneFlow.Graph.Fingerprint
import SceneFlow.Graph.Node

/-!
# Networks

A network is a graph whose payloads are read and whose edges are attached to their nodes. An edge
that names a node that does not exist, or an input of a merge node that the node does not have, is
kept aside as dangling; no object and no value runs along it. Where several nodes have one name,
the first of them is meant.
-/

namespace SceneFlow

/-! ### Ports of merge nodes -/

namespace Merge

/-- The input port with a number. -/
def port (number : Nat) : PortId :=
  ⟨"input-" ++ toString number⟩

/-- The input ports in the order of their numbers. -/
def ports (merge : Merge) : List PortId :=
  (List.range merge.inputCount.toNat).map port

end Merge

/-- Whether edges may enter a node at a port: at any, except that a merge node has its own. -/
def NodeKind.accepts (kind : NodeKind) (port : PortId) : Bool :=
  match kind with
  | .merge data => data.ports.contains port
  | _ => true

/-! ### Attached and dangling edges -/

/-- An edge attached at both ends, among `n` nodes. -/
structure Link (n : Nat) where
  /-- The edge. -/
  edge : Edge
  /-- The node it leaves. -/
  source : Fin n
  /-- The node it enters. -/
  target : Fin n

/-- Why an edge is not attached. -/
inductive DanglingReason where
  /-- There is no node that it could leave. -/
  | unknownSource
  /-- There is no node that it could enter. -/
  | unknownTarget
  /-- The merge node that it should enter has no such port. -/
  | invalidPort (port : PortId)
deriving DecidableEq

/-- An edge that is not attached. -/
structure DanglingEdge where
  /-- The edge. -/
  edge : Edge
  /-- Why it is not attached. -/
  reason : DanglingReason
deriving DecidableEq

namespace DanglingReason

/-- The name of a reason in documents. -/
def name : DanglingReason → String
  | unknownSource => "unknown_source"
  | unknownTarget => "unknown_target"
  | invalidPort _ => "invalid_port"

/-- The fields by which documents tell a reason. -/
def fields (reason : DanglingReason) : List (String × Json) :=
  match reason with
  | invalidPort port => [("reason", .str reason.name), ("port", port.toJson)]
  | _ => [("reason", .str reason.name)]

end DanglingReason

/-- The fields of a dangling edge. -/
def DanglingEdge.toJson (dangling : DanglingEdge) : Json :=
  .obj <|
    [("edge", dangling.edge.id.toJson), ("source", dangling.edge.source.toJson),
      ("target", dangling.edge.target.toJson)]
      ++ dangling.reason.fields

/-- A graph with its payloads read and its edges attached. -/
structure Network where
  /-- The nodes, in the order of the graph. -/
  nodes : Array Node
  /-- The attached edges, in the order of their names. -/
  links : List (Link nodes.size)
  /-- The links that enter each node. -/
  entering : Vector (List (Link nodes.size)) nodes.size
  /-- The links that leave each node. -/
  leaving : Vector (List (Link nodes.size)) nodes.size
  /-- The other edges, in the order of their names. -/
  dangling : List DanglingEdge
  /-- The fingerprint of the graph. -/
  fingerprint : Fingerprint
  /-- Links enter the nodes that are their targets. -/
  entering_eq : ∀ v, entering[v] = links.filter fun link => link.target = v
  /-- Links leave the nodes that are their sources. -/
  leaving_eq : ∀ v, leaving[v] = links.filter fun link => link.source = v

namespace Network

/-- The place of the node with a name. -/
def place? (nodes : Array Node) (id : NodeId) : Option (Fin nodes.size) :=
  nodes.findFinIdx? fun node => node.id = id

/-- Attach an edge to its nodes. -/
def attach (nodes : Array Node) (edge : Edge) : Except DanglingReason (Link nodes.size) :=
  match place? nodes edge.source, place? nodes edge.target with
  | none, _ => .error .unknownSource
  | some _, none => .error .unknownTarget
  | some source, some target =>
    if nodes[target].kind.accepts edge.targetPort then .ok ⟨edge, source, target⟩
    else .error (.invalidPort edge.targetPort)

/-- The link that an edge becomes, if it is attached. -/
def link? (nodes : Array Node) (edge : Edge) : Option (Link nodes.size) :=
  (attach nodes edge).toOption

/-- The edge with the reason why it is not attached, if it is not. -/
def dangling? (nodes : Array Node) (edge : Edge) : Option DanglingEdge :=
  match attach nodes edge with
  | .ok _ => none
  | .error reason => some ⟨edge, reason⟩

/-- The edges in the order of their names; edges of one name stay in their order. -/
def sortEdges (edges : List Edge) : List Edge :=
  edges.mergeSort fun a b => a.id.text ≤ b.id.text

/-- The network of some nodes and links. -/
def ofLinks (nodes : Array Node) (links : List (Link nodes.size)) (dangling : List DanglingEdge)
    (fingerprint : Fingerprint) : Network where
  nodes
  links
  entering := .ofFn fun v => links.filter fun link => link.target = v
  leaving := .ofFn fun v => links.filter fun link => link.source = v
  dangling
  fingerprint
  entering_eq v := by simp
  leaving_eq v := by simp

/-- The network of a graph, unless the payload of a node does not fit. -/
def ofGraph (graph : Graph) : Except PayloadError Network := do
  let nodes := (← Node.ofRaws graph.nodes).toArray
  let edges := sortEdges graph.edges
  .ok (ofLinks nodes (edges.filterMap (link? nodes)) (edges.filterMap (dangling? nodes))
    graph.fingerprint)

/-- The number of nodes. -/
abbrev size (net : Network) : Nat :=
  net.nodes.size

/-- The node at a place. -/
def node (net : Network) (v : Fin net.size) : Node :=
  net.nodes[v]

/-- The places of all nodes. -/
def places (net : Network) : List (Fin net.size) :=
  List.finRange net.size

/-- The name of the node at a place. -/
def id (net : Network) (v : Fin net.size) : NodeId :=
  (net.node v).id

/-- The place of the node with a name. -/
def find? (net : Network) (id : NodeId) : Option (Fin net.size) :=
  place? net.nodes id

/-- The links that enter a node. -/
def incoming (net : Network) (v : Fin net.size) : List (Link net.size) :=
  net.entering[v]

/-- The links that leave a node. -/
def outgoing (net : Network) (v : Fin net.size) : List (Link net.size) :=
  net.leaving[v]

theorem incoming_eq_filter (net : Network) (v : Fin net.size) :
    net.incoming v = net.links.filter fun link => link.target = v :=
  net.entering_eq v

theorem outgoing_eq_filter (net : Network) (v : Fin net.size) :
    net.outgoing v = net.links.filter fun link => link.source = v :=
  net.leaving_eq v

/-- Whether objects run along a link. Along the others, which leave value nodes, values do. -/
def carriesObjects (net : Network) (link : Link net.size) : Bool :=
  !(net.node link.source).kind.isValue

/-- The links along which objects leave a node. -/
def objectLinks (net : Network) (v : Fin net.size) : List (Link net.size) :=
  (net.outgoing v).filter net.carriesObjects

end Network

end SceneFlow
