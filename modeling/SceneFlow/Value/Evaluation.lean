import SceneFlow.Digraph.Schedule
import SceneFlow.Graph.Query
import SceneFlow.Value.Operation

/-!
# Evaluation of value nodes

Every value node gets its value once the values that arrive at it are known. Links between value
nodes that run in a circle leave the nodes on the circle, and those behind it, without a value;
then the evaluation fails.
-/

namespace SceneFlow

/-- The value of a node to which the given values arrive; other nodes than value nodes have
none. -/
def NodeKind.value (kind : NodeKind) (inputs : Inputs) : Option Json :=
  match kind with
  | .constant data => some data.value
  | .result data => data.value inputs
  | .comparison data => data.value inputs
  | .logic data => data.value inputs
  | .math data => data.value inputs
  | _ => none

/-- The values of the value nodes of a network. -/
structure VariableValues where
  /-- The value of each node, in the order of the nodes; `none` is the undefined value. -/
  entries : List (NodeId × Option Json)

namespace VariableValues

/-- The values of a network without value nodes. -/
def empty : VariableValues :=
  ⟨[]⟩

/-- The value of a node, unless it is undefined or the node is no value node. Of nodes with one
name the last counts. -/
def get? (values : VariableValues) (id : NodeId) : Option Json :=
  (values.entries.reverse.lookup id).join

end VariableValues

namespace Network

/-- The places of the value nodes. -/
def valuePlaces (net : Network) : List (Fin net.size) :=
  net.places.filter fun v => (net.node v).kind.isValue

/-- The value nodes behind a node. -/
def valuesBehind (net : Network) (v : Fin net.size) : List (Fin net.size) :=
  (net.behind v).filter fun u => (net.node u).kind.isValue

/-- The value nodes that can be evaluated, each behind those whose values arrive at it. -/
def valueOrder (net : Network) : List (Fin net.size) :=
  Digraph.schedule net.valuePlaces net.valuesBehind

/-- Values by place. -/
abbrev PlaceValues (net : Network) := List (Fin net.size × Option Json)

/-- What arrives at the ports of a node, when the values in `known` are known. -/
def inputs (net : Network) (known : net.PlaceValues) (v : Fin net.size) : Inputs :=
  let links := (net.incoming v).filter fun link => !net.carriesObjects link
  links.map fun link => (link.edge.targetPort, (known.lookup link.source).join)

/-- The values of some nodes, in turn. -/
def valuesOf (net : Network) (order : List (Fin net.size)) : net.PlaceValues :=
  order.foldl (fun known v => (v, (net.node v).kind.value (net.inputs known v)) :: known) []

/-- Evaluate the value nodes. Of a network that runs in a circle the nodes without a value are
told. -/
def evaluate (net : Network) : Except QueryError VariableValues :=
  let order := net.valueOrder
  match net.valuePlaces.filter fun v => v ∉ order with
  | [] =>
    let values := net.valuesOf order
    .ok ⟨net.valuePlaces.map fun v => (net.id v, (values.lookup v).join)⟩
  | stuck => .error (.circularDependency (stuck.map net.id))

end Network

end SceneFlow
