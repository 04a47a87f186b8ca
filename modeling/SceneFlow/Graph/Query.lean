import SceneFlow.Diagnostic
import SceneFlow.Digraph.Walk
import SceneFlow.Graph.Network

/-!
# Questions to a network

What lies before and behind a node: its neighbours, the objects and the variables that reach it,
the ports of a merge node, and how the objects that reach a node share its outgoing edges.
-/

namespace SceneFlow

/-- Why a question has no answer. -/
inductive QueryError where
  /-- There is no such node. -/
  | unknownNode (id : NodeId)
  /-- There is no such edge, or objects do not run along it, or it does not leave the node. -/
  | unknownEdge (id : EdgeId)
  /-- Edges run in a circle. -/
  | circularDependency (path : List NodeId)
deriving DecidableEq

namespace QueryError

/-- The wording of an error. -/
def message : QueryError → String
  | unknownNode id => "unknown node '" ++ id.text ++ "'"
  | unknownEdge id => "unknown or dangling edge '" ++ id.text ++ "'"
  | circularDependency path => "circular dependency: " ++ NodeId.pathText path

/-- The code under which diagnostics report an error. -/
def code : QueryError → DiagnosticCode
  | unknownNode _ | unknownEdge _ => .invalidConnection
  | circularDependency _ => .circularDependency

end QueryError

/-- A variable that can be seen from somewhere. -/
structure VariableRef where
  /-- The node. -/
  id : NodeId
  /-- Its name on the screen. -/
  name : String
deriving DecidableEq

/-- The fields of a variable. -/
def VariableRef.toJson (ref : VariableRef) : Json :=
  .obj [("id", ref.id.toJson), ("name", .str ref.name)]

/-- The objects that reach a node, as one of its outgoing edges sees them. -/
structure BranchAvailability where
  /-- The objects that may take the edge. -/
  available : List NodeId
  /-- The objects that edges before it have claimed. -/
  taken : List NodeId
deriving DecidableEq

namespace BranchAvailability

/-- The fields of a share. -/
def fields (branch : BranchAvailability) : List (String × Json) :=
  [("available", .arr (branch.available.map NodeId.toJson)),
    ("taken", .arr (branch.taken.map NodeId.toJson))]

end BranchAvailability

namespace Network

/-- The place of a node that has to exist. -/
def require (net : Network) (id : NodeId) : Except QueryError (Fin net.size) :=
  match net.find? id with
  | some v => .ok v
  | none => .error (.unknownNode id)

/-- The nodes with a link to a node, in the order of the links. -/
def upstreamNodes (net : Network) (id : NodeId) : Except QueryError (List NodeId) := do
  let v ← net.require id
  .ok ((net.incoming v).map fun link => net.id link.source)

/-- The nodes with a link from a node, in the order of the links. -/
def downstreamNodes (net : Network) (id : NodeId) : Except QueryError (List NodeId) := do
  let v ← net.require id
  .ok ((net.outgoing v).map fun link => net.id link.target)

/-- The sources of the links to a node that are to be followed. -/
def before (net : Network) (follow : Link net.size → Bool) (v : Fin net.size) :
    List (Fin net.size) :=
  ((net.incoming v).filter follow).map Link.source

/-- The targets of the links from a node. -/
def behind (net : Network) (v : Fin net.size) : List (Fin net.size) :=
  (net.outgoing v).map Link.target

/-- The nodes that a walk against the links visits, in the order of the visits. -/
def walkUp (net : Network) (follow : Link net.size → Bool) (stops : Fin net.size → Bool)
    (start : Fin net.size) : Except QueryError (List (Fin net.size)) :=
  let next := net.before follow
  match Digraph.walkFrom (Digraph.walkSteps next) next stops .fresh start with
  | .ok trail => .ok trail.visited.reverse
  | .error path => .error (.circularDependency (path.reverse.map net.id))

/-- Whether the node at a place gives rise to an object. -/
def drawable (net : Network) (v : Fin net.size) : Bool :=
  (net.node v).kind.isDrawable

/-- The drawable nodes whose objects can reach a place. The search goes against the links that
carry objects and ends at drawable nodes. -/
def objectsAt (net : Network) (v : Fin net.size) : Except QueryError (List NodeId) := do
  let visited ← net.walkUp net.carriesObjects net.drawable v
  .ok ((visited.filter net.drawable).map net.id)

/-- The drawable nodes whose objects can reach a node. -/
def upstreamObjects (net : Network) (id : NodeId) : Except QueryError (List NodeId) := do
  net.objectsAt (← net.require id)

/-- The variables before a node, which is not counted itself. -/
def visibleVariables (net : Network) (id : NodeId) : Except QueryError (List VariableRef) := do
  let visited ← net.walkUp (fun _ => true) (fun _ => false) (← net.require id)
  let results := (visited.map net.node).filter fun node => node.kind.isVariable && node.id ≠ id
  .ok (results.map fun node => ⟨node.id, node.name⟩)

/-- The input ports of a merge node, ascending. -/
def mergePorts? (net : Network) (id : NodeId) : Option (List PortId) := do
  let v ← net.find? id
  match (net.node v).kind with
  | .merge data => some (data.ports.mergeSort fun a b => a.text ≤ b.text)
  | _ => none

/-- A closed path along the links, if there is one. -/
def findCycle? (net : Network) : Option (List NodeId) :=
  (Digraph.closedPath? net.behind).map fun path => path.map net.id

/-- How the objects `all` are shared out among links up to the one of an edge, when those in
`taken` are claimed already and those in `free` are not. A link claims the free objects that pass
its target. A link to a merge node may claim objects again. -/
def shareOut (net : Network) (all : List NodeId) (edge : EdgeId) :
    List (Link net.size) → (free taken : List NodeId) → Except QueryError BranchAvailability
  | [], _, _ => .error (.unknownEdge edge)
  | link :: links, free, taken =>
    let target := (net.node link.target).kind
    if link.edge.id = edge then .ok ⟨if target.isMerge then all else free, taken⟩
    else
      let (claimed, left) := free.partition target.admits
      net.shareOut all edge links left (taken ++ claimed)

/-- The share of an outgoing edge in the objects that reach a node. Edges claim objects in the
order of their names. -/
def branch (net : Network) (source : NodeId) (edge : EdgeId) :
    Except QueryError BranchAvailability := do
  let v ← net.require source
  let all ← net.objectsAt v
  net.shareOut all edge (net.objectLinks v) all []

end Network

end SceneFlow
