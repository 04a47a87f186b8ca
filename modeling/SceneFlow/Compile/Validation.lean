import SceneFlow.Compile.Finding

/-!
# Validation

What can be told of a graph before any object is sent through it. A graph that passes has one
terminal, sound payloads, distinct names and no circle.
-/

namespace SceneFlow

/-- Bounds on what is compiled. -/
structure Limits where
  /-- The largest number of nodes. -/
  nodes : Nat
  /-- The largest number of objects, copies included, and of objects that may arrive at one
  node. -/
  instances : Nat
deriving DecidableEq

/-- The bounds where none are asked for. -/
def Limits.standard : Limits :=
  ⟨10000, 10000⟩

namespace Network

/-- The nodes in their order. -/
def nodeList (net : Network) : List Node :=
  net.nodes.toList

/-- The media and canvases of the terminals. -/
def terminals (net : Network) : List (Output × Canvas) :=
  net.nodeList.filterMap fun node =>
    match node.kind with
    | .terminal output canvas => some (output, canvas)
    | _ => none

/-- The terminal, if there is exactly one. -/
def terminal? (net : Network) : Option (Output × Canvas) :=
  match net.terminals with
  | [only] => some only
  | _ => none

/-- Findings about the number of terminals. -/
def terminalFindings (net : Network) : List Finding :=
  match net.nodeList.filter fun node => node.kind.isTerminal with
  | [] => [.noTerminal]
  | [_] => []
  | many => [.manyTerminals (many.map Node.id)]

/-- Findings about names of nodes that are not theirs alone. -/
def idFindings (net : Network) : List Finding :=
  let ids := net.nodeList.map fun node => node.id.text
  ((sortedTexts ids).filter fun id => 1 < ids.count id).map fun id => .repeatedId ⟨id⟩

/-- Findings about one node. -/
def nodeFindings (limits : Limits) (node : Node) : List Finding :=
  let type := node.kind.typeName
  let sound := node.kind.problems.map fun problem => .badPayload type node.id problem
  let more :=
    match node.kind with
    | .duplicate data =>
      let count := data.count.toNat
      if limits.instances < count then [.tooManyCopies node.id count limits.instances] else []
    | .terminal _ canvas =>
      match Color.parse canvas.background with
      | .ok _ => []
      | .error cause => [.badBackground type node.id cause]
    | _ => []
  sound ++ more

/-- Findings about variables that cannot be told apart on the screen. -/
def nameFindings (net : Network) : List Finding :=
  let results := net.nodeList.filter fun node => node.kind.isVariable
  (sortedTexts (results.map Node.name)).filterMap fun name =>
    let ids := (results.filter fun node => node.name = name).map Node.id
    if ids.length < 2 then none else some (.sharedName name ids)

/-- Why objects that run along a link may not enter its target. -/
def refusal? (net : Network) (link : Link net.size) : Option Refusal :=
  let target := (net.node link.target).kind
  if !net.carriesObjects link then none
  else if target.isValue then some .valueNode
  else if target.isDrawable then some .drawable
  else none

/-- Findings about edges. -/
def edgeFindings (net : Network) : List Finding :=
  net.dangling.map .dangling ++ net.links.filterMap fun link =>
    (net.refusal? link).map fun refusal =>
      .refused link.edge.id (net.id link.source) (net.id link.target) refusal

/-- Everything that validation finds. A graph that is too large is not looked at further. -/
def findings (net : Network) (limits : Limits) : List Finding :=
  if limits.nodes < net.size then [.tooManyNodes net.size limits.nodes]
  else
    net.terminalFindings ++ net.idFindings ++ net.nodeList.flatMap (nodeFindings limits)
      ++ net.nameFindings ++ net.edgeFindings ++ net.findCycle?.toList.map .cycle

end Network

end SceneFlow
