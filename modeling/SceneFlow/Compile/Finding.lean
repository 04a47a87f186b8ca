import SceneFlow.Decimal.Style
import SceneFlow.Motion.Rendering
import SceneFlow.Override.Resolution

/-!
# Findings

Everything that a compilation can find to tell the user, by its cause, and the diagnostic that
tells it.
-/

namespace SceneFlow

/-- How a message writes a number: without an exponent, and a whole number without a point. -/
def messageNumber : Decimal.Style where
  isPlain _ := true
  pointZero := false
  tie := .up
  infinity := "inf"
  negativeInfinity := "-inf"
  notANumber := "NaN"

/-- Why objects may not enter a node. -/
inductive Refusal where
  /-- It is a value node. -/
  | valueNode
  /-- It is a drawable node. -/
  | drawable
deriving DecidableEq

/-- The wording of a refusal. -/
def Refusal.message : Refusal → String
  | valueNode => "value nodes do not accept objects"
  | drawable => "geometry nodes do not accept objects"

/-- What a compilation finds. -/
inductive Finding where
  /-- The graph has more nodes than allowed. -/
  | tooManyNodes (count limit : Nat)
  /-- The graph has no terminal. -/
  | noTerminal
  /-- The graph has several terminals. -/
  | manyTerminals (ids : List NodeId)
  /-- Several nodes have one name. -/
  | repeatedId (id : NodeId)
  /-- A node cannot be compiled as it is configured. -/
  | badPayload (type : String) (id : NodeId) (problem : PayloadProblem)
  /-- A duplicate node makes more copies than there may be objects. -/
  | tooManyCopies (id : NodeId) (count limit : Nat)
  /-- The background of a terminal is no colour. -/
  | badBackground (type : String) (id : NodeId) (cause : ColorError)
  /-- Several variables have one name on the screen. -/
  | sharedName (name : String) (ids : List NodeId)
  /-- An edge is not attached. -/
  | dangling (edge : DanglingEdge)
  /-- Objects would enter a node that does not take them. -/
  | refused (edge : EdgeId) (source target : NodeId) (refusal : Refusal)
  /-- Edges run in a circle. -/
  | cycle (path : List NodeId)
  /-- The value nodes cannot be evaluated. -/
  | unresolved (error : QueryError)
  /-- More objects arrive at a node than there may be. -/
  | crowded (id : NodeId) (count limit : Nat)
  /-- A binding is passed over. -/
  | stale (binding : StaleBinding)
  /-- A track of an animation node cannot be rendered for an object. -/
  | badTrack (id object : NodeId) (problem : TrackProblem)
  /-- A duplicate node would make more objects than there may be. -/
  | copyLimit (id : NodeId) (limit : Nat)
  /-- Objects arrive at a node of a type that is not known. -/
  | unknownType (id : NodeId) (type : String) (objects : List NodeId)
  /-- A drawable node has no outgoing edge. -/
  | unconnected (id : NodeId) (severity : Severity)
  /-- An object arrives at a node from which no edge leads on. -/
  | deadEnd (object id : NodeId)
  /-- An object is delivered more than once; the edges that deliver it again, each with the node
  it leaves. -/
  | repeatedDelivery (object : NodeId) (count : Nat) (origin : NodeId)
    (again : List (EdgeId × NodeId))
  /-- An object is delivered without an insert node on its way. -/
  | notInserted (object origin : NodeId) (severity : Severity)
  /-- The transform of an object cannot be read. -/
  | badTransform (object origin : NodeId) (problem : FieldProblem)
  /-- A motion starts before the scene. -/
  | early (placed : ObjectMotion)
  /-- A motion ends after the scene. -/
  | late (placed : ObjectMotion) (duration : Float)

namespace Finding

/-- An error without suggestions. -/
def error (code : DiagnosticCode) (message : String) (nodes : List NodeId) : Diagnostic :=
  ⟨code, message, .error, [], nodes⟩

/-- What is wrong with a dangling edge. -/
def danglingText (dangling : DanglingEdge) : String :=
  match dangling.reason with
  | .unknownSource => "source node '" ++ dangling.edge.source.text ++ "' does not exist"
  | .unknownTarget => "target node '" ++ dangling.edge.target.text ++ "' does not exist"
  | .invalidPort port =>
    "merge node '" ++ dangling.edge.target.text ++ "' has no input port '" ++ port.text ++ "'"

/-- What to do about an edge that delivers an object again. -/
def againText (origin : NodeId) (edge : EdgeId) (source : NodeId) : String :=
  "connection '" ++ edge.text ++ "' from '" ++ source.text ++ "' re-delivers '" ++ origin.text
    ++ "' already claimed by a sibling branch; join the branches with a merge node or add a filter"

/-- The diagnostic that tells a finding. -/
def diagnostic : Finding → Diagnostic
  | tooManyNodes count limit =>
    error .sceneValidationFailed
      ("graph has " ++ toString count ++ " nodes, more than the allowed " ++ toString limit) []
  | noTerminal =>
    { error .sceneRequired "graph has no scene or frame node" [] with
      suggestions := ["add a scene node and connect your objects to it"] }
  | manyTerminals ids =>
    { error .tooManyScenes
        ("graph has " ++ toString ids.length ++ " scene/frame nodes, expected exactly one") ids with
      suggestions := ["delete the extra scene or frame nodes"] }
  | repeatedId id =>
    error .nodeValidationFailed ("node id '" ++ id.text ++ "' is used by more than one node") [id]
  | badPayload type id problem =>
    error .nodeValidationFailed (type ++ " node '" ++ id.text ++ "': " ++ problem.message) [id]
  | tooManyCopies id count limit =>
    error .nodeValidationFailed
      ("duplicate node '" ++ id.text ++ "': count " ++ toString count
        ++ " exceeds the instance limit " ++ toString limit)
      [id]
  | badBackground type id cause =>
    error .nodeValidationFailed
      (type ++ " node '" ++ id.text ++ "': background: " ++ cause.message) [id]
  | sharedName name ids =>
    { error .nodeValidationFailed
        ("display name '" ++ name ++ "' is shared by " ++ toString ids.length ++ " nodes") ids with
      suggestions := ["rename the variables so each name is unique"] }
  | dangling edge =>
    { code := .invalidConnection
      message := "dangling connection '" ++ edge.edge.id.text ++ "': " ++ danglingText edge
      severity := .warning
      suggestions := ["reconnect or delete the connection"]
      nodes := [] }
  | refused edge source target refusal =>
    error .invalidConnection
      ("connection '" ++ edge.text ++ "' from '" ++ source.text ++ "' into '" ++ target.text
        ++ "': " ++ refusal.message)
      [source, target]
  | cycle path =>
    { error .circularDependency ("circular dependency: " ++ NodeId.pathText path) path with
      suggestions := ["remove one of the connections in the loop"] }
  | unresolved cause => error cause.code cause.message []
  | crowded id count limit =>
    error .sceneValidationFailed
      ("node '" ++ id.text ++ "' receives " ++ toString count
        ++ " object paths, more than the allowed " ++ toString limit)
      [id]
  | stale binding => binding.diagnostic
  | badTrack id object problem =>
    error .nodeValidationFailed
      ("animation node '" ++ id.text ++ "', object '" ++ object.text ++ "': " ++ problem.message)
      [id]
  | copyLimit id limit =>
    { error .sceneValidationFailed
        ("duplicate node '" ++ id.text ++ "' would raise the instance count above the allowed "
          ++ toString limit)
        [id] with
      suggestions := ["lower the duplicate count"] }
  | unknownType id type objects =>
    error .nodeValidationFailed
      ("node '" ++ id.text ++ "' has unknown type '" ++ type ++ "' on the path of "
        ++ ", ".intercalate (objects.map NodeId.text))
      [id]
  | unconnected id severity =>
    { code := .missingInsertConnection
      message := "object '" ++ id.text ++ "' is not connected to anything"
      severity
      suggestions := ["connect the object to an insert node"]
      nodes := [id] }
  | deadEnd object id =>
    { code := .invalidConnection
      message :=
        "path of object '" ++ object.text ++ "' ends at node '" ++ id.text
          ++ "' without reaching the scene"
      severity := .warning
      suggestions := []
      nodes := [id] }
  | repeatedDelivery object count origin again =>
    { error .duplicateObjectIds
        ("object '" ++ object.text ++ "' reaches the scene through " ++ toString count
          ++ " separate paths")
        [origin] with
      suggestions := again.map fun (edge, source) => againText origin edge source }
  | notInserted object origin severity =>
    { code := .missingInsertConnection
      message := "object '" ++ object.text ++ "' reaches the scene without an insert node"
      severity
      suggestions := ["route the object through an insert node"]
      nodes := [origin] }
  | badTransform object origin problem =>
    error .nodeValidationFailed ("object '" ++ object.text ++ "': " ++ problem.message) [origin]
  | early placed =>
    { code := .sceneValidationFailed
      message :=
        placed.motion.kind.name ++ " track of '" ++ placed.object.text ++ "' starts at "
          ++ messageNumber.render placed.motion.start ++ "s, before the scene starts"
      severity := .warning
      suggestions := []
      nodes := [placed.object] }
  | late placed duration =>
    { code := .sceneValidationFailed
      message :=
        placed.motion.kind.name ++ " track of '" ++ placed.object.text ++ "' ends at "
          ++ messageNumber.render placed.motion.finish ++ "s, after the "
          ++ messageNumber.render duration ++ "s scene ends"
      severity := .warning
      suggestions := ["shorten the track or raise the frame duration"]
      nodes := [placed.object] }

/-- Whether a finding stands in the way of a scene. -/
def isError (finding : Finding) : Bool :=
  finding.diagnostic.isError

end Finding

end SceneFlow
