import SceneFlow.Graph.Basic
import SceneFlow.Graph.Payload

/-!
# Typed nodes

A node of a document with its payload read. Nodes fall into three groups: drawable ones give rise
to objects, value nodes carry values and never objects, and all others let objects pass, the
terminals among them delivering objects to the scene.
-/

namespace SceneFlow

/-- The medium that a terminal delivers to. -/
inductive Output where
  /-- A timed video. -/
  | video
  /-- A single image. -/
  | image
deriving DecidableEq, Repr

namespace Output

/-- The media and their names in documents. -/
def names : List (String × Output) :=
  [("video", video), ("image", image)]

/-- The name of a medium in documents. -/
def name : Output → String
  | video => "video"
  | image => "image"

/-- Read a medium. -/
def ofJson : Decoder Output :=
  .choice names

/-- The name of a medium as a value. -/
def toJson (output : Output) : Json :=
  .str output.name

end Output

/-- What a node is. -/
inductive NodeKind where
  /-- A drawable shape. -/
  | geometry (data : Geometry)
  /-- An insert node. -/
  | insert (data : Insertion)
  /-- A filter. -/
  | filter (data : Filter)
  /-- A merge node. -/
  | merge (data : Merge)
  /-- A constant value. -/
  | constant (data : Constant)
  /-- A variable. -/
  | result (data : Variable)
  /-- An animation node. -/
  | animation (data : Animation)
  /-- A text style. -/
  | textStyle (data : TextStyle)
  /-- A terminal. -/
  | terminal (output : Output) (data : Canvas)
  /-- A comparison. -/
  | comparison (data : Comparison)
  /-- A connective of truth values. -/
  | logic (data : Logic)
  /-- An operation on numbers. -/
  | math (data : Arithmetic)
  /-- A duplicate node. -/
  | duplicate (data : Duplication)
  /-- A node of a type that is not known. -/
  | unknown (type : String)

/-- A node whose payload is read. -/
structure Node where
  /-- The name of the node. -/
  id : NodeId
  /-- What the editor calls it on the screen. -/
  name : String
  /-- What it is. -/
  kind : NodeKind

/-- A payload that does not fit the type of its node. -/
structure PayloadError where
  /-- The node. -/
  node : NodeId
  /-- The type of the node. -/
  type : String
  /-- Why the payload does not fit. -/
  cause : DataError

/-- The wording of an error. -/
def PayloadError.message (error : PayloadError) : String :=
  "payload error on node '" ++ error.node.text ++ "': " ++ error.type ++ " node: "
    ++ error.cause.message

namespace NodeKind

/-- The node of a type with a payload. -/
def ofPayload (type : String) (payload : Json) : Except DataError NodeKind :=
  match type with
  | "geometry" => geometry <$> Geometry.ofJson payload
  | "insert" => insert <$> Insertion.ofJson payload
  | "filter" => filter <$> Filter.ofJson payload
  | "merge" => merge <$> Merge.ofJson payload
  | "constant" => constant <$> Constant.ofJson payload
  | "result" => result <$> Variable.ofJson payload
  | "animation" => animation <$> Animation.ofJson payload
  | "text_style" => textStyle <$> TextStyle.ofJson payload
  | "scene" => terminal .video <$> Canvas.ofJson payload
  | "frame" => terminal .image <$> Canvas.ofJson payload
  | "comparison" => comparison <$> Comparison.ofJson payload
  | "boolean" => logic <$> Logic.ofJson payload
  | "math" => math <$> Arithmetic.ofJson payload
  | "duplicate" => duplicate <$> Duplication.ofJson payload
  | type => .ok (unknown type)

/-- The type of a node as documents name it. -/
def typeName : NodeKind → String
  | geometry _ => "geometry"
  | insert _ => "insert"
  | filter _ => "filter"
  | merge _ => "merge"
  | constant _ => "constant"
  | result _ => "result"
  | animation _ => "animation"
  | textStyle _ => "text_style"
  | terminal .video _ => "scene"
  | terminal .image _ => "frame"
  | comparison _ => "comparison"
  | logic _ => "boolean"
  | math _ => "math"
  | duplicate _ => "duplicate"
  | unknown type => type

/-- Whether a node gives rise to an object. -/
def isDrawable : NodeKind → Bool
  | geometry _ => true
  | _ => false

/-- Whether a node delivers objects to the scene. -/
def isTerminal : NodeKind → Bool
  | terminal _ _ => true
  | _ => false

/-- Whether a node joins paths. -/
def isMerge : NodeKind → Bool
  | merge _ => true
  | _ => false

/-- Whether a node is a variable. Variables are shown by name, so their names must differ. -/
def isVariable : NodeKind → Bool
  | result _ => true
  | _ => false

/-- Whether a node carries values and never objects. -/
def isValue : NodeKind → Bool
  | constant _ | result _ | comparison _ | logic _ | math _ => true
  | _ => false

/-- Whether an object that enters a node goes on behind it. -/
def admits (kind : NodeKind) (object : NodeId) : Bool :=
  match kind with
  | filter data => data.admits object
  | insert data => data.mode ≠ .never
  | _ => true

end NodeKind

namespace Node

/-- Read the payload of a node. None at all counts as an empty object. -/
def ofRaw (raw : RawNode) : Except PayloadError Node :=
  let payload :=
    match raw.data with
    | .null => .obj []
    | data => data
  match NodeKind.ofPayload raw.kind payload with
  | .ok kind => .ok ⟨raw.id, raw.name, kind⟩
  | .error cause => .error ⟨raw.id, raw.kind, cause⟩

/-- Read the payloads of all nodes, up to the first that does not fit. -/
def ofRaws : List RawNode → Except PayloadError (List Node)
  | [] => .ok []
  | raw :: rest => do
    let node ← ofRaw raw
    let nodes ← ofRaws rest
    .ok (node :: nodes)

end Node

/-! ### Payloads that cannot be compiled -/

/-- What is wrong with a payload that fits its type. -/
inductive PayloadProblem where
  /-- A number is not finite. -/
  | notFinite (field : String)
  /-- A number is not finite or is negative. -/
  | negative (field : String)
  /-- A merge node has no input. -/
  | noInput
  /-- Two tracks of a node have one name. -/
  | repeatedTrack (slot : Nat) (key : String)
  /-- A canvas has no area. -/
  | noArea
  /-- A canvas shows no frames. -/
  | noFrames

/-- The wording of a problem. -/
def PayloadProblem.message : PayloadProblem → String
  | .notFinite field => field ++ " must be finite"
  | .negative field => field ++ " must be finite and >= 0"
  | .noInput => "input_count must be > 0"
  | .repeatedTrack slot key =>
    "tracks[" ++ toString slot ++ "]: duplicate track id '" ++ key ++ "'"
  | .noArea => "canvas width/height must be > 0"
  | .noFrames => "fps must be finite and > 0"

namespace NodeKind

/-- A problem unless the number is finite. -/
def checkFinite (field : String) (x : Float) : List PayloadProblem :=
  if x.isFinite then [] else [.notFinite field]

/-- A problem unless the number is finite and not negative. -/
def checkDuration (field : String) (x : Float) : List PayloadProblem :=
  if !x.isFinite || x < 0 then [.negative field] else []

/-- The problems of the tracks of a node from a slot on, behind tracks with the names `seen`. -/
def trackProblems (slot : Nat) (seen : List String) : List Track → List PayloadProblem
  | [] => []
  | track :: rest =>
    let place := "tracks[" ++ toString slot ++ "]."
    checkFinite (place ++ "start_offset") track.startOffset
      ++ checkDuration (place ++ "duration") track.duration
      ++ (if seen.contains track.key then [.repeatedTrack slot track.key] else [])
      ++ trackProblems (slot + 1) (track.key :: seen) rest

/-- What makes a node unfit for compilation. -/
def problems : NodeKind → List PayloadProblem
  | geometry g =>
    checkFinite "position.x" g.position.x ++ checkFinite "position.y" g.position.y
      ++ checkFinite "rotation" g.rotation
      ++ checkFinite "scale.x" g.scale.x ++ checkFinite "scale.y" g.scale.y
      ++ checkFinite "opacity" g.opacity
  | insert i => checkDuration "delay" i.delay
  | merge m => if m.inputCount = 0 then [.noInput] else []
  | animation a =>
    (match a.duration with
      | some duration => checkDuration "duration" duration
      | none => [])
      ++ trackProblems 0 [] a.tracks
  | terminal _ c =>
    (if c.width = 0 ∨ c.height = 0 then [.noArea] else [])
      ++ (if !c.fps.isFinite || c.fps ≤ 0 then [.noFrames] else [])
      ++ checkDuration "duration" c.duration
  | duplicate d => if d.offset.isFinite then [] else [.notFinite "offset"]
  | _ => []

end NodeKind

end SceneFlow
