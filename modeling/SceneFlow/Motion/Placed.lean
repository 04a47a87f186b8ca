import SceneFlow.Identifier
import SceneFlow.Motion.Track
import SceneFlow.Vec2

/-!
# Tracks in the time of the scene

A motion is a track whose times count from the start of the scene and whose endpoints are read. In
a scene every motion belongs to an object.
-/

namespace SceneFlow

/-- What a motion leads from and to. -/
inductive Endpoints where
  /-- Two colours of a named property. -/
  | color (property first last : String)
  /-- Two angles in degrees, and the full turns between them. -/
  | angle (first last turns : Float)
  /-- Two positions or two pairs of factors. -/
  | vector (first last : Vec2)
  /-- Two opacities. -/
  | scalar (first last : Float)
deriving DecidableEq

namespace Endpoints

/-- The name of the type in documents. -/
def typeName : String := "TrackProperties"

/-- Read endpoints, in the first of the four forms that they fit. -/
def ofJson : Decoder Endpoints :=
  .firstOf typeName
    [.record typeName <| color
        <$> .required "property" .text
        <*> .required "from" .text
        <*> .required "to" .text,
      .record typeName <| angle
        <$> .required "from" .double
        <*> .required "to" .double
        <*> .required "rotations" .double,
      .record typeName <| vector
        <$> .required "from" Vec2.ofJson
        <*> .required "to" Vec2.ofJson,
      .record typeName <| scalar
        <$> .required "from" .double
        <*> .required "to" .double]

/-- The fields of endpoints. -/
def toJson : Endpoints → Json
  | color property first last =>
    .obj [("property", .str property), ("from", .str first), ("to", .str last)]
  | angle first last turns =>
    .obj [("from", .ofFloat first), ("to", .ofFloat last), ("rotations", .ofFloat turns)]
  | vector first last => .obj [("from", first.toJson), ("to", last.toJson)]
  | scalar first last => .obj [("from", .ofFloat first), ("to", .ofFloat last)]

end Endpoints

/-- A track in the time of the scene. -/
structure Motion where
  /-- What it animates. -/
  kind : TrackKind
  /-- When it starts. -/
  start : Float
  /-- How long it lasts. -/
  duration : Float
  /-- How its progress follows time. -/
  easing : Ease
  /-- What it leads from and to. -/
  endpoints : Endpoints
deriving DecidableEq

namespace Motion

/-- When a motion ends. -/
def finish (motion : Motion) : Float :=
  motion.start + motion.duration

/-- The progress of a motion at a time. -/
def progressAt (motion : Motion) (time : Float) : Float :=
  motion.easing.progress motion.start motion.duration time

end Motion

/-- A motion of an object. -/
structure ObjectMotion where
  /-- The object. -/
  object : NodeId
  /-- The motion. -/
  motion : Motion
deriving DecidableEq

namespace ObjectMotion

/-- Read a motion of an object. -/
def ofJson : Decoder ObjectMotion :=
  .record "ConcreteTrack" <| (fun object kind start duration easing endpoints =>
      ⟨object, ⟨kind, start, duration, easing, endpoints⟩⟩)
    <$> .required "objectId" NodeId.ofJson
    <*> .required "type" TrackKind.ofJson
    <*> .required "startTime" .double
    <*> .required "duration" .double
    <*> .required "easing" Ease.ofJson
    <*> .required "properties" Endpoints.ofJson

/-- The fields of a motion of an object. -/
def toJson (placed : ObjectMotion) : Json :=
  .obj [("objectId", placed.object.toJson), ("type", placed.motion.kind.toJson),
    ("startTime", .ofFloat placed.motion.start), ("duration", .ofFloat placed.motion.duration),
    ("easing", placed.motion.easing.toJson), ("properties", placed.motion.endpoints.toJson)]

end ObjectMotion

end SceneFlow
