import SceneFlow.Fingerprint
import SceneFlow.Graph.Node
import SceneFlow.Motion.Placed

/-!
# Scenes

A scene is what a graph is compiled to: a canvas, the objects on it and their motions in time.
-/

namespace SceneFlow

/-- Where and how an object is drawn at first. -/
structure Transform where
  /-- The position in pixels. -/
  position : Vec2
  /-- The angle in degrees. -/
  rotation : Float
  /-- The factors of both axes. -/
  scale : Vec2
  /-- The opacity. -/
  opacity : Float
deriving DecidableEq

/-- An object of a scene. -/
structure SceneObject where
  /-- Its name: that of its drawable node, with a mark for every duplicate node that made a copy
  of it. -/
  id : NodeId
  /-- Its drawable node. -/
  origin : NodeId
  /-- Its family. -/
  kind : ShapeKind
  /-- How it is drawn at first. -/
  transform : Transform
  /-- Properties of the family. -/
  properties : Entries Json
  /-- When an insert node placed it, if one did. -/
  insertTime : Option Float

/-- A scene. -/
structure Scene where
  /-- The medium. -/
  output : Output
  /-- The duration in seconds. -/
  duration : Float
  /-- The width in pixels. -/
  width : UInt32
  /-- The height in pixels. -/
  height : UInt32
  /-- Frames a second. -/
  fps : Float
  /-- The background colour. -/
  background : String
  /-- Settings for the encoder. -/
  video : Option Json
  /-- The objects. -/
  objects : List SceneObject
  /-- Their motions. -/
  animations : List ObjectMotion

namespace Transform

/-- Read a transform. -/
def ofJson : Decoder Transform :=
  .record "ObjectTransform" <| mk
    <$> .required "position" Vec2.ofJson
    <*> .required "rotation" .double
    <*> .required "scale" Vec2.ofJson
    <*> .required "opacity" .double

/-- The fields of a transform. -/
def toJson (transform : Transform) : Json :=
  .obj [("position", transform.position.toJson), ("rotation", .ofFloat transform.rotation),
    ("scale", transform.scale.toJson), ("opacity", .ofFloat transform.opacity)]

end Transform

namespace SceneObject

/-- Read an object. -/
def ofJson : Decoder SceneObject :=
  .record "DrawableObject" <| mk
    <$> .required "id" NodeId.ofJson
    <*> .required "origin" NodeId.ofJson
    <*> .required "type" ShapeKind.ofJson
    <*> .required "transform" Transform.ofJson
    <*> .required "properties" .object
    <*> .optional "insertTime" .double

/-- The fields of an object; a missing time is left out. -/
def toJson (object : SceneObject) : Json :=
  .obj <|
    [("id", object.id.toJson), ("origin", object.origin.toJson), ("type", object.kind.toJson),
        ("transform", object.transform.toJson), ("properties", .obj object.properties)]
      ++ object.insertTime.toList.map fun time => ("insertTime", .ofFloat time)

end SceneObject

namespace Scene

/-- Read a scene. -/
def ofJson : Decoder Scene :=
  .record "Scene" <| mk
    <$> .required "output" Output.ofJson
    <*> .required "duration" .double
    <*> .required "width" .word
    <*> .required "height" .word
    <*> .required "fps" .double
    <*> .required "background" .text
    <*> .optional "video" .any
    <*> .required "objects" (.list SceneObject.ofJson)
    <*> .required "animations" (.list ObjectMotion.ofJson)

/-- The fields of a scene; missing settings for the encoder are left out. -/
def toJson (scene : Scene) : Json :=
  .obj <|
    [("output", scene.output.toJson), ("duration", .ofFloat scene.duration),
        ("width", .ofNat scene.width.toNat), ("height", .ofNat scene.height.toNat),
        ("fps", .ofFloat scene.fps), ("background", .str scene.background)]
      ++ (scene.video.toList.map fun video => ("video", video))
      ++ [("objects", .arr (scene.objects.map SceneObject.toJson)),
        ("animations", .arr (scene.animations.map ObjectMotion.toJson))]

/-- The object with a name. -/
def object? (scene : Scene) (id : NodeId) : Option SceneObject :=
  scene.objects.find? fun object => object.id = id

/-- The motions of an object. -/
def motionsOf (scene : Scene) (id : NodeId) : List ObjectMotion :=
  scene.animations.filter fun placed => placed.object = id

/-- The text of a scene that its fingerprint is made of. -/
def canonical (scene : Scene) : String :=
  scene.toJson.compact

/-- The fingerprint of a scene. -/
def fingerprint (scene : Scene) : Fingerprint :=
  .ofBytes (Fingerprint.textBytes scene.canonical)

end Scene

end SceneFlow
