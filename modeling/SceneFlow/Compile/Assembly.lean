import SceneFlow.Compile.Flow
import SceneFlow.Decimal.Shortest
import SceneFlow.Scene.Basic

/-!
# Assembling the scene

Delivered tokens become objects, their properties resolved; objects and motions are put in order,
and motions that exceed the time of the scene are reported but left as they are.
-/

namespace SceneFlow

/-! ### Objects -/

/-- What a drawable node holds for an object: the properties of the shape, the style laid over
them, and the transform. -/
def Token.canvasView (token : Token) : Entries Json :=
  let geometry := token.geometry
  let transform :=
    [("position", (geometry.position + token.offset).toJson),
      ("rotation", .ofFloat geometry.rotation), ("scale", geometry.scale.toJson),
      ("opacity", .ofFloat geometry.opacity)]
  (geometry.properties.overlay token.style).overlay transform

/-- Read the transform of a resolved view. -/
def Transform.ofView (view : Entries Json) : Except FieldProblem Transform := do
  let position ← Field.vector Entries.get? view "position" .zero
  let scale ← Field.vector Entries.get? view "scale" .one
  let rotation ← Field.number Entries.get? view "rotation" "rotation" 0
  let opacity ← Field.number Entries.get? view "opacity" "opacity" 1
  .ok ⟨position, rotation, scale, opacity⟩

/-- The names of the fields that make up the transform. -/
def Transform.fieldNames : List String :=
  ["position", "rotation", "scale", "opacity"]

/-- The object that a delivered token becomes, unless its transform cannot be read. -/
def Token.object (token : Token) (resolver : Resolver) :
    Except Finding SceneObject × List Finding :=
  let (view, stale) := resolver.view FieldPath.canvas token.canvasView (.object token.name)
  let object :=
    match Transform.ofView view with
    | .ok transform =>
      let properties := Transform.fieldNames.foldl Entries.erase view
      .ok ⟨token.name, token.origin, token.geometry.shape, transform, properties, token.insertTime⟩
    | .error problem => .error (.badTransform token.name token.origin problem)
  (object, stale.map .stale)

/-- The motions of a token under the name of its object. -/
def Token.objectMotions (token : Token) : List ObjectMotion :=
  token.motions.map fun (_, motion) => ⟨token.name, motion⟩

/-- What delivered tokens become. -/
structure Cast where
  /-- The objects. -/
  objects : List SceneObject
  /-- Their motions. -/
  motions : List ObjectMotion
  /-- What is found. -/
  findings : List Finding

namespace Cast

/-- Nothing at all. -/
def empty : Cast :=
  ⟨[], [], []⟩

/-- What delivered tokens become, in their order. The motions of a token without an object are
dropped; what stands in the way of its object is found behind what is noted about it. -/
def ofTokens (resolver : Resolver) (delivered : List Token) : Cast :=
  let results := delivered.map fun token => (token, token.object resolver)
  { objects := results.filterMap fun (_, object, _) => object.toOption
    motions := results.flatMap fun (token, object, _) =>
      if object.isOk then token.objectMotions else []
    findings := results.flatMap fun (_, object, notes) =>
      match object with
      | .ok _ => notes
      | .error finding => notes ++ [finding] }

end Cast

/-! ### Time -/

/-- The place of a double in the total order of its bit patterns, in which negative zero comes
before zero. -/
def totalRank (x : Float) : Int :=
  let bits := x.toBits.toNat
  if bits < 0x8000000000000000 then bits else 0x7FFFFFFFFFFFFFFF - (bits : Int)

/-- Whether a motion may stand before another: objects go by their names, motions of one object by
their starts. -/
def ObjectMotion.before (a b : ObjectMotion) : Bool :=
  a.object.text < b.object.text
    || (a.object = b.object && totalRank a.motion.start ≤ totalRank b.motion.start)

/-- How far behind the end of the scene a motion may end without being reported. -/
def endTolerance : Float := 1e-9

/-- What is found of a motion in a scene of some duration. -/
def ObjectMotion.timeFindings (duration : Float) (placed : ObjectMotion) : List Finding :=
  (if placed.motion.start < 0 then [.early placed] else [])
    ++ if duration + endTolerance < placed.motion.finish then [.late placed duration] else []

/-- The duration of a scene: that of the canvas, which a video stretches to the end of its last
motion. -/
def Output.duration (output : Output) (canvas : Canvas) (motions : List ObjectMotion) : Float :=
  match output with
  | .video =>
    later canvas.duration
      (motions.foldl (fun latest placed => later latest placed.motion.finish) 0)
  | .image => canvas.duration

/-- The scene with the given objects and motions, and what is found of its times. -/
def Cast.scene (cast : Cast) (output : Output) (canvas : Canvas) : Scene × List Finding :=
  let objects := cast.objects.mergeSort fun a b => a.id.text ≤ b.id.text
  let motions := cast.motions.mergeSort ObjectMotion.before
  let duration := output.duration canvas motions
  let background :=
    match Color.parse canvas.background with
    | .ok color => color.text
    | .error _ => canvas.background
  ({  output
      duration
      width := canvas.width
      height := canvas.height
      fps := canvas.fps
      background
      video := canvas.video
      objects
      animations := motions },
    motions.flatMap (ObjectMotion.timeFindings duration))

end SceneFlow
