import SceneFlow.Json.Decoder

/-!
# Vectors in the plane
-/

namespace SceneFlow

/-- A point of the canvas, an offset or a pair of factors. -/
structure Vec2 where
  /-- The horizontal part. -/
  x : Float
  /-- The vertical part. -/
  y : Float
deriving DecidableEq

namespace Vec2

/-- The origin. -/
def zero : Vec2 := ⟨0, 0⟩

/-- The factors that change nothing. -/
def one : Vec2 := ⟨1, 1⟩

instance : Add Vec2 :=
  ⟨fun a b => ⟨a.x + b.x, a.y + b.y⟩⟩

/-- A vector a number of times. -/
def scale (a : Vec2) (factor : Float) : Vec2 :=
  ⟨a.x * factor, a.y * factor⟩

/-- Both parts are finite. -/
def isFinite (a : Vec2) : Bool :=
  a.x.isFinite && a.y.isFinite

/-- Read a vector, an object with two fields or a list of two numbers. -/
def ofJson : Decoder Vec2 :=
  .record "Vec2" <| mk
    <$> .required "x" .double
    <*> .required "y" .double

/-- The fields of the vector. -/
def toJson (a : Vec2) : Json :=
  .obj [("x", .ofFloat a.x), ("y", .ofFloat a.y)]

end Vec2

end SceneFlow
