import SceneFlow.Identifier
import SceneFlow.Motion.Track
import SceneFlow.Vec2

/-!
# Node payloads

What the nodes of each type are configured with, and how it is read from the payload of a
document.
-/

namespace SceneFlow

/-- The family of a drawable shape. -/
inductive ShapeKind where
  /-- A triangle. -/
  | triangle
  /-- A circle. -/
  | circle
  /-- A rectangle. -/
  | rectangle
  /-- A shape that only its name is known of. -/
  | other (name : String)
deriving DecidableEq, Repr

namespace ShapeKind

/-- The family with a name. -/
def ofName (name : String) : ShapeKind :=
  if name = "triangle" then triangle
  else if name = "circle" then circle
  else if name = "rectangle" then rectangle
  else other name

/-- The name of a family. -/
def name : ShapeKind → String
  | triangle => "triangle"
  | circle => "circle"
  | rectangle => "rectangle"
  | other name => name

/-- Read a family. -/
def ofJson : Decoder ShapeKind := fun value => (Decoder.text value).map ofName

/-- The name of a family as a value. -/
def toJson (kind : ShapeKind) : Json :=
  .str kind.name

end ShapeKind

/-- A drawable shape with its place on the canvas. -/
structure Geometry where
  /-- The family. -/
  shape : ShapeKind
  /-- The position in pixels. -/
  position : Vec2
  /-- The angle in degrees. -/
  rotation : Float
  /-- The factors of both axes. -/
  scale : Vec2
  /-- The opacity, one when fully visible. -/
  opacity : Float
  /-- Properties of the family, such as colours and sizes. -/
  properties : Entries Json

/-- Read a shape. -/
def Geometry.ofJson : Decoder Geometry :=
  .record "GeometryData" <| mk
    <$> .required "shape" ShapeKind.ofJson
    <*> .defaulted "position" Vec2.ofJson .zero
    <*> .defaulted "rotation" .double 0
    <*> .defaulted "scale" Vec2.ofJson .one
    <*> .defaulted "opacity" .double 1
    <*> .defaulted "properties" .object []

/-- Whether an insert node lets objects pass. -/
inductive InsertMode where
  /-- Objects pass and count as inserted. -/
  | always
  /-- No object passes. -/
  | never
deriving DecidableEq, Repr

/-- Places objects into the scene after a delay. -/
structure Insertion where
  /-- Whether objects pass. -/
  mode : InsertMode
  /-- The delay in seconds. -/
  delay : Float

/-- Read an insertion. -/
def Insertion.ofJson : Decoder Insertion :=
  .record "InsertData" <| mk
    <$> .defaulted "mode" (.choice [("always", .always), ("never", .never)]) .always
    <*> .defaulted "delay" .double 0

/-- Lets some objects pass. -/
structure Filter where
  /-- The objects selected, all of them if none are listed. -/
  objects : Option (List NodeId)
  /-- Let pass the objects that are not selected instead. -/
  invert : Bool
deriving DecidableEq

/-- Whether a filter lets an object pass. -/
def Filter.admits (filter : Filter) (object : NodeId) : Bool :=
  let selected :=
    match filter.objects with
    | some objects => objects.contains object
    | none => true
  selected != filter.invert

/-- Read a filter. -/
def Filter.ofJson : Decoder Filter :=
  .record "FilterData" <| mk
    <$> .optional "objects" (.list NodeId.ofJson)
    <*> .defaulted "invert" .bool false

/-- Joins the paths of each object. -/
structure Merge where
  /-- The number of input ports. -/
  inputCount : UInt32
deriving DecidableEq

/-- Read a merge. -/
def Merge.ofJson : Decoder Merge :=
  .record "MergeData" <| mk <$> .defaulted "input_count" .word 2

/-- Holds a value. -/
structure Constant where
  /-- The value. -/
  value : Json

/-- Read a constant. -/
def Constant.ofJson : Decoder Constant :=
  .record "ConstantData" <| mk <$> .required "value" .any

/-- The declared type of a variable. -/
inductive ValueType where
  /-- A finite number. -/
  | number
  /-- A truth value. -/
  | bool
  /-- A colour. -/
  | color
  /-- Any text. -/
  | text
deriving DecidableEq, Repr

namespace ValueType

/-- The types and their names in documents. -/
def names : List (String × ValueType) :=
  [("number", number), ("bool", bool), ("color", color), ("text", text)]

/-- The name of a type in documents. -/
def name : ValueType → String
  | number => "number"
  | bool => "bool"
  | color => "color"
  | text => "text"

/-- Read a type. -/
def ofJson : Decoder ValueType :=
  .choice names

/-- The name of a type as a value. -/
def toJson (type : ValueType) : Json :=
  .str type.name

end ValueType

/-- Publishes a value as a variable. -/
structure Variable where
  /-- The type that the value must have, if one is declared. -/
  valueType : Option ValueType
deriving DecidableEq

/-- Read a variable. -/
def Variable.ofJson : Decoder Variable :=
  .record "ResultData" <| mk <$> .optional "value_type" ValueType.ofJson

/-- Animates the objects that pass. -/
structure Animation where
  /-- The tracks. -/
  tracks : List Track
  /-- How long the node takes, if not until its last track ends. -/
  duration : Option Float

/-- Read an animation. -/
def Animation.ofJson : Decoder Animation :=
  .record "AnimationData" <| mk
    <$> .defaulted "tracks" (.list Track.ofJson) []
    <*> .optional "duration" .double

/-- Lays style properties over the objects that pass. -/
structure TextStyle where
  /-- The properties. -/
  style : Entries Json

/-- Read a style. -/
def TextStyle.ofJson : Decoder TextStyle :=
  .record "TextStyleData" <| mk <$> .defaulted "style" .object []

/-- The canvas on which delivered objects are shown. -/
structure Canvas where
  /-- The width in pixels. -/
  width : UInt32
  /-- The height in pixels. -/
  height : UInt32
  /-- Frames a second. -/
  fps : Float
  /-- The background colour as it is written. -/
  background : String
  /-- The least duration in seconds. -/
  duration : Float
  /-- Objects that reach the canvas without an insert node are errors and not only warnings. -/
  requireInsert : Bool
  /-- Settings for the encoder, passed on as they are. -/
  video : Option Json

/-- Read a canvas. -/
def Canvas.ofJson : Decoder Canvas :=
  .record "SceneData" <| mk
    <$> .required "width" .word
    <*> .required "height" .word
    <*> .defaulted "fps" .double 30
    <*> .defaulted "background" .text "#000000"
    <*> .defaulted "duration" .double 0
    <*> .defaulted "require_insert" .bool false
    <*> .optional "video" .any

/-- A comparison of two values. -/
inductive CompareOp where
  /-- Equal. -/
  | eq
  /-- Not equal. -/
  | ne
  /-- Less. -/
  | lt
  /-- At most. -/
  | le
  /-- Greater. -/
  | gt
  /-- At least. -/
  | ge
deriving DecidableEq, Repr

/-- Compares two values. -/
structure Comparison where
  /-- How they are compared. -/
  op : CompareOp
  /-- What stands for the first value if its port is free. -/
  a : Option Json
  /-- What stands for the second value if its port is free. -/
  b : Option Json

/-- Read a comparison. -/
def Comparison.ofJson : Decoder Comparison :=
  .record "ComparisonData" <| mk
    <$> .required "op"
      (.choice [("eq", .eq), ("ne", .ne), ("lt", .lt), ("le", .le), ("gt", .gt), ("ge", .ge)])
    <*> .optional "a" .any
    <*> .optional "b" .any

/-- A connective of truth values. -/
inductive LogicOp where
  /-- Both. -/
  | and
  /-- At least one. -/
  | or
  /-- Not the first. -/
  | not
  /-- Exactly one. -/
  | xor
deriving DecidableEq, Repr

/-- Connects truth values. -/
structure Logic where
  /-- The connective. -/
  op : LogicOp
  /-- What stands for the first value if its port is free. -/
  a : Option Bool
  /-- What stands for the second value if its port is free. -/
  b : Option Bool
deriving DecidableEq

/-- Read a connective. -/
def Logic.ofJson : Decoder Logic :=
  .record "BooleanData" <| mk
    <$> .required "op" (.choice [("and", .and), ("or", .or), ("not", .not), ("xor", .xor)])
    <*> .optional "a" .bool
    <*> .optional "b" .bool

/-- An operation on numbers. -/
inductive MathOp where
  /-- The sum. -/
  | add
  /-- The difference. -/
  | sub
  /-- The product. -/
  | mul
  /-- The quotient. -/
  | div
  /-- The smaller one. -/
  | min
  /-- The larger one. -/
  | max
deriving DecidableEq, Repr

/-- Calculates with numbers. -/
structure Arithmetic where
  /-- The operation. -/
  op : MathOp
  /-- What stands for the first number if its port is free. -/
  a : Option Float
  /-- What stands for the second number if its port is free. -/
  b : Option Float

/-- Read an operation. -/
def Arithmetic.ofJson : Decoder Arithmetic :=
  .record "MathData" <| mk
    <$> .required "op"
      (.choice [("add", .add), ("sub", .sub), ("mul", .mul), ("div", .div), ("min", .min),
        ("max", .max)])
    <*> .optional "a" .double
    <*> .optional "b" .double

/-- Copies the objects that pass. -/
structure Duplication where
  /-- The number of copies of each. -/
  count : UInt32
  /-- How far each copy is moved from the one before it. -/
  offset : Vec2

/-- Read a duplication. -/
def Duplication.ofJson : Decoder Duplication :=
  .record "DuplicateData" <| mk
    <$> .required "count" .word
    <*> .defaulted "offset" Vec2.ofJson .zero

end SceneFlow
