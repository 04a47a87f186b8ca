import SceneFlow.Motion.Ease

/-!
# Tracks as they are configured

A track moves one property of an object over time. An animation node holds tracks whose times
count from wherever the object's own time stands when it arrives.
-/

namespace SceneFlow

/-- What a track animates. -/
inductive TrackKind where
  /-- The position. -/
  | move
  /-- The angle, in degrees. -/
  | rotate
  /-- The factors of both axes. -/
  | scale
  /-- The opacity. -/
  | fade
  /-- A named colour property. -/
  | color
deriving DecidableEq, Repr

namespace TrackKind

/-- Every kind, in its rank. -/
def all : List TrackKind :=
  [move, rotate, scale, fade, color]

/-- The name of a kind in documents and messages. -/
def name : TrackKind → String
  | move => "move"
  | rotate => "rotate"
  | scale => "scale"
  | fade => "fade"
  | color => "color"

/-- Read a kind. -/
def ofJson : Decoder TrackKind :=
  .choice (all.map fun kind => (kind.name, kind))

/-- The name of a kind as a value. -/
def toJson (kind : TrackKind) : Json :=
  .str kind.name

end TrackKind

/-- A track of an animation node. -/
structure Track where
  /-- The name under which overrides address the track, if not that of its kind. -/
  id : Option String
  /-- What it animates. -/
  kind : TrackKind
  /-- When it starts, counted from the object's own time. -/
  startOffset : Float
  /-- How long it lasts. -/
  duration : Float
  /-- How its progress follows time. -/
  easing : Ease
  /-- What it animates from and to. -/
  properties : Entries Json

namespace Track

/-- The name under which overrides address the track. -/
def key (track : Track) : String :=
  track.id.getD track.kind.name

/-- When the track ends, counted from the object's own time. -/
def finish (track : Track) : Float :=
  track.startOffset + track.duration

/-- Read a track. -/
def ofJson : Decoder Track :=
  .record "TrackDef" <| mk
    <$> .optional "id" .text
    <*> .required "type" TrackKind.ofJson
    <*> .defaulted "start_offset" .double 0
    <*> .required "duration" .double
    <*> .defaulted "easing" Ease.ofJson .linear
    <*> .defaulted "properties" .object []

end Track

end SceneFlow
