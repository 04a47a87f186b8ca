import SceneFlow.Motion.Placed
import SceneFlow.Override.Field

/-!
# Rendering tracks

A track shows its settings as a view, so that they can be overridden one by one; the resolved view
gives a track again, and that is placed in the time of the scene.
-/

namespace SceneFlow

/-- Why a track cannot be rendered. -/
inductive TrackProblem where
  /-- Something is wrong with its settings. -/
  | settings (cause : FieldProblem)
  /-- Something is wrong with its endpoints. -/
  | endpoints (kind : TrackKind) (key : String) (cause : FieldProblem)

/-- The wording of a problem. -/
def TrackProblem.message : TrackProblem → String
  | .settings cause => cause.message
  | .endpoints kind key cause => kind.name ++ " track '" ++ key ++ "': " ++ cause.message

/-- Read the endpoints of a kind of track. -/
def Endpoints.ofFields (kind : TrackKind) (fields : Entries Json) :
    Except FieldProblem Endpoints :=
  let vector := Field.vector Field.notNull fields
  let number := fun name => Field.number Field.notNull fields name name
  match kind with
  | .move => do .ok (.vector (← vector "from" .zero) (← vector "to" .zero))
  | .scale => do .ok (.vector (← vector "from" .one) (← vector "to" .one))
  | .rotate => do
    let first ← number "from" 0
    let last ← number "to" 0
    .ok (.angle first last ((last - first) / 360))
  | .fade => do .ok (.scalar (← number "from" 0) (← number "to" 1))
  | .color => do
    let property ← Field.text fields "property" "fillColor"
    .ok (.color property (← Field.color fields "from") (← Field.color fields "to"))

namespace Track

/-- The settings of a track as a view. -/
def view (track : Track) : Entries Json :=
  let settings :=
    [("start_offset", Json.ofFloat track.startOffset), ("duration", .ofFloat track.duration),
      ("easing", track.easing.toJson)]
  track.properties.overlay settings

/-- The track with the settings of a view. -/
def withView (track : Track) (view : Entries Json) : Except FieldProblem Track := do
  let startOffset ← Field.anyNumber view "start_offset" track.startOffset
  let duration ← Field.anyNumber view "duration" track.duration
  let easing ←
    match view.get? "easing" with
    | some found => (Ease.ofJson found).mapError .badEasing
    | none => .ok track.easing
  if !startOffset.isFinite then .error .unboundedStart
  else if !duration.isFinite || duration < 0 then .error .badDuration
  else
    let properties := ((view.erase "start_offset").erase "duration").erase "easing"
    .ok { track with startOffset, duration, easing, properties }

/-- The motion that a track is from a point of time on. -/
def motion (track : Track) (baseline : Float) : Except TrackProblem Motion :=
  match Endpoints.ofFields track.kind track.properties with
  | .ok endpoints =>
    .ok ⟨track.kind, baseline + track.startOffset, track.duration, track.easing, endpoints⟩
  | .error cause => .error (.endpoints track.kind track.key cause)

end Track

end SceneFlow
