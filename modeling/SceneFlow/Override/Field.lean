import SceneFlow.Color
import SceneFlow.Json.Decoder
import SceneFlow.Vec2

/-!
# Reading the fields of a resolved view

Overrides can put any value into any field, so a view that has been resolved is read with care.
A field that is missing has a value by default; whether `null` counts as missing is up to the
reader, who gives the way to look fields up.
-/

namespace SceneFlow

/-- What is wrong with a field of a resolved view. -/
inductive FieldProblem where
  /-- The field must be a number. -/
  | notNumber (field : String) (found : Json)
  /-- The field must be a finite number. -/
  | notFinite (field : String) (found : Json)
  /-- The field must be an object with the fields `x` and `y`. -/
  | notVector (field : String) (found : Json)
  /-- The field must be a text. -/
  | notText (field : String) (found : Json)
  /-- The field must be the text of a colour. -/
  | notColor (field : String) (found : Json)
  /-- The text of the field is no colour. -/
  | badColor (field : String) (cause : ColorError)
  /-- The field must be there. -/
  | missing (field : String)
  /-- The easing is none. -/
  | badEasing (cause : DataError)
  /-- The start is not finite. -/
  | unboundedStart
  /-- The duration is not finite or is negative. -/
  | badDuration

/-- The wording of a problem. -/
def FieldProblem.message : FieldProblem → String
  | .notNumber field found => field ++ " must be a number, got " ++ found.compact
  | .notFinite field found => field ++ " must be a finite number, got " ++ found.compact
  | .notVector field found => field ++ " must be an \x7bx, y\x7d object, got " ++ found.compact
  | .notText field found => field ++ " must be a string, got " ++ found.compact
  | .notColor field found => field ++ " must be a hex colour string, got " ++ found.compact
  | .badColor field cause => field ++ ": " ++ cause.message
  | .missing field => field ++ " is required"
  | .badEasing cause => "easing: " ++ cause.message
  | .unboundedStart => "start_offset must be finite"
  | .badDuration => "duration must be finite and >= 0"

namespace Field

/-- A way to look up a field of a view. -/
abbrev Look := Entries Json → String → Option Json

/-- Look up a field that is not null. -/
def notNull : Look := fun view name =>
  match view.get? name with
  | some .null => none
  | found => found

/-- A finite number, called `label` in messages. -/
def number (look : Look) (view : Entries Json) (name label : String) (default : Float) :
    Except FieldProblem Float :=
  match look view name with
  | none => .ok default
  | some found =>
    match found.toFloat? with
    | some x => if x.isFinite then .ok x else .error (.notFinite label found)
    | none => .error (.notFinite label found)

/-- A vector. Either part may be missing. -/
def vector (look : Look) (view : Entries Json) (name : String) (default : Vec2) :
    Except FieldProblem Vec2 :=
  match look view name with
  | none => .ok default
  | some (.obj parts) => do
    let x ← number look parts "x" (name ++ ".x") default.x
    let y ← number look parts "y" (name ++ ".y") default.y
    .ok ⟨x, y⟩
  | some found => .error (.notVector name found)

/-- A number of any kind. -/
def anyNumber (view : Entries Json) (name : String) (default : Float) :
    Except FieldProblem Float :=
  match view.get? name with
  | none => .ok default
  | some found =>
    match found.toFloat? with
    | some x => .ok x
    | none => .error (.notNumber name found)

/-- A text. -/
def text (view : Entries Json) (name default : String) : Except FieldProblem String :=
  match view.get? name with
  | none => .ok default
  | some (.str s) => .ok s
  | some found => .error (.notText name found)

/-- The text of a colour, in the form in which this library writes colours. -/
def color (view : Entries Json) (name : String) : Except FieldProblem String :=
  match view.get? name with
  | none => .error (.missing name)
  | some (.str s) =>
    match Color.parse s with
    | .ok c => .ok c.text
    | .error cause => .error (.badColor name cause)
  | some found => .error (.notColor name found)

end Field

end SceneFlow
