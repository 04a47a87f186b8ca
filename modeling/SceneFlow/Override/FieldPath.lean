import SceneFlow.Json.Decoder
import SceneFlow.Text.Split

/-!
# Field paths

A field path names one property: a namespace and, behind a dot, the names that lead to the
property through the objects it lies in, with dots between them.
-/

namespace SceneFlow

/-- The path of a field. -/
structure FieldPath where
  /-- The path as it is written. -/
  text : String
deriving DecidableEq, Repr, Inhabited

namespace FieldPath

/-- The namespace of the properties of objects. -/
def canvas : String := "Canvas"

/-- The namespace of the properties of tracks. -/
def timeline : String := "Timeline"

/-- The path with a namespace and a rest. -/
def join (space rest : String) : FieldPath :=
  ⟨space ++ "." ++ rest⟩

/-- The rest of a path that lies in a namespace. -/
def within? (path : FieldPath) (space : String) : Option String :=
  (List.isPrefixOf? (space.toList ++ ['.']) path.text.toList).map String.ofList

/-- The names that the rest of a path leads through. -/
def segments (rest : String) : List String :=
  (Text.split '.' rest.toList).map String.ofList

/-- Read a path. -/
def ofJson : Decoder FieldPath := fun value => (Decoder.text value).map mk

end FieldPath

end SceneFlow
