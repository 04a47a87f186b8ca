import SceneFlow.Override.FieldPath

/-!
# The leaves of a view

A view is an object with objects inside it. Its leaves are what is no object, and the objects
without fields; each has a field path, by which it can be overridden apart from its neighbours.
`flatten` lists the leaves of a view and `unflatten` builds a view from leaves.
-/

namespace SceneFlow

mutual

/-- The leaves of a value at a path, each with its own path. -/
def Json.leaves (path : String) : Json → List (String × Json)
  | .obj (field :: fields) => leavesOfFields path (field :: fields)
  | value => [(path, value)]

/-- The leaves of the fields of an object at a path. -/
def Json.leavesOfFields (path : String) : List (String × Json) → List (String × Json)
  | [] => []
  | (name, value) :: fields =>
    Json.leaves (path ++ "." ++ name) value ++ leavesOfFields path fields

end

/-- The leaves of a view in a namespace, under their paths. -/
def flatten (space : String) (view : Entries Json) : Table Json :=
  .ofList (Json.leavesOfFields space view)

/-- Put a value where the names lead. What stands in the way and is no object gives way to one. -/
def plant (value : Json) : (names : List String) → Entries Json → Entries Json
  | [], view => view
  | [name], view => view.insert name value
  | name :: names, view =>
    let inner :=
      match view.get? name with
      | some (.obj fields) => fields
      | _ => []
    view.insert name (.obj (plant value names inner))

/-- The view that has the given leaves. Leaves outside the namespace are passed over; a leaf on
the way to another one gives way to it. -/
def unflatten (space : String) (leaves : Table Json) : Entries Json :=
  leaves.entries.foldl
    (fun view (path, value) =>
      match (FieldPath.mk path).within? space with
      | some rest => plant value (FieldPath.segments rest) view
      | none => view)
    []

end SceneFlow
