import SceneFlow.Identifier
import SceneFlow.Json.Reader
import SceneFlow.Override.FieldPath

/-!
# Overrides

Three tables of values that take the place of what the nodes hold: manual assignments to single
objects, bindings of fields to variables, and the batch table, whose slots are named by the
variant that they belong to. Bindings and slots apply to one object or to all of them.
-/

namespace SceneFlow

/-- The key that stands for all objects, and the name of the batch slot that belongs to every
variant. -/
def defaultKey : String := "default"

/-- The objects that an override applies to. -/
inductive ObjectScope where
  /-- All objects. -/
  | all
  /-- One object. -/
  | object (id : NodeId)
deriving DecidableEq, Repr

namespace ObjectScope

/-- The scope that a key stands for. -/
def ofKey (key : String) : ObjectScope :=
  if key = defaultKey then all else object ⟨key⟩

/-- The key that stands for a scope. -/
def key : ObjectScope → String
  | all => defaultKey
  | object id => id.text

/-- The object of a scope that is limited to one. -/
def object? : ObjectScope → Option NodeId
  | all => none
  | object id => some id

/-- The scopes in which an override for a scope is looked up, the narrowest first. -/
def chain : ObjectScope → List ObjectScope
  | all => [all]
  | object id => [object id, all]

/-- Read a scope. -/
def ofJson : Decoder ObjectScope := fun value => (Decoder.text value).map ofKey

end ObjectScope

/-- Something for all objects and for single ones. -/
structure ByScope (α : Type) where
  /-- What there is for all objects. -/
  all : Option α
  /-- What there is for single objects, under their names. -/
  objects : Table α

namespace ByScope

variable {α : Type}

/-- Nothing for any scope. -/
def empty : ByScope α :=
  ⟨none, ∅⟩

/-- What there is for a scope. -/
def get? (byScope : ByScope α) : ObjectScope → Option α
  | .all => byScope.all
  | .object id => byScope.objects.get? id.text

/-- The contents of a table whose keys stand for scopes. -/
def ofTable (table : Table α) : ByScope α :=
  ⟨table.get? defaultKey, table.erase defaultKey⟩

/-- What there is for any scope. -/
def values (byScope : ByScope α) : List α :=
  byScope.all.toList ++ byScope.objects.entries.map Prod.snd

/-- Read a table whose keys stand for scopes. -/
def ofJson (decode : Decoder α) : Decoder (ByScope α) := fun value =>
  (Decoder.table decode value).map ofTable

/-- The table of what there is for each scope, as a value. -/
def toJson (encode : α → Json) (byScope : ByScope α) : Json :=
  let forAll := byScope.all.toList.map fun a => (defaultKey, encode a)
  .obj (forAll ++ byScope.objects.entries.mapValues encode)

end ByScope

/-- A table as a value. -/
def Table.toJson {α : Type} (encode : α → Json) (table : Table α) : Json :=
  .obj (table.entries.mapValues encode)

/-- All overrides. -/
structure Overrides where
  /-- The manual assignments: by object, by field. -/
  manual : Table (Table Json)
  /-- The variables that fields are bound to: by scope, by field. -/
  bindings : ByScope (Table NodeId)
  /-- The batch table: by field, by scope, by slot. -/
  batch : Table (ByScope (Table Json))

namespace Overrides

/-- No overrides. -/
def empty : Overrides :=
  ⟨∅, .empty, ∅⟩

/-- The variable that a field is bound to in a scope. -/
def binding? (overrides : Overrides) (field : FieldPath) (scope : ObjectScope) : Option NodeId := do
  (← overrides.bindings.get? scope).get? field.text

/-- The value in a slot of a field and a scope. -/
def slot? (overrides : Overrides) (field : FieldPath) (scope : ObjectScope) (slot : String) :
    Option Json := do
  (← (← overrides.batch.get? field.text).get? scope).get? slot

/-- The value assigned to a field in a scope. -/
def manual? (overrides : Overrides) (field : FieldPath) (scope : ObjectScope) : Option Json := do
  (← overrides.manual.get? (← scope.object?).text).get? field.text

/-- The variants that the batch table names, ascending. -/
def batchKeys (overrides : Overrides) : List String :=
  let slots := overrides.batch.entries.flatMap fun (_, byScope) => byScope.values.flatMap Table.keys
  sortedTexts (slots.filter fun slot => slot ≠ defaultKey)

/-- The fields for which there is any override in a scope, ascending. -/
def fieldsFor (overrides : Overrides) (scope : ObjectScope) : List FieldPath :=
  let inBatch := overrides.batch.entries.filter fun (_, byScope) =>
    scope.chain.any fun s => (byScope.get? s).isSome
  let bound := scope.chain.filterMap overrides.bindings.get?
  let assigned := scope.object?.bind fun id => overrides.manual.get? id.text
  let fields :=
    Entries.keys inBatch ++ bound.flatMap Table.keys ++ assigned.toList.flatMap Table.keys
  (sortedTexts fields).map FieldPath.mk

/-- Read overrides. -/
def ofJson : Decoder Overrides :=
  .record "Overrides" <| mk
    <$> .defaulted "manual" (.table (.table .any)) ∅
    <*> .defaulted "bindings" (ByScope.ofJson (.table NodeId.ofJson)) .empty
    <*> .defaulted "batch" (.table (ByScope.ofJson (.table .any))) ∅

/-- The fields of overrides. -/
def toJson (overrides : Overrides) : Json :=
  .obj [("manual", overrides.manual.toJson (Table.toJson fun value => value)),
    ("bindings", overrides.bindings.toJson (Table.toJson NodeId.toJson)),
    ("batch", overrides.batch.toJson (ByScope.toJson (Table.toJson fun value => value)))]

/-- The outline of overrides in a text. -/
def shape : Json.Shape :=
  .record "Overrides"
    [("manual", false, .table (.table .any)), ("bindings", false, .table (.table .text)),
      ("batch", false, .table (.table (.table .any)))]

/-- Read overrides from text. -/
def parse (text : String) : Except Json.ReadError Overrides := do
  let value ← Json.read shape text
  (ofJson value).mapError .unfit

end Overrides

end SceneFlow
