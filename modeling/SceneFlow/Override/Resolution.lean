import SceneFlow.Override.Basic
import SceneFlow.Override.Leaves
import SceneFlow.Value.Evaluation

/-!
# Resolution of fields

The value of a field is looked up in layers, of which the first that has one counts: the variable
the field is bound to, the batch slot of the variant, the batch slot of all variants, the manual
assignment, and what the node itself holds. Within a layer what is said of the object goes before
what is said of all objects. A binding to a variable without a value is passed over, and noted.
-/

namespace SceneFlow

/-- Where the value of a field comes from. -/
inductive Layer where
  /-- The variable that the field is bound to. -/
  | binding
  /-- The batch slot of the variant. -/
  | batchKey
  /-- The batch slot of all variants. -/
  | batchDefault
  /-- The manual assignment. -/
  | manual
  /-- The node. -/
  | default
deriving DecidableEq, Repr

namespace Layer

/-- Every layer, the one that counts most first. -/
def all : List Layer :=
  [binding, batchKey, batchDefault, manual, default]

/-- The name of a layer in documents. -/
def name : Layer → String
  | binding => "binding"
  | batchKey => "batch_key"
  | batchDefault => "batch_default"
  | manual => "manual"
  | default => "default"

/-- Read a layer. -/
def ofJson : Decoder Layer :=
  .choice (all.map fun layer => (layer.name, layer))

/-- The name of a layer as a value. -/
def toJson (layer : Layer) : Json :=
  .str layer.name

end Layer

/-- A value and the layer that it comes from. -/
structure Resolved where
  /-- The value. -/
  value : Json
  /-- The layer. -/
  layer : Layer

/-- A binding to a variable that has no value. -/
structure StaleBinding where
  /-- The field that is bound. -/
  field : FieldPath
  /-- The scope that the binding is for. -/
  scope : ObjectScope
  /-- The variable. -/
  source : NodeId
deriving DecidableEq

/-- The warning about a stale binding. -/
def StaleBinding.diagnostic (stale : StaleBinding) : Diagnostic where
  code := .invalidConnection
  message :=
    let objects :=
      match stale.scope with
      | .all => "all objects"
      | .object id => "object '" ++ id.text ++ "'"
    "binding of '" ++ stale.field.text ++ "' for " ++ objects ++ " points at '"
      ++ stale.source.text ++ "', which has no live value"
  severity := .warning
  suggestions := ["connect a defined value to the result node or remove the binding"]
  nodes := [stale.source]

/-- What fields are resolved from, besides what the nodes hold. -/
structure Resolver where
  /-- The overrides. -/
  overrides : Overrides
  /-- The values of the variables. -/
  values : VariableValues
  /-- The variant, if there is one. -/
  key : Option String

namespace Resolver

/-- The slot of the variant, which the slot of all variants is not. -/
def slot? (resolver : Resolver) : Option String :=
  resolver.key.filter fun key => key ≠ defaultKey

/-- The variable that a field is bound to, and the scope of the binding. -/
def binding? (resolver : Resolver) (field : FieldPath) (scope : ObjectScope) :
    Option (ObjectScope × NodeId) :=
  scope.chain.findSome? fun s => (resolver.overrides.binding? field s).map fun id => (s, id)

/-- The value that a layer has for a field. -/
def layerValue? (resolver : Resolver) (defaults : Table Json) (field : FieldPath)
    (scope : ObjectScope) : Layer → Option Json
  | .binding => do
    let (_, source) ← resolver.binding? field scope
    resolver.values.get? source
  | .batchKey => do
    let slot ← resolver.slot?
    scope.chain.findSome? fun s => resolver.overrides.slot? field s slot
  | .batchDefault => scope.chain.findSome? fun s => resolver.overrides.slot? field s defaultKey
  | .manual => resolver.overrides.manual? field scope
  | .default => defaults.get? field.text

/-- The value of a field, unless no layer has one. -/
def resolve? (resolver : Resolver) (defaults : Table Json) (field : FieldPath)
    (scope : ObjectScope) : Option Resolved :=
  Layer.all.findSome? fun layer =>
    (resolver.layerValue? defaults field scope layer).map fun value => ⟨value, layer⟩

/-- The binding of a field that is passed over, if there is one. -/
def stale? (resolver : Resolver) (field : FieldPath) (scope : ObjectScope) :
    Option StaleBinding := do
  let (s, source) ← resolver.binding? field scope
  match resolver.values.get? source with
  | some _ => none
  | none => some ⟨field, s, source⟩

/-- The fields of a view that are to be resolved: its leaves, and the fields that only overrides
know. -/
def viewFields (resolver : Resolver) (space : String) (defaults : Table Json)
    (scope : ObjectScope) : List FieldPath :=
  let overridden := (resolver.overrides.fieldsFor scope).filter fun field =>
    (field.within? space).isSome && (defaults.get? field.text).isNone
  defaults.keys.map FieldPath.mk ++ overridden

/-- A view with every leaf resolved, and the bindings that were passed over. -/
def view (resolver : Resolver) (space : String) (view : Entries Json) (scope : ObjectScope) :
    Entries Json × List StaleBinding :=
  let defaults := flatten space view
  let fields := resolver.viewFields space defaults scope
  let leaves := fields.filterMap fun field =>
    (resolver.resolve? defaults field scope).map fun resolved => (field.text, resolved.value)
  (unflatten space (.ofList leaves), fields.filterMap fun field => resolver.stale? field scope)

end Resolver

end SceneFlow
