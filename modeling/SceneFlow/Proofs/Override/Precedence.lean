import Mathlib
import SceneFlow.Override.Resolution

/-!
# Which layer gives a field its value

The binding that counts for a field is the one of the narrowest scope that has any. If its variable
has a value, this is the value of the field. If not, the binding is passed over and noted, and the
field has the value that it has without any bindings: a binding of a wider scope does not take its
place, even if its variable has a value. Without bindings the batch slots of the variant go before
those of all variants, both before the manual assignment, and what the node holds comes last; of
the slots of one kind the one of the object goes before the one of all objects.

## Main definitions

* `Resolver.Governs`: the binding of a field that counts for a scope.
* `Resolver.unbound`: a resolver without its bindings.
* `Resolver.candidates`: what can give a field its value apart from bindings.

## Main results

* `Resolver.governs_iff`: the binding that counts is the one that is looked up.
* `Resolver.resolve?_unbound`: without bindings the first candidate that is there counts.
* `Resolver.resolve?_precedence`: the value of a field, its layer, and what is noted.
-/

namespace SceneFlow.Resolver

variable {resolver : Resolver} {defaults : Table Json} {field : FieldPath}
  {scope s : ObjectScope} {source : NodeId}

/-! ### The binding that counts -/

/-- In the scope `s` the field is bound to the variable, and in no narrower scope of the chain it
is bound at all. -/
def Governs (resolver : Resolver) (field : FieldPath) (scope s : ObjectScope) (source : NodeId) :
    Prop :=
  ∃ narrower wider, scope.chain = narrower ++ s :: wider ∧
    (∀ t ∈ narrower, resolver.overrides.binding? field t = none) ∧
    resolver.overrides.binding? field s = some source

/-- The binding that counts is the one that is looked up. -/
theorem governs_iff :
    resolver.Governs field scope s source ↔ resolver.binding? field scope = some (s, source) := by
  rw [binding?, List.findSome?_eq_some_iff]
  constructor
  · rintro ⟨narrower, wider, hchain, hnone, hsome⟩
    exact ⟨narrower, s, wider, hchain, by rw [hsome]; rfl, fun t ht => by rw [hnone t ht]; rfl⟩
  · rintro ⟨narrower, t, wider, hchain, hfound, hnone⟩
    obtain ⟨id, hid, heq⟩ := Option.map_eq_some_iff.mp hfound
    cases heq
    exact ⟨narrower, wider, hchain, fun t ht => Option.map_eq_none_iff.mp (hnone t ht), hid⟩

theorem binding?_eq_none_of_not_governs (h : ∀ s source, ¬ resolver.Governs field scope s source) :
    resolver.binding? field scope = none :=
  Option.eq_none_iff_forall_ne_some.mpr fun (s, source) hfound =>
    h s source (governs_iff.mpr hfound)

/-! ### Layers in turn -/

/-- What is found in a layer, with the layer. -/
def found? (resolver : Resolver) (defaults : Table Json) (field : FieldPath) (scope : ObjectScope)
    (layer : Layer) : Option Resolved :=
  (resolver.layerValue? defaults field scope layer).map fun value => ⟨value, layer⟩

/-- What is found first is found at the head of a list or behind it. -/
private theorem findSome?_cons_or {α β : Type} (f : α → Option β) (a : α) (list : List α) :
    (a :: list).findSome? f = (f a).or (list.findSome? f) := by
  rw [List.findSome?_cons]
  cases f a <;> rfl

/-- The first layer in which something is found counts. -/
theorem resolve?_eq_or (resolver : Resolver) (defaults : Table Json) (field : FieldPath)
    (scope : ObjectScope) :
    resolver.resolve? defaults field scope =
      (resolver.found? defaults field scope .binding).or
        ((resolver.found? defaults field scope .batchKey).or
          ((resolver.found? defaults field scope .batchDefault).or
            ((resolver.found? defaults field scope .manual).or
              (resolver.found? defaults field scope .default)))) := by
  simp only [resolve?, found?, Layer.all, findSome?_cons_or, List.findSome?_nil, Option.or_none]

/-- Along a chain of scopes what is said of the object goes before what is said of all. -/
theorem findSome?_chain {β : Type} (f : ObjectScope → Option β) (scope : ObjectScope) :
    scope.chain.findSome? f = (scope.object?.bind fun id => f (.object id)).or (f .all) := by
  cases scope <;>
    simp only [ObjectScope.chain, ObjectScope.object?, findSome?_cons_or, List.findSome?_nil,
      Option.or_none, Option.bind_none, Option.none_or, Option.bind_some]

/-! ### Resolvers without bindings -/

/-- The resolver without its bindings. -/
def unbound (resolver : Resolver) : Resolver :=
  { resolver with overrides := { resolver.overrides with bindings := .empty } }

theorem binding?_unbound (resolver : Resolver) (field : FieldPath) (scope : ObjectScope) :
    resolver.unbound.binding? field scope = none := by
  cases scope <;> rfl

/-- Nothing is passed over without bindings. -/
theorem stale?_unbound (resolver : Resolver) (field : FieldPath) (scope : ObjectScope) :
    resolver.unbound.stale? field scope = none := by
  rw [stale?, binding?_unbound]
  rfl

theorem found?_binding_unbound (resolver : Resolver) (defaults : Table Json) (field : FieldPath)
    (scope : ObjectScope) : resolver.unbound.found? defaults field scope .binding = none := by
  rw [found?, layerValue?, binding?_unbound]
  rfl

/-- A field has the value that its binding gives it, or else the one that it has without
bindings: no other layer knows bindings. -/
theorem resolve?_eq_or_unbound (resolver : Resolver) (defaults : Table Json) (field : FieldPath)
    (scope : ObjectScope) :
    resolver.resolve? defaults field scope =
      (resolver.found? defaults field scope .binding).or
        (resolver.unbound.resolve? defaults field scope) := by
  rw [resolve?_eq_or, resolve?_eq_or resolver.unbound, found?_binding_unbound, Option.none_or]
  rfl

/-- What can give a field its value apart from bindings, and from which layer, the first that
counts first. -/
def candidates (resolver : Resolver) (defaults : Table Json) (field : FieldPath)
    (scope : ObjectScope) : List (Option Json × Layer) :=
  let variant := resolver.key.filter fun key => key ≠ defaultKey
  let slot (key : String) (s : ObjectScope) := resolver.overrides.slot? field s key
  let ofObject (find : ObjectScope → Option Json) := scope.object?.bind fun id => find (.object id)
  [(variant.bind fun key => ofObject (slot key), .batchKey),
    (variant.bind fun key => slot key .all, .batchKey),
    (ofObject (slot defaultKey), .batchDefault),
    (slot defaultKey .all, .batchDefault),
    (ofObject (resolver.overrides.manual? field), .manual),
    (defaults.get? field.text, .default)]

theorem layerValue?_batchKey (resolver : Resolver) (defaults : Table Json) (field : FieldPath)
    (scope : ObjectScope) :
    resolver.layerValue? defaults field scope .batchKey =
      (resolver.slot?.bind fun key => scope.object?.bind fun id =>
        resolver.overrides.slot? field (.object id) key).or
      (resolver.slot?.bind fun key => resolver.overrides.slot? field .all key) := by
  rw [layerValue?]
  cases resolver.slot? with
  | none => rfl
  | some key => exact findSome?_chain _ scope

/-- Without bindings the first candidate that is there counts. -/
theorem resolve?_unbound (resolver : Resolver) (defaults : Table Json) (field : FieldPath)
    (scope : ObjectScope) :
    resolver.unbound.resolve? defaults field scope =
      (resolver.candidates defaults field scope).findSome? fun (value?, layer) =>
        value?.map fun value => ⟨value, layer⟩ := by
  have hmanual : resolver.layerValue? defaults field scope .manual =
      scope.object?.bind fun id => resolver.overrides.manual? field (.object id) := by
    cases scope <;> rfl
  have hdefault : resolver.layerValue? defaults field scope .batchDefault =
      (scope.object?.bind fun id => resolver.overrides.slot? field (.object id) defaultKey).or
        (resolver.overrides.slot? field .all defaultKey) :=
    findSome?_chain _ scope
  rw [resolve?_eq_or, found?_binding_unbound, Option.none_or]
  change (resolver.found? defaults field scope .batchKey).or
    ((resolver.found? defaults field scope .batchDefault).or
      ((resolver.found? defaults field scope .manual).or
        (resolver.found? defaults field scope .default))) = _
  rw [found?, found?, found?, layerValue?_batchKey, hdefault, hmanual, Option.map_or,
    Option.map_or, Option.or_assoc, Option.or_assoc]
  simp only [candidates, findSome?_cons_or, List.findSome?_nil, Option.or_none]
  rfl

/-! ### The value of a field -/

/-- The value of a field. A binding that counts, of a variable with a value, gives the field this
value, and nothing is noted. If the variable has no value, the binding is noted, in one warning that
names the variable, and nothing else; the field then has the value that it has without bindings, as
it has if there is no binding that counts, and then nothing is noted. Without bindings the value is
that of the first candidate that is there, and the layer is the one of this candidate. -/
theorem resolve?_precedence (resolver : Resolver) (defaults : Table Json) (field : FieldPath)
    (scope : ObjectScope) :
    (∀ s source value, resolver.Governs field scope s source →
      resolver.values.get? source = some value →
        resolver.resolve? defaults field scope = some ⟨value, .binding⟩ ∧
          resolver.stale? field scope = none) ∧
    (∀ s source, resolver.Governs field scope s source → resolver.values.get? source = none →
      resolver.resolve? defaults field scope = resolver.unbound.resolve? defaults field scope ∧
        ∃ stale, resolver.stale? field scope = some stale ∧ stale = ⟨field, s, source⟩ ∧
          stale.diagnostic.severity = .warning ∧ stale.diagnostic.nodes = [source]) ∧
    ((∀ s source, ¬ resolver.Governs field scope s source) →
      resolver.resolve? defaults field scope = resolver.unbound.resolve? defaults field scope ∧
        resolver.stale? field scope = none) ∧
    resolver.unbound.stale? field scope = none ∧
    resolver.unbound.resolve? defaults field scope =
      (resolver.candidates defaults field scope).findSome? fun (value?, layer) =>
        value?.map fun value => ⟨value, layer⟩ := by
  refine ⟨fun s source value hgoverns hvalue => ?_, fun s source hgoverns hvalue => ?_,
    fun hnone => ?_, stale?_unbound resolver field scope,
    resolve?_unbound resolver defaults field scope⟩
  · have hbinding := governs_iff.mp hgoverns
    rw [resolve?_eq_or_unbound, found?, layerValue?, stale?, hbinding]
    simp [hvalue]
  · have hbinding := governs_iff.mp hgoverns
    rw [resolve?_eq_or_unbound, found?, layerValue?, stale?, hbinding]
    simp [hvalue, StaleBinding.diagnostic]
  · have hbinding := binding?_eq_none_of_not_governs hnone
    rw [resolve?_eq_or_unbound, found?, layerValue?, stale?, hbinding]
    exact ⟨rfl, rfl⟩

/-- The opacity of all objects is bound to a variable with a value and that of `c` to one without;
for the variant `k` it has a batch slot for all objects. -/
def opacityBound : Resolver where
  overrides :=
    { manual := .ofList [("c", .ofList [("Canvas.opacity", .str "by hand")])]
      bindings :=
        { all := some (.ofList [("Canvas.opacity", ⟨"live"⟩)])
          objects := .ofList [("c", .ofList [("Canvas.opacity", ⟨"dead"⟩)])] }
      batch := .ofList
        [("Canvas.opacity", { all := some (.ofList [("k", .str "by variant")]), objects := ∅ })] }
  values := ⟨[(⟨"live"⟩, some (.str "by binding")), (⟨"dead"⟩, none)]⟩
  key := some "k"

/-- The stale binding of `c` hides the live one of all objects, so the batch slot counts; another
object has the value of the live one; and a field that is not bound is what the node holds. -/
theorem resolve?_precedence_opacityBound :
    let defaults : Table Json := .ofList [("Canvas.label", .str "by node")]
    let value (field : FieldPath) (id : NodeId) :=
      opacityBound.resolve? defaults field (.object id)
    (value ⟨"Canvas.opacity"⟩ ⟨"c"⟩ = some ⟨.str "by variant", .batchKey⟩ ∧
      ∃ stale, opacityBound.stale? ⟨"Canvas.opacity"⟩ (.object ⟨"c"⟩) = some stale ∧
        stale.diagnostic.nodes = [⟨"dead"⟩]) ∧
      value ⟨"Canvas.opacity"⟩ ⟨"d"⟩ = some ⟨.str "by binding", .binding⟩ ∧
      value ⟨"Canvas.label"⟩ ⟨"c"⟩ = some ⟨.str "by node", .default⟩ := by
  intro defaults value
  have hopacity (id : NodeId) :=
    resolve?_precedence opacityBound defaults ⟨"Canvas.opacity"⟩ (.object id)
  have hlabel := resolve?_precedence opacityBound defaults ⟨"Canvas.label"⟩ (.object ⟨"c"⟩)
  refine ⟨?_, ?_, ?_⟩
  · obtain ⟨-, hstale, -, -, hunbound⟩ := hopacity ⟨"c"⟩
    obtain ⟨heq, stale, hfound, -, -, hnodes⟩ := hstale (.object ⟨"c"⟩) ⟨"dead"⟩
      ⟨[], [.all], rfl, List.forall_mem_nil _, rfl⟩ rfl
    exact ⟨(heq.trans hunbound).trans rfl, stale, hfound, hnodes⟩
  · obtain ⟨hlive, -⟩ := hopacity ⟨"d"⟩
    exact (hlive .all ⟨"live"⟩ (.str "by binding")
      ⟨[.object ⟨"d"⟩], [], rfl, List.forall_mem_singleton.mpr rfl, rfl⟩ rfl).1
  · obtain ⟨-, -, hnone, -, hunbound⟩ := hlabel
    have hfree : opacityBound.binding? ⟨"Canvas.label"⟩ (.object ⟨"c"⟩) = none := rfl
    refine ((hnone fun s source hgoverns => ?_).1.trans hunbound).trans rfl
    rw [governs_iff, hfree] at hgoverns
    cases hgoverns

end SceneFlow.Resolver
