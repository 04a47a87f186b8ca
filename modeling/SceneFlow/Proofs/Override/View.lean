import Mathlib
import SceneFlow.Override.Resolution
import SceneFlow.Proofs.Override.Leaves

/-!
# What resolving a view puts where

A view is resolved leaf by leaf: the result has the value of a field where the names of the field
lead, unless another field lies below it, and has nothing that does not belong to some field. The
fields are those of the view and those that overrides alone know, so every field with a value
counts.

## Main definitions

* `Overrides.AgreeOff`: two tables of overrides say the same of every field but one.
* `Resolver.leaves`: the values that a resolver has for the fields of a view.

## Main results

* `Resolver.mem_viewFields`: every field of the namespace with a value is resolved.
* `Resolver.view_leafwise`: what is found in a resolved view, and what an override can change.
-/

namespace SceneFlow

/-! ### Fields with overrides -/

namespace Overrides

variable {overrides other : Overrides} {field : FieldPath} {scope s : ObjectScope}

/-- A field that is bound in some scope is among those with overrides. -/
theorem mem_fieldsFor_of_binding? {id : NodeId} (hs : s ∈ scope.chain)
    (h : overrides.binding? field s = some id) : field ∈ overrides.fieldsFor scope := by
  obtain ⟨table, htable, hid⟩ := Option.bind_eq_some_iff.mp h
  refine List.mem_map.mpr ⟨field.text, mem_sortedTexts.mpr ?_, rfl⟩
  refine List.mem_append_left _ (List.mem_append_right _ (List.mem_flatMap.mpr ⟨table, ?_, ?_⟩))
  · exact List.mem_filterMap.mpr ⟨s, hs, htable⟩
  · exact Table.mem_keys_of_get? hid

/-- A field with a batch slot in some scope is among those with overrides. -/
theorem mem_fieldsFor_of_slot? {slot : String} {value : Json} (hs : s ∈ scope.chain)
    (h : overrides.slot? field s slot = some value) : field ∈ overrides.fieldsFor scope := by
  obtain ⟨byScope, hbyScope, h⟩ := Option.bind_eq_some_iff.mp h
  obtain ⟨table, htable, -⟩ := Option.bind_eq_some_iff.mp h
  refine List.mem_map.mpr ⟨field.text, mem_sortedTexts.mpr ?_, rfl⟩
  refine List.mem_append_left _ (List.mem_append_left _ ?_)
  refine List.mem_map.mpr ⟨(field.text, byScope), List.mem_filter.mpr ⟨?_, ?_⟩, rfl⟩
  · exact (Entries.Sorted.get?_eq_some_iff overrides.batch.sorted _ _).mp hbyScope
  · exact List.any_eq_true.mpr ⟨s, hs, Option.isSome_of_eq_some htable⟩

/-- A field with a manual assignment is among those with overrides. -/
theorem mem_fieldsFor_of_manual? {value : Json} (h : overrides.manual? field scope = some value) :
    field ∈ overrides.fieldsFor scope := by
  obtain ⟨id, hid, h⟩ := Option.bind_eq_some_iff.mp h
  obtain ⟨table, htable, hvalue⟩ := Option.bind_eq_some_iff.mp h
  refine List.mem_map.mpr ⟨field.text, mem_sortedTexts.mpr ?_, rfl⟩
  refine List.mem_append_right _ (List.mem_flatMap.mpr ⟨table, ?_, Table.mem_keys_of_get? hvalue⟩)
  exact Option.mem_toList.mpr (Option.bind_eq_some_iff.mpr ⟨id, hid, htable⟩)

/-- Two tables of overrides say the same of every field but one. -/
structure AgreeOff (field : FieldPath) (overrides other : Overrides) : Prop where
  /-- The other fields are bound alike. -/
  binding? : ∀ f ≠ field, ∀ s, overrides.binding? f s = other.binding? f s
  /-- The other fields have the same batch slots. -/
  slot? : ∀ f ≠ field, ∀ s slot, overrides.slot? f s slot = other.slot? f s slot
  /-- The other fields have the same assignments. -/
  manual? : ∀ f ≠ field, ∀ s, overrides.manual? f s = other.manual? f s

end Overrides

/-! ### The leaves of a resolved view -/

namespace Resolver

variable {resolver : Resolver} {space : String} {defaults : Table Json} {field : FieldPath}
  {scope : ObjectScope}

/-- Every field of the namespace with a value is resolved. -/
theorem mem_viewFields {resolved : Resolved} (hspace : (field.within? space).isSome)
    (h : resolver.resolve? defaults field scope = some resolved) :
    field ∈ resolver.viewFields space defaults scope := by
  by_cases hdefault : (defaults.get? field.text).isSome
  · obtain ⟨value, hvalue⟩ := Option.isSome_iff_exists.mp hdefault
    exact List.mem_append_left _
      (List.mem_map.mpr ⟨field.text, Table.mem_keys_of_get? hvalue, rfl⟩)
  · have hnone : (defaults.get? field.text).isNone := by simpa using hdefault
    refine List.mem_append_right _ (List.mem_filter.mpr ⟨?_, by rw [hspace, hnone]; rfl⟩)
    obtain ⟨layer, -, hlayer⟩ := List.exists_of_findSome?_eq_some h
    obtain ⟨value, hvalue, -⟩ := Option.map_eq_some_iff.mp hlayer
    cases layer with
    | binding =>
      obtain ⟨⟨s, id⟩, hbinding, -⟩ := Option.bind_eq_some_iff.mp hvalue
      obtain ⟨s, hs, hfound⟩ := List.exists_of_findSome?_eq_some hbinding
      obtain ⟨id, hid, -⟩ := Option.map_eq_some_iff.mp hfound
      exact Overrides.mem_fieldsFor_of_binding? hs hid
    | batchKey =>
      obtain ⟨slot, -, hslot⟩ := Option.bind_eq_some_iff.mp hvalue
      obtain ⟨s, hs, hfound⟩ := List.exists_of_findSome?_eq_some hslot
      exact Overrides.mem_fieldsFor_of_slot? hs hfound
    | batchDefault =>
      obtain ⟨s, hs, hfound⟩ := List.exists_of_findSome?_eq_some hvalue
      exact Overrides.mem_fieldsFor_of_slot? hs hfound
    | manual => exact Overrides.mem_fieldsFor_of_manual? hvalue
    | default => exact absurd (Option.isSome_of_eq_some hvalue) hdefault

/-- The fields that are resolved lie in the namespace or are leaves of the view. -/
theorem mem_keys_or_isSome_within? (h : field ∈ resolver.viewFields space defaults scope) :
    field.text ∈ defaults.keys ∨ (field.within? space).isSome := by
  rcases List.mem_append.mp h with h | h
  · obtain ⟨key, hkey, rfl⟩ := List.mem_map.mp h
    exact .inl hkey
  · have hfilter := (List.mem_filter.mp h).2
    rw [Bool.and_eq_true] at hfilter
    exact .inr hfilter.1

/-- The values that a resolver has for the fields of a view, under the paths of the fields. -/
def leaves (resolver : Resolver) (space : String) (defaults : Table Json) (scope : ObjectScope) :
    Table Json :=
  .ofList <| (resolver.viewFields space defaults scope).filterMap fun field =>
    (resolver.resolve? defaults field scope).map fun resolved => (field.text, resolved.value)

theorem view_fst (resolver : Resolver) (space : String) (view : Entries Json)
    (scope : ObjectScope) :
    (resolver.view space view scope).1 =
      unflatten space (resolver.leaves space (flatten space view) scope) :=
  rfl

theorem get?_leaves (resolver : Resolver) (space : String) (defaults : Table Json)
    (scope : ObjectScope) (path : String) :
    (resolver.leaves space defaults scope).get? path =
      if path ∈ defaults.keys ∨ ((FieldPath.mk path).within? space).isSome then
        (resolver.resolve? defaults ⟨path⟩ scope).map Resolved.value
      else none := by
  ext value
  have hmem : ∀ value, (path, value) ∈
      ((resolver.viewFields space defaults scope).filterMap fun field =>
        (resolver.resolve? defaults field scope).map fun resolved =>
          (field.text, resolved.value)) ↔
      ⟨path⟩ ∈ resolver.viewFields space defaults scope ∧
        (resolver.resolve? defaults ⟨path⟩ scope).map Resolved.value = some value := by
    intro value
    rw [List.mem_filterMap]
    constructor
    · rintro ⟨⟨text⟩, hfield, hvalue⟩
      obtain ⟨resolved, hresolved, heq⟩ := Option.map_eq_some_iff.mp hvalue
      cases heq
      exact ⟨hfield, by rw [hresolved, Option.map_some]⟩
    · rintro ⟨hfield, hvalue⟩
      obtain ⟨resolved, hresolved, rfl⟩ := Option.map_eq_some_iff.mp hvalue
      exact ⟨⟨path⟩, hfield, by rw [hresolved, Option.map_some]⟩
  have hunique : ∀ v v', _ → _ → v = v' := fun v v' h h' =>
    Option.some.inj (((hmem v).mp h).2.symm.trans ((hmem v').mp h').2)
  refine (Entries.get?_ofList_eq_some_iff hunique).trans ((hmem value).trans ?_)
  constructor
  · rintro ⟨hfield, hvalue⟩
    rwa [if_pos (mem_keys_or_isSome_within? hfield)]
  · intro h
    split at h
    · rename_i hplace
      refine ⟨hplace.elim (fun hkey => ?_) fun hspace => ?_, h⟩
      · exact List.mem_append_left _ (List.mem_map.mpr ⟨path, hkey, rfl⟩)
      · obtain ⟨resolved, hresolved, -⟩ := Option.map_eq_some_iff.mp h
        exact mem_viewFields hspace hresolved
    · exact absurd h (Option.some_ne_none value).symm

/-- The value that a resolver has for the field of a view with some names behind the namespace. -/
def fieldValue? (resolver : Resolver) (space : String) (view : Entries Json)
    (scope : ObjectScope) (rest : String) : Option Json :=
  (resolver.resolve? (flatten space view) (.join space rest) scope).map Resolved.value

theorem get?_leaves_join (resolver : Resolver) (space : String) (view : Entries Json)
    (scope : ObjectScope) (rest : String) :
    (resolver.leaves space (flatten space view) scope).get? (FieldPath.join space rest).text =
      resolver.fieldValue? space view scope rest := by
  have hspace : ((FieldPath.join space rest).within? space).isSome :=
    Option.isSome_of_eq_some (FieldPath.within?_eq_some_iff.mpr rfl)
  rw [get?_leaves, if_pos (.inr hspace)]
  rfl

/-! ### An override of one field -/

section AgreeOff

variable {overrides : Overrides}

/-- Overrides that agree on a field resolve it alike. -/
theorem resolve?_eq_of_agreeOff (h : resolver.overrides.AgreeOff field overrides)
    {other : FieldPath} (hother : other ≠ field) :
    resolver.resolve? defaults other scope =
      { resolver with overrides }.resolve? defaults other scope := by
  have hlayer : ∀ layer, resolver.layerValue? defaults other scope layer =
      { resolver with overrides }.layerValue? defaults other scope layer := by
    intro layer
    cases layer <;>
      simp only [layerValue?, Resolver.binding?, Resolver.slot?, h.binding? other hother,
        h.slot? other hother, h.manual? other hother]
  simp only [resolve?, hlayer]

/-- Overrides that agree on every field but one give a view the same leaves but one. -/
theorem erase_leaves_eq_of_agreeOff (h : resolver.overrides.AgreeOff field overrides) :
    (resolver.leaves space defaults scope).erase field.text =
      ({ resolver with overrides }.leaves space defaults scope).erase field.text := by
  refine Table.ext_get? fun path => ?_
  change Entries.get? (Entries.erase _ _) _ = Entries.get? (Entries.erase _ _) _
  rw [Entries.get?_erase, Entries.get?_erase]
  split
  · rfl
  · rename_i hne
    have hother : (⟨path⟩ : FieldPath) ≠ field := fun heq => hne (heq ▸ rfl)
    change (resolver.leaves space defaults scope).get? path =
      ({ resolver with overrides }.leaves space defaults scope).get? path
    rw [get?_leaves, get?_leaves, resolve?_eq_of_agreeOff h hother]

end AgreeOff

/-- A resolved view, leaf by leaf. A field with a value that no field with a value extends has its
value where its names lead; whatever is found stands above or at a field with a value, or inside
of its value; and overrides that differ in one field only change nothing apart from its names. -/
theorem view_leafwise (resolver : Resolver) (space : String) (view : Entries Json)
    (scope : ObjectScope) :
    let value? := resolver.fieldValue? space view scope
    let result := Json.obj (resolver.view space view scope).1
    (∀ rest value, value? rest = some value → (∀ more, value? (rest ++ "." ++ more) = none) →
      result.at? (FieldPath.segments rest) = some value) ∧
    (∀ names ≠ [], (result.at? names).isSome → ∃ rest value, value? rest = some value ∧
      (names <+: FieldPath.segments rest ∨
        ∃ inside, names = FieldPath.segments rest ++ inside ∧ (value.at? inside).isSome)) ∧
    ∀ overrides field, resolver.overrides.AgreeOff field overrides →
      ∀ names, (∀ rest, field = .join space rest → Apart (FieldPath.segments rest) names) →
        (Json.obj ({ resolver with overrides }.view space view scope).1).at? names =
          result.at? names := by
  dsimp only
  rw [view_fst]
  simp only [← get?_leaves_join]
  refine ⟨fun rest value => at?_unflatten,
    fun names => exists_get?_of_isSome_at?_unflatten, fun overrides field h names happart => ?_⟩
  rw [view_fst, ← at?_unflatten_erase happart (resolver.leaves _ _ _),
    erase_leaves_eq_of_agreeOff h, at?_unflatten_erase happart]

/-! ### An assignment to one leaf -/

/-- The fields `fill.width` and `label` of a view. -/
def labelledView : Entries Json :=
  [("fill", .obj [("width", .str "thin")]), ("label", .str "first")]

/-- The field `fill.width` of the object `a` is assigned, and nothing else. -/
def widthAssigned : Resolver where
  overrides := { Overrides.empty with
    manual := .ofList [("a", .ofList [("Canvas.fill.width", .str "wide")])] }
  values := .empty
  key := none

theorem agreeOff_widthAssigned :
    widthAssigned.overrides.AgreeOff ⟨"Canvas.fill.width"⟩ .empty where
  binding? _ _ _ := rfl
  slot? _ _ _ _ := rfl
  manual? field hfield scope := by
    cases scope with
    | all => rfl
    | object id =>
      have hpath : "Canvas.fill.width" ≠ field.text := fun heq =>
        hfield (by rw [heq])
      change (if "a" = id.text then some _ else none).bind _ = none
      split
      · exact if_neg hpath
      · rfl

theorem viewFields_widthAssigned :
    widthAssigned.viewFields "Canvas" (flatten "Canvas" labelledView) (.object ⟨"a"⟩) =
      [⟨"Canvas.fill.width"⟩, ⟨"Canvas.label"⟩] := by
  decide +kernel

/-- With `fill.width` assigned, it has the assigned value, `fill` leads to a field with a value,
and `label` is what it is without overrides. -/
theorem view_leafwise_widthAssigned :
    let view := fun overrides =>
      Json.obj ({ widthAssigned with overrides }.view "Canvas" labelledView (.object ⟨"a"⟩)).1
    (view widthAssigned.overrides).at? ["fill", "width"] = some (.str "wide") ∧
      (view .empty).at? ["label"] = (view widthAssigned.overrides).at? ["label"] := by
  have hleafwise := view_leafwise widthAssigned "Canvas" labelledView (.object ⟨"a"⟩)
  dsimp only at hleafwise
  obtain ⟨hfound, -, hkept⟩ := hleafwise
  refine ⟨hfound "fill.width" (.str "wide") rfl fun more => ?_,
    hkept .empty ⟨"Canvas.fill.width"⟩ agreeOff_widthAssigned ["label"] fun rest hrest => ?_⟩
  · refine Option.map_eq_none_iff.mpr (Option.eq_none_iff_forall_ne_some.mpr fun resolved h => ?_)
    have hfield :=
      mem_viewFields (Option.isSome_of_eq_some (FieldPath.within?_eq_some_iff.mpr rfl)) h
    rw [viewFields_widthAssigned] at hfield
    have hlength : ∀ path : FieldPath, path ∈ [⟨"Canvas.fill.width"⟩, ⟨"Canvas.label"⟩] →
        path.text.length < 18 := by decide
    have hlt : ("Canvas" ++ "." ++ ("fill.width" ++ "." ++ more)).length < 18 := hlength _ hfield
    simp only [String.length_append] at hlt
    have hspace : "Canvas".length = 6 := by decide
    have hdot : ".".length = 1 := by decide
    have hwidth : "fill.width".length = 10 := by decide
    omega
  · have hrest : "fill.width" = rest := FieldPath.join_injective "Canvas" hrest
    rw [← hrest]
    decide

end Resolver

end SceneFlow
