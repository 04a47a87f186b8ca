import Mathlib
import SceneFlow.Compile.Assembly
import SceneFlow.Proofs.Override.View

/-!
# Resolvers that know the same

The fields of an object are resolved from what overrides say of it and of all objects, and a
resolver looks up of this only what counts for its variant. So resolvers that know the same in
these places resolve all views of the object alike, note the same bindings that are passed over,
and treat the tokens of the object alike. What else is in the overrides, such as slots of other
variants, makes a field one more that is looked at, but not one that is resolved or noted.

## Main definitions

* `Resolver.AgreesAt`: two resolvers know the same of what counts for a scope.
* `Resolver.Alike`: two resolvers know the same.

## Main results

* `Resolver.AgreesAt.view_eq`: resolvers that agree at a scope resolve every view alike.
* `Resolver.AgreesAt.render_eq`, `Resolver.AgreesAt.object_eq`: they give a token the same motions
  and make the same object of it.
-/

namespace SceneFlow

/-! ### Fields that only some overrides have -/

namespace Overrides

variable {overrides other : Overrides} {scope : ObjectScope} {β : Type}

/-- Fields of which nothing comes may be among those with overrides or not. -/
theorem filterMap_fieldsFor_eq {f : FieldPath → Option β}
    (h : ∀ field, (f field).isSome → field ∈ overrides.fieldsFor scope)
    (hother : ∀ field, (f field).isSome → field ∈ other.fieldsFor scope) :
    (overrides.fieldsFor scope).filterMap f = (other.fieldsFor scope).filterMap f := by
  have hpairwise : ∀ o : Overrides, (o.fieldsFor scope).Pairwise fun a b => a.text < b.text :=
    fun o => List.pairwise_map.mpr (pairwise_sortedTexts _)
  have hnodup : ∀ o : Overrides, ((o.fieldsFor scope).filter fun field => (f field).isSome).Nodup :=
    fun o => ((hpairwise o).imp fun hlt heq => hlt.ne (congrArg FieldPath.text heq)).filter _
  -- Both lists are in order and have the same fields of which something comes.
  have hfilter : (overrides.fieldsFor scope).filter (fun field => (f field).isSome) =
      (other.fieldsFor scope).filter fun field => (f field).isSome := by
    refine List.Perm.eq_of_pairwise (fun a b _ _ hab hba => absurd hab hba.asymm)
      ((hpairwise overrides).filter _) ((hpairwise other).filter _)
      ((List.perm_ext_iff_of_nodup (hnodup overrides) (hnodup other)).mpr fun field => ?_)
    rw [List.mem_filter, List.mem_filter]
    exact ⟨fun ⟨_, hf⟩ => ⟨hother field hf, hf⟩, fun ⟨_, hf⟩ => ⟨h field hf, hf⟩⟩
  have hkept : ∀ list : List FieldPath,
      list.filterMap f = (list.filter fun field => (f field).isSome).filterMap f := by
    intro list
    rw [List.filterMap_filter]
    refine List.filterMap_congr fun field _ => ?_
    cases f field <;> rfl
  rw [hkept, hfilter, ← hkept]

end Overrides

namespace Resolver

/-! ### Resolvers that agree at a scope -/

/-- Two resolvers know the same of what counts for a scope: which variables fields are bound to,
what the slots of their variants and of all variants hold, which values are assigned, and the
values of the variables. -/
structure AgreesAt (scope : ObjectScope) (resolver other : Resolver) : Prop where
  /-- Fields are bound alike. -/
  binding? : ∀ field, ∀ s ∈ scope.chain,
    resolver.overrides.binding? field s = other.overrides.binding? field s
  /-- The slots of the variants hold the same. -/
  keySlot? : ∀ field, ∀ s ∈ scope.chain,
    resolver.slot?.bind (resolver.overrides.slot? field s) =
      other.slot?.bind (other.overrides.slot? field s)
  /-- The slots of all variants hold the same. -/
  defaultSlot? : ∀ field, ∀ s ∈ scope.chain,
    resolver.overrides.slot? field s defaultKey = other.overrides.slot? field s defaultKey
  /-- The same values are assigned. -/
  manual? : ∀ field, resolver.overrides.manual? field scope = other.overrides.manual? field scope
  /-- Every name means the same value. -/
  get? : ∀ id, resolver.values.get? id = other.values.get? id

namespace AgreesAt

variable {resolver other : Resolver} {scope : ObjectScope}

/-- What is found along a chain of scopes is what is found in each. -/
private theorem findSome?_congr {α β : Type} {f g : α → Option β} {list : List α}
    (h : ∀ a ∈ list, f a = g a) : list.findSome? f = list.findSome? g := by
  induction list with
  | nil => rfl
  | cons a rest ih =>
    rw [List.findSome?_cons, List.findSome?_cons, h a List.mem_cons_self,
      ih fun b hb => h b (List.mem_cons_of_mem a hb)]

theorem binding?_eq (h : AgreesAt scope resolver other) (field : FieldPath) :
    resolver.binding? field scope = other.binding? field scope :=
  findSome?_congr fun s hs => by rw [h.binding? field s hs]

theorem layerValue?_eq (h : AgreesAt scope resolver other) (defaults : Table Json)
    (field : FieldPath) (layer : Layer) :
    resolver.layerValue? defaults field scope layer =
      other.layerValue? defaults field scope layer := by
  cases layer with
  | binding => simp only [layerValue?, h.binding?_eq, h.get?]
  | batchKey =>
    have hslots : ∀ r : Resolver, r.layerValue? defaults field scope .batchKey =
        scope.chain.findSome? fun s => r.slot?.bind (r.overrides.slot? field s) := by
      intro r
      rw [layerValue?]
      cases r.slot? with
      | none => exact (List.findSome?_eq_none_iff.mpr fun _ _ => rfl).symm
      | some slot => rfl
    rw [hslots, hslots]
    exact findSome?_congr (h.keySlot? field)
  | batchDefault => exact findSome?_congr (h.defaultSlot? field)
  | manual => exact h.manual? field
  | default => rfl

theorem resolve?_eq (h : AgreesAt scope resolver other) (defaults : Table Json)
    (field : FieldPath) :
    resolver.resolve? defaults field scope = other.resolve? defaults field scope := by
  simp only [resolve?, h.layerValue?_eq]

theorem stale?_eq (h : AgreesAt scope resolver other) (field : FieldPath) :
    resolver.stale? field scope = other.stale? field scope := by
  simp only [stale?, h.binding?_eq, h.get?]

/-- A field with a stale binding is among those with overrides. -/
theorem mem_fieldsFor_of_stale? {field : FieldPath}
    (h : (resolver.stale? field scope).isSome) : field ∈ resolver.overrides.fieldsFor scope := by
  obtain ⟨stale, hstale⟩ := Option.isSome_iff_exists.mp h
  obtain ⟨⟨s, source⟩, hbinding, -⟩ := Option.bind_eq_some_iff.mp hstale
  obtain ⟨s, hs, hfound⟩ := List.exists_of_findSome?_eq_some hbinding
  obtain ⟨id, hid, -⟩ := Option.map_eq_some_iff.mp hfound
  exact Overrides.mem_fieldsFor_of_binding? hs hid

/-- The same bindings are noted. -/
theorem filterMap_stale?_eq (h : AgreesAt scope resolver other) (space : String)
    (defaults : Table Json) :
    ((resolver.viewFields space defaults scope).filterMap fun field =>
        resolver.stale? field scope) =
      (other.viewFields space defaults scope).filterMap fun field => other.stale? field scope := by
  rw [viewFields, viewFields, List.filterMap_append, List.filterMap_append,
    List.filterMap_filter, List.filterMap_filter]
  simp only [h.stale?_eq]
  refine congrArg (_ ++ ·) (Overrides.filterMap_fieldsFor_eq (fun field hfield => ?_)
    fun field hfield => ?_)
  · split at hfield
    · exact mem_fieldsFor_of_stale? ((h.stale?_eq field).symm ▸ hfield)
    · cases hfield
  · split at hfield
    · exact mem_fieldsFor_of_stale? hfield
    · cases hfield

/-- Resolvers that agree at a scope resolve every view alike. -/
theorem view_eq (h : AgreesAt scope resolver other) (space : String) (view : Entries Json) :
    resolver.view space view scope = other.view space view scope := by
  have hleaves : resolver.leaves space (flatten space view) scope =
      other.leaves space (flatten space view) scope := by
    refine Table.ext_get? fun path => ?_
    rw [get?_leaves, get?_leaves, h.resolve?_eq]
  exact Prod.ext (by rw [view_fst, view_fst, hleaves]) (h.filterMap_stale?_eq space _)

/-- Resolvers that agree at an object give it the same motions. -/
theorem render_eq {object : NodeId} (h : AgreesAt (.object object) resolver other)
    (baseline : Float) (tracks : List Track) :
    Animation.render resolver object baseline tracks =
      Animation.render other object baseline tracks := by
  induction tracks with
  | nil => rfl
  | cons track tracks ih =>
    simp only [Animation.render, Animation.resolveTrack, h.view_eq, ih]

/-- Resolvers that agree at an object treat its tokens alike at animation nodes. -/
theorem animate_eq {token : Token} (h : AgreesAt (.object token.name) resolver other)
    (animation : Animation) (node : NodeId) :
    animation.animate resolver node token = animation.animate other node token := by
  simp only [Animation.animate, h.render_eq]

/-- Resolvers that agree at an object make the same of its tokens. -/
theorem object_eq {token : Token} (h : AgreesAt (.object token.name) resolver other) :
    token.object resolver = token.object other := by
  simp only [Token.object, h.view_eq]

end AgreesAt

/-! ### Resolvers with the same overrides -/

/-- Two resolvers know the same: the overrides, the variant and the value under every name. -/
structure Alike (resolver other : Resolver) : Prop where
  /-- The overrides are the same. -/
  overrides : resolver.overrides = other.overrides
  /-- The variant is the same. -/
  key : resolver.key = other.key
  /-- Every name means the same value. -/
  get? : ∀ id, resolver.values.get? id = other.values.get? id

namespace Alike

variable {resolver other : Resolver}

/-- Resolvers that know the same agree at every scope. -/
theorem agreesAt (h : Alike resolver other) (scope : ObjectScope) :
    AgreesAt scope resolver other where
  binding? _ _ _ := by rw [h.overrides]
  keySlot? _ _ _ := by rw [slot?, slot?, h.overrides, h.key]
  defaultSlot? _ _ _ := by rw [h.overrides]
  manual? _ := by rw [h.overrides]
  get? := h.get?

/-- Resolvers that know the same give an object the same motions. -/
theorem render_eq (h : Alike resolver other) (object : NodeId) (baseline : Float)
    (tracks : List Track) :
    Animation.render resolver object baseline tracks =
      Animation.render other object baseline tracks :=
  (h.agreesAt (.object object)).render_eq baseline tracks

/-- Resolvers that know the same make the same object of a token. -/
theorem object_eq (h : Alike resolver other) (token : Token) :
    token.object resolver = token.object other :=
  (h.agreesAt (.object token.name)).object_eq

end Alike

end Resolver

end SceneFlow
