import SceneFlow.Proofs.Override.Plain

/-!
# Plain views and their leaves

A plain view and the leaves that it is taken apart into determine each other. Leaves of a namespace
are those of a plain view exactly if none is an object with fields and the path of none leads on
behind the path of another.

## Main definitions

* `Foliage`: leaves of a namespace that stand beside each other.

## Main results

* `foliage_flatten`: a plain view is taken apart into leaves that stand beside each other.
* `Foliage.flatten_unflatten`: leaves that stand beside each other are those of the view that is put
  together from them.
* `flatten_unflatten_inverse`: taking apart and putting together undo each other.
-/

namespace SceneFlow

/-- Leaves of a namespace that stand beside each other. -/
structure Foliage (space : String) (leaves : Table Json) : Prop where
  /-- Every path lies in the namespace. -/
  within : ∀ path leaf, leaves.get? path = some leaf →
    ∃ rest, path = (FieldPath.join space rest).text
  /-- No path leads on behind another. -/
  apart : ∀ path leaf, leaves.get? path = some leaf → ∀ more,
    leaves.get? (path ++ "." ++ more) = none
  /-- No value is an object with fields. -/
  isLeaf : ∀ path leaf, leaves.get? path = some leaf → leaf.IsLeaf
  /-- The keys of all objects in the values ascend. -/
  ordered : ∀ path leaf, leaves.get? path = some leaf → leaf.Ordered

theorem FieldPath.join_append (space rest more : String) :
    (join space (rest ++ "." ++ more)).text = (join space rest).text ++ "." ++ more := by
  simp only [join, String.append_assoc]

/-- Leaves of one namespace are equal if the same are found by their names. -/
theorem Foliage.ext {space : String} {leaves other : Table Json} (h : Foliage space leaves)
    (hother : Foliage space other) (hget : ∀ rest leaf,
      leaves.get? (FieldPath.join space rest).text = some leaf ↔
        other.get? (FieldPath.join space rest).text = some leaf) : leaves = other := by
  refine Table.ext_get? fun path => Option.ext fun leaf => ⟨fun hleaf => ?_, fun hleaf => ?_⟩
  · obtain ⟨rest, rfl⟩ := h.within path leaf hleaf
    exact (hget rest leaf).mp hleaf
  · obtain ⟨rest, rfl⟩ := hother.within path leaf hleaf
    exact (hget rest leaf).mpr hleaf

/-! ### The leaves of a plain view -/

section Flatten

variable {space : String} {view : Entries Json} (h : (Json.obj view).Ordered) (hplain : Plain view)
include h hplain

theorem exists_join_of_get?_flatten {path : String} {leaf : Json}
    (hget : (flatten space view).get? path = some leaf) :
    ∃ rest, path = (FieldPath.join space rest).text := by
  obtain ⟨names, hnames, hat, -, rfl⟩ := exists_of_get?_flatten h hget
  obtain ⟨rest, hrest, -⟩ := FieldPath.exists_join_eq_extend space hnames
    (hplain names (Option.isSome_of_eq_some hat))
  exact ⟨rest, hrest⟩

/-- Nothing stands behind a leaf. -/
theorem get?_flatten_append_eq_none {path : String} {leaf : Json}
    (hget : (flatten space view).get? path = some leaf) (more : String) :
    (flatten space view).get? (path ++ "." ++ more) = none := by
  obtain ⟨rest, rfl⟩ := exists_join_of_get?_flatten h hplain hget
  obtain ⟨hat, hleaf⟩ := (get?_flatten_eq_some_iff h hplain).mp hget
  refine Option.eq_none_iff_forall_ne_some.mpr fun other hother => ?_
  rw [← FieldPath.join_append] at hother
  obtain ⟨inside, hne, hinside⟩ := FieldPath.exists_segments_eq_append rest more
  have hbelow := ((get?_flatten_eq_some_iff h hplain).mp hother).1
  rw [hinside, Json.at?_append, hat, Option.bind_some, hleaf.at?_eq_none hne] at hbelow
  cases hbelow

theorem foliage_flatten (space : String) : Foliage space (flatten space view) where
  within _ _ := exists_join_of_get?_flatten h hplain
  apart _ _ := get?_flatten_append_eq_none h hplain
  isLeaf _ _ := isLeaf_of_get?_flatten h
  ordered path leaf hget := by
    obtain ⟨_, -, hat, -, -⟩ := exists_of_get?_flatten h hget
    exact h.at? hat

end Flatten

/-! ### The view with given leaves -/

namespace Foliage

variable {space : String} {leaves : Table Json} (h : Foliage space leaves)
include h

theorem ordered_unflatten : (Json.obj (unflatten space leaves)).Ordered :=
  SceneFlow.ordered_unflatten space fun e he =>
    h.ordered e.1 e.2 ((get?_eq_some_iff_mem leaves e.1 e.2).mpr he)

/-- The leaves that are found by their names are those from which the view is put together. -/
theorem at?_unflatten_iff {rest : String} {leaf : Json} :
    ((Json.obj (unflatten space leaves)).at? (FieldPath.segments rest) = some leaf ∧ leaf.IsLeaf) ↔
      leaves.get? (FieldPath.join space rest).text = some leaf := by
  constructor
  · rintro ⟨hat, hleaf⟩
    rw [unflatten_eq_grow] at hat
    obtain ⟨⟨names, value⟩, hbranch, inside, hnames, hvalue⟩ := exists_mem_of_at?_grow
      (fun _ => ne_nil_of_mem_branches) (FieldPath.segments_ne_nil rest) hat hleaf
    obtain ⟨other, rfl, hmem⟩ := mem_branches_iff.mp hbranch
    have hget := (get?_eq_some_iff_mem leaves _ value).mpr hmem
    -- Inside of a leaf there is nothing but the leaf itself.
    have hinside : inside = [] := by
      by_contra hne
      rw [(h.isLeaf _ value hget).at?_eq_none hne] at hvalue
      cases hvalue
    subst hinside
    rw [List.append_nil] at hnames
    rw [FieldPath.segments_injective hnames, hget]
    exact hvalue
  · intro hget
    refine ⟨at?_unflatten hget fun more => ?_, h.isLeaf _ leaf hget⟩
    rw [FieldPath.join_append]
    exact h.apart _ leaf hget more

/-- Leaves that stand beside each other are those of the view that is put together from them. -/
theorem flatten_unflatten : flatten space (unflatten space leaves) = leaves := by
  have hordered := h.ordered_unflatten
  have hplain : Plain (unflatten space leaves) := plain_unflatten h.isLeaf
  refine (foliage_flatten hordered hplain space).ext h fun rest leaf => ?_
  rw [get?_flatten_eq_some_iff hordered hplain, h.at?_unflatten_iff]

end Foliage

/-- Taking plain views apart and putting leaves together that stand beside each other undo each
other. -/
theorem flatten_unflatten_inverse (space : String) :
    (∀ view, (Json.obj view).Ordered → Plain view →
      Foliage space (flatten space view) ∧ unflatten space (flatten space view) = view) ∧
    ∀ leaves, Foliage space leaves →
      ((Json.obj (unflatten space leaves)).Ordered ∧ Plain (unflatten space leaves)) ∧
        flatten space (unflatten space leaves) = leaves :=
  ⟨fun _ h hplain => ⟨foliage_flatten h hplain space,
      (unflatten_flatten_eq_iff h space).mpr hplain⟩,
    fun _ h => ⟨⟨h.ordered_unflatten, plain_unflatten h.isLeaf⟩, h.flatten_unflatten⟩⟩

/-- A view with an empty name, an empty object, and a dot in a name inside of a list. -/
def hedge : Entries Json :=
  [("", .obj [("on", .bool true)]), ("dash", .arr [.obj [("a.b", .null)]]), ("meta", .obj []),
    ("position", .obj [("x", .str "left"), ("y", .null)])]

/-- The leaves of the view. -/
def hedgeLeaves : Table Json where
  entries :=
    [("Canvas..on", .bool true), ("Canvas.dash", .arr [.obj [("a.b", .null)]]),
      ("Canvas.meta", .obj []), ("Canvas.position.x", .str "left"), ("Canvas.position.y", .null)]
  sorted := by decide

theorem ordered_hedge : (Json.obj hedge).Ordered := by
  have hdash : (Json.obj [("a.b", .null)]).Ordered :=
    .obj (by decide) (List.forall_mem_singleton.mpr .null)
  have hposition : (Json.obj [("x", .str "left"), ("y", .null)]).Ordered :=
    .obj (by decide) (by simp [Json.Ordered.str, Json.Ordered.null])
  refine .obj (by decide) ?_
  simp only [hedge, List.forall_mem_cons]
  exact ⟨.obj (by decide) (List.forall_mem_singleton.mpr (.bool true)),
    .arr (List.forall_mem_singleton.mpr hdash), .empty, hposition, List.forall_mem_nil _⟩

theorem plain_hedge : Plain hedge := by
  have hposition : Plain [("x", .str "left"), ("y", .null)] :=
    plain_of_forall_mem (by simp [Json.fields, plain_nil])
  have hon : Plain [("on", .bool true)] :=
    plain_of_forall_mem (by simp [Json.fields, plain_nil])
  exact plain_of_forall_mem (by simp [hedge, Json.fields, plain_nil, hposition, hon])

theorem flatten_hedge : flatten "Canvas" hedge = hedgeLeaves := by
  have hentries : (flatten "Canvas" hedge).entries = hedgeLeaves.entries := by rfl
  exact Table.ext_get? fun path => congrArg (Entries.get? · path) hentries

theorem flatten_unflatten_inverse_hedge :
    (Json.obj hedge).Ordered ∧ Plain hedge ∧ unflatten "Canvas" (flatten "Canvas" hedge) = hedge ∧
      Foliage "Canvas" hedgeLeaves ∧
      flatten "Canvas" (unflatten "Canvas" hedgeLeaves) = hedgeLeaves := by
  obtain ⟨hviews, hleaves⟩ := flatten_unflatten_inverse "Canvas"
  obtain ⟨hfoliage, hview⟩ := hviews hedge ordered_hedge plain_hedge
  rw [flatten_hedge] at hfoliage
  exact ⟨ordered_hedge, plain_hedge, hview, hfoliage, (hleaves hedgeLeaves hfoliage).2⟩

end SceneFlow
