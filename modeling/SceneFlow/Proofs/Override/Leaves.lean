import Mathlib
import SceneFlow.Override.Leaves
import SceneFlow.Proofs.Entries
import SceneFlow.Proofs.Text.Split

/-!
# Views put together from leaves

A value inside a view is reached by following names through objects. Planting a value changes what
is reached by the names under which it is planted, by their first parts and by what leads on from
them, and nothing else. A view is put together from leaves in ascending order of their paths, so a
leaf comes before those that it stands in the way of, and only these can take its place.

## Main definitions

* `Json.at?`: what names lead to.
* `Apart`: neither of two lists of names leads on from the other.
* `branches`, `grow`: the leaves of a namespace under their names, and the view they make.

## Main results

* `FieldPath.segments_prefix_iff`: the names of a field lead on to those of another exactly if the
  other is an extension of it behind a dot.
* `at?_unflatten`: a leaf that none extends is found under its names.
* `exists_get?_of_isSome_at?_unflatten`: whatever is found stands above, at or inside of a leaf.
* `at?_unflatten_erase`: a leaf apart from some names has no part in what these lead to.
-/

namespace SceneFlow

/-! ### The names of field paths -/

namespace FieldPath

variable {space rest : String}

theorem segments_ne_nil (rest : String) : segments rest ≠ [] := by
  simp [segments, Text.split_ne_nil]

theorem within?_eq_some_iff {field : FieldPath} :
    field.within? space = some rest ↔ field = join space rest := by
  rw [within?, Option.map_eq_some_iff]
  simp only [List.isPrefixOf?_eq_some_iff_append_eq]
  obtain ⟨text⟩ := field
  rw [join, mk.injEq, ← String.toList_inj, String.toList_append, String.toList_append]
  constructor
  · rintro ⟨cs, hcs, rfl⟩
    simpa using hcs.symm
  · intro h
    exact ⟨rest.toList, h.symm, String.ofList_toList⟩

theorem join_injective (space : String) : Function.Injective (join space) := fun _ _ h =>
  Option.some.inj ((within?_eq_some_iff.mpr rfl).symm.trans (within?_eq_some_iff.mpr h))

/-- The names of a field lead on to those of another exactly if the other is an extension of it. -/
theorem segments_prefix_iff {other : String} :
    segments rest <+: segments other ↔ other = rest ∨ ∃ more, other = rest ++ "." ++ more := by
  rw [segments, segments, List.prefix_map_iff_of_injective fun _ _ h => String.ofList_injective h,
    Text.split_prefix_iff, String.toList_inj]
  refine or_congr Iff.rfl ⟨?_, ?_⟩
  · rintro ⟨more, hmore⟩
    exact ⟨String.ofList more, String.toList_inj.mp (by simp [hmore])⟩
  · rintro ⟨more, rfl⟩
    exact ⟨more.toList, by simp⟩

end FieldPath

/-! ### Following names through objects -/

namespace Json

/-- The fields of a value, none unless it is an object. -/
def fields : Json → Entries Json
  | .obj fields => fields
  | _ => []

/-- What names lead to through the objects of a value. -/
def at? (value : Json) (names : List String) : Option Json :=
  match names with
  | [] => some value
  | name :: names => (value.fields.get? name).bind fun inner => inner.at? names

@[simp]
theorem at?_nil (value : Json) : value.at? [] = some value :=
  rfl

theorem at?_cons (value : Json) (name : String) (names : List String) :
    value.at? (name :: names) = (value.fields.get? name).bind fun inner => inner.at? names :=
  rfl

theorem at?_append (value : Json) (names more : List String) :
    value.at? (names ++ more) = (value.at? names).bind fun inner => inner.at? more := by
  induction names generalizing value with
  | nil => rfl
  | cons name names ih =>
    rw [List.cons_append, at?_cons, at?_cons, Option.bind_assoc]
    exact congrArg _ (funext ih)

/-- Below its own place a value is as good as the object with its fields. -/
theorem at?_obj_fields (value : Json) {names : List String} (h : names ≠ []) :
    (Json.obj value.fields).at? names = value.at? names := by
  cases names with
  | nil => exact absurd rfl h
  | cons name names => rfl

end Json

/-! ### Planting a value -/

/-- The object under a name of a view, with no fields unless there is one. -/
def innerFields (view : Entries Json) (name : String) : Entries Json :=
  ((view.get? name).map Json.fields).getD []

theorem plant_cons (value : Json) (name : String) {names : List String} (h : names ≠ [])
    (view : Entries Json) :
    plant value (name :: names) view =
      view.insert name (.obj (plant value names (innerFields view name))) := by
  cases names with
  | nil => exact absurd rfl h
  | cons next names =>
    rw [plant, innerFields]
    · cases view.get? name with
      | none => rfl
      | some found => cases found <;> rfl
    · exact List.cons_ne_nil next names

theorem at?_innerFields (view : Entries Json) (name : String) {names : List String}
    (h : names ≠ []) :
    (Json.obj (innerFields view name)).at? names = (Json.obj view).at? (name :: names) := by
  rw [Json.at?_cons, Json.fields, innerFields]
  cases view.get? name with
  | none =>
    cases names with
    | nil => exact absurd rfl h
    | cons next names => rfl
  | some found => exact found.at?_obj_fields h

theorem at?_insert_self (view : Entries Json) (name : String) (value : Json)
    (names : List String) :
    (Json.obj (view.insert name value)).at? (name :: names) = value.at? names := by
  rw [Json.at?_cons, Json.fields, Entries.get?_insert, if_pos rfl]
  rfl

theorem at?_insert_of_ne (view : Entries Json) {name other : String} (h : name ≠ other)
    (value : Json) (names : List String) :
    (Json.obj (view.insert name value)).at? (other :: names) =
      (Json.obj view).at? (other :: names) := by
  rw [Json.at?_cons, Json.fields, Entries.get?_insert, if_neg h]
  rfl

/-- A value that is planted is found where it was planted, with all that lies in it. -/
theorem at?_plant_append (value : Json) {names : List String} (h : names ≠ [])
    (rest : List String) (view : Entries Json) :
    (Json.obj (plant value names view)).at? (names ++ rest) = value.at? rest := by
  induction names generalizing view with
  | nil => exact absurd rfl h
  | cons name names ih =>
    rcases eq_or_ne names [] with rfl | hnames
    · exact at?_insert_self view name value rest
    · rw [plant_cons value name hnames, List.cons_append, at?_insert_self]
      exact ih hnames _

/-- Neither of two lists of names leads on from the other. -/
def Apart (names other : List String) : Prop :=
  ¬ names <+: other ∧ ¬ other <+: names

instance (names other : List String) : Decidable (Apart names other) :=
  inferInstanceAs (Decidable (_ ∧ _))

/-- Planting a value leaves what lies apart from it as it was. -/
theorem at?_plant_of_apart (value : Json) {names other : List String} (h : Apart names other)
    (view : Entries Json) :
    (Json.obj (plant value names view)).at? other = (Json.obj view).at? other := by
  induction names generalizing view other with
  | nil => exact absurd List.nil_prefix h.1
  | cons name names ih =>
    cases other with
    | nil => exact absurd List.nil_prefix h.2
    | cons next other =>
      rcases eq_or_ne name next with rfl | hne
      · have hrest : Apart names other := by simpa [Apart] using h
        have hnames : names ≠ [] := fun heq => hrest.1 (heq ▸ List.nil_prefix)
        have hother : other ≠ [] := fun heq => hrest.2 (heq ▸ List.nil_prefix)
        rw [plant_cons value name hnames, at?_insert_self, ih hrest, at?_innerFields view _ hother]
      · rcases eq_or_ne names [] with rfl | hnames
        · exact at?_insert_of_ne view hne value other
        · rw [plant_cons value name hnames, at?_insert_of_ne view hne]

/-- What names lead to when a value has been planted is determined by the value, and by what they
led to before. -/
theorem at?_plant_congr (value : Json) (names : List String) {other : List String}
    {view view' : Entries Json} (h : (Json.obj view).at? other = (Json.obj view').at? other) :
    (Json.obj (plant value names view)).at? other =
      (Json.obj (plant value names view')).at? other := by
  induction names generalizing view view' other with
  | nil => exact h
  | cons name names ih =>
    cases other with
    | nil =>
      cases Json.obj.inj (Option.some.inj h)
      rfl
    | cons next other =>
      rcases eq_or_ne name next with rfl | hne
      · rcases eq_or_ne names [] with rfl | hnames
        · rw [plant, plant, at?_insert_self, at?_insert_self]
        · rw [plant_cons value name hnames, plant_cons value name hnames, at?_insert_self,
            at?_insert_self]
          refine ih ?_
          rcases eq_or_ne other [] with rfl | hother
          · have hget : view.get? name = view'.get? name := by
              simpa [Json.at?_cons, Json.fields] using h
            rw [innerFields, hget, innerFields]
          · rw [at?_innerFields view _ hother, at?_innerFields view' _ hother, h]
      · rcases eq_or_ne names [] with rfl | hnames
        · rw [plant, plant, at?_insert_of_ne view hne, at?_insert_of_ne view' hne, h]
        · rw [plant_cons value name hnames, plant_cons value name hnames,
            at?_insert_of_ne view hne, at?_insert_of_ne view' hne, h]

/-- Whatever is found behind planting a value was found before, or stands above or inside of the
value. -/
theorem isSome_at?_plant {value : Json} {names other : List String} {view : Entries Json}
    (hnames : names ≠ []) (h : ((Json.obj (plant value names view)).at? other).isSome) :
    ((Json.obj view).at? other).isSome ∨ other <+: names ∨
      ∃ inside, other = names ++ inside ∧ (value.at? inside).isSome := by
  by_cases hbelow : names <+: other
  · obtain ⟨inside, rfl⟩ := hbelow
    rw [at?_plant_append value hnames] at h
    exact .inr (.inr ⟨inside, rfl, h⟩)
  · by_cases habove : other <+: names
    · exact .inr (.inl habove)
    · rw [at?_plant_of_apart value ⟨hbelow, habove⟩] at h
      exact .inl h

/-! ### Views that grow by leaves -/

/-- Leaves with the names that lead to them. -/
abbrev Branches := List (List String × Json)

/-- The view that grows by leaves, planted in turn. -/
def grow (branches : Branches) : Entries Json :=
  branches.foldl (fun view branch => plant branch.2 branch.1 view) []

theorem grow_concat (branches : Branches) (names : List String) (value : Json) :
    grow (branches ++ [(names, value)]) = plant value names (grow branches) := by
  rw [grow, List.foldl_append]
  rfl

/-- A leaf is found under its names if all later ones lie apart from it. -/
theorem at?_grow_append {names : List String} (hnames : names ≠ []) (value : Json)
    (earlier : Branches) {later : Branches} (h : ∀ branch ∈ later, Apart branch.1 names) :
    (Json.obj (grow (earlier ++ (names, value) :: later))).at? names = some value := by
  induction later using List.reverseRecOn with
  | nil =>
    rw [grow_concat]
    simpa using at?_plant_append value hnames [] (grow earlier)
  | append_singleton later branch ih =>
    obtain ⟨hlater, hbranch⟩ := List.forall_mem_append.mp h
    rw [← List.cons_append, ← List.append_assoc, grow_concat,
      at?_plant_of_apart _ (hbranch branch (List.mem_singleton_self branch)), ih hlater]

/-- Whatever is found in a view stands above, at or inside of a leaf. -/
theorem exists_mem_of_isSome_at?_grow {branches : Branches} {names : List String}
    (hbranches : ∀ branch ∈ branches, branch.1 ≠ []) (hnames : names ≠ [])
    (h : ((Json.obj (grow branches)).at? names).isSome) :
    ∃ branch ∈ branches, names <+: branch.1 ∨
      ∃ inside, names = branch.1 ++ inside ∧ (branch.2.at? inside).isSome := by
  induction branches using List.reverseRecOn with
  | nil =>
    cases names with
    | nil => exact absurd rfl hnames
    | cons name names => exact absurd h Bool.false_ne_true
  | append_singleton branches branch ih =>
    obtain ⟨hfirst, hlast⟩ := List.forall_mem_append.mp hbranches
    rw [grow_concat] at h
    rcases isSome_at?_plant (hlast branch (List.mem_singleton_self branch)) h with h | h
    · obtain ⟨found, hfound, hplace⟩ := ih hfirst h
      exact ⟨found, List.mem_append_left _ hfound, hplace⟩
    · exact ⟨branch, List.mem_append_right _ (List.mem_singleton_self branch), h⟩

/-! ### The view with given leaves -/

/-- The leaves of a namespace with the names that lead to them, in ascending order of their
paths. -/
def branches (space : String) (leaves : Entries Json) : Branches :=
  leaves.filterMap fun (path, value) =>
    ((FieldPath.mk path).within? space).map fun rest => (FieldPath.segments rest, value)

theorem branches_concat (space : String) (leaves : Entries Json) (path : String) (value : Json) :
    branches space (leaves ++ [(path, value)]) =
      branches space leaves ++ (((FieldPath.mk path).within? space).map fun rest =>
        (FieldPath.segments rest, value)).toList := by
  rw [branches, List.filterMap_append, ← branches]
  cases h : (FieldPath.mk path).within? space <;> simp [h]

theorem unflatten_eq_grow (space : String) (leaves : Table Json) :
    unflatten space leaves = grow (branches space leaves.entries) := by
  rw [unflatten, grow, branches, List.foldl_filterMap]
  congr
  funext view ⟨path, value⟩
  dsimp only
  cases (FieldPath.mk path).within? space <;> rfl

theorem mem_branches_iff {space : String} {leaves : Entries Json} {branch : List String × Json} :
    branch ∈ branches space leaves ↔ ∃ rest, branch.1 = FieldPath.segments rest ∧
      ((FieldPath.join space rest).text, branch.2) ∈ leaves := by
  obtain ⟨names, value⟩ := branch
  rw [branches, List.mem_filterMap]
  constructor
  · rintro ⟨⟨path, v⟩, hmem, heq⟩
    obtain ⟨rest, hrest, heq⟩ := Option.map_eq_some_iff.mp heq
    cases heq
    have hpath := congrArg FieldPath.text (FieldPath.within?_eq_some_iff.mp hrest)
    exact ⟨rest, rfl, hpath ▸ hmem⟩
  · rintro ⟨rest, rfl, hmem⟩
    refine ⟨_, hmem, ?_⟩
    change Option.map _ (FieldPath.within? (FieldPath.join space rest) space) = _
    rw [FieldPath.within?_eq_some_iff.mpr rfl]
    rfl

theorem ne_nil_of_mem_branches {space : String} {leaves : Entries Json}
    {branch : List String × Json} (h : branch ∈ branches space leaves) : branch.1 ≠ [] := by
  obtain ⟨rest, hrest, -⟩ := mem_branches_iff.mp h
  exact hrest ▸ FieldPath.segments_ne_nil rest

/-- In ascending order of the paths no later leaf stands above an earlier one. -/
theorem pairwise_branches (space : String) {leaves : Entries Json} (h : leaves.Sorted) :
    (branches space leaves).Pairwise fun a b => ¬ b.1 <+: a.1 := by
  refine List.pairwise_filterMap.mpr (h.imp ?_)
  rintro ⟨path, value⟩ ⟨path', value'⟩ hlt branch hbranch branch' hbranch' hbegins
  obtain ⟨rest, hrest, rfl⟩ := Option.map_eq_some_iff.mp hbranch
  obtain ⟨rest', hrest', rfl⟩ := Option.map_eq_some_iff.mp hbranch'
  cases FieldPath.within?_eq_some_iff.mp hrest
  cases FieldPath.within?_eq_some_iff.mp hrest'
  -- A text does not come before its own first part.
  rcases FieldPath.segments_prefix_iff.mp hbegins with rfl | ⟨more, rfl⟩
  · exact String.lt_irrefl _ hlt
  · have hlonger : (space ++ "." ++ (rest' ++ "." ++ more)).toList =
        (space ++ "." ++ rest').toList ++ ("." ++ more).toList := by simp
    exact List.le_append_left (hlonger ▸ String.lt_iff_toList_lt.mp hlt)

theorem at?_grow_branches_erase {space : String} {path : String} {names : List String}
    (h : ∀ rest, (⟨path⟩ : FieldPath) = .join space rest → Apart (FieldPath.segments rest) names)
    (leaves : Entries Json) :
    (Json.obj (grow (branches space (leaves.erase path)))).at? names =
      (Json.obj (grow (branches space leaves))).at? names := by
  induction leaves using List.reverseRecOn with
  | nil => rfl
  | append_singleton leaves leaf ih =>
    obtain ⟨other, value⟩ := leaf
    rw [Entries.erase, List.filter_append, ← Entries.erase, branches_concat]
    by_cases hother : other = path
    · rw [List.filter_cons_of_neg (by simpa using hother), List.filter_nil, List.append_nil, ih]
      subst hother
      cases hrest : (FieldPath.mk other).within? space with
      | none => rw [Option.map_none, Option.toList_none, List.append_nil]
      | some rest =>
        rw [Option.map_some, Option.toList_some, grow_concat]
        exact (at?_plant_of_apart value (h rest (FieldPath.within?_eq_some_iff.mp hrest)) _).symm
    · rw [List.filter_cons_of_pos (by simpa using hother), List.filter_nil, branches_concat]
      cases (FieldPath.mk other).within? space with
      | none => rwa [Option.map_none, Option.toList_none, List.append_nil, List.append_nil]
      | some rest =>
        rw [Option.map_some, Option.toList_some, grow_concat, grow_concat]
        exact at?_plant_congr value _ ih

/-! ### What is found in a view with given leaves -/

section Unflatten

variable {space : String} {leaves : Table Json}

theorem get?_eq_some_iff_mem (leaves : Table Json) (path : String) (value : Json) :
    leaves.get? path = some value ↔ (path, value) ∈ leaves.entries :=
  Entries.Sorted.get?_eq_some_iff leaves.sorted path value

/-- A leaf that none extends is found under its names. -/
theorem at?_unflatten {rest : String} {value : Json}
    (h : leaves.get? (FieldPath.join space rest).text = some value)
    (hmore : ∀ more, leaves.get? (FieldPath.join space (rest ++ "." ++ more)).text = none) :
    (Json.obj (unflatten space leaves)).at? (FieldPath.segments rest) = some value := by
  have hmem : (FieldPath.segments rest, value) ∈ branches space leaves.entries :=
    mem_branches_iff.mpr ⟨rest, rfl, (get?_eq_some_iff_mem leaves _ _).mp h⟩
  obtain ⟨earlier, later, heq⟩ := List.append_of_mem hmem
  rw [unflatten_eq_grow, heq]
  refine at?_grow_append (FieldPath.segments_ne_nil rest) value earlier fun branch hbranch => ?_
  have habove : ¬ branch.1 <+: FieldPath.segments rest := by
    have hpairs := (List.pairwise_append.mp (heq ▸ pairwise_branches space leaves.sorted)).2.1
    exact (List.pairwise_cons.mp hpairs).1 branch hbranch
  refine ⟨habove, fun hbelow => ?_⟩
  obtain ⟨other, hnames, hother⟩ := mem_branches_iff.mp
    (heq ▸ List.mem_append_right earlier (List.mem_cons_of_mem _ hbranch))
  rcases FieldPath.segments_prefix_iff.mp (hnames ▸ hbelow) with rfl | ⟨more, rfl⟩
  · exact habove (hnames ▸ List.prefix_rfl)
  · have hsome := (get?_eq_some_iff_mem leaves _ _).mpr hother
    exact Option.some_ne_none _ (hsome.symm.trans (hmore more))

/-- Whatever is found stands above, at or inside of a leaf. -/
theorem exists_get?_of_isSome_at?_unflatten {names : List String} (hnames : names ≠ [])
    (h : ((Json.obj (unflatten space leaves)).at? names).isSome) :
    ∃ rest value, leaves.get? (FieldPath.join space rest).text = some value ∧
      (names <+: FieldPath.segments rest ∨
        ∃ inside, names = FieldPath.segments rest ++ inside ∧ (value.at? inside).isSome) := by
  rw [unflatten_eq_grow] at h
  obtain ⟨branch, hbranch, hplace⟩ :=
    exists_mem_of_isSome_at?_grow (fun _ => ne_nil_of_mem_branches) hnames h
  obtain ⟨rest, hrest, hmem⟩ := mem_branches_iff.mp hbranch
  rw [hrest] at hplace
  exact ⟨rest, branch.2, (get?_eq_some_iff_mem leaves _ _).mpr hmem, hplace⟩

/-- A leaf apart from some names has no part in what these lead to. -/
theorem at?_unflatten_erase {path : String} {names : List String}
    (h : ∀ rest, (⟨path⟩ : FieldPath) = .join space rest → Apart (FieldPath.segments rest) names)
    (leaves : Table Json) :
    (Json.obj (unflatten space (leaves.erase path))).at? names =
      (Json.obj (unflatten space leaves)).at? names := by
  rw [unflatten_eq_grow, unflatten_eq_grow]
  exact at?_grow_branches_erase h leaves.entries

end Unflatten

end SceneFlow
