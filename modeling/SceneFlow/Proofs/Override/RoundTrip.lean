import Mathlib
import SceneFlow.Proofs.Json.Ordered
import SceneFlow.Proofs.Override.View

/-!
# Views that are taken apart and put together

A view is taken apart into its leaves and put together again when it is resolved. The names that
lead to a leaf are written as one path with dots between them, and a dot inside of a name is not
told from these. So a view comes back as it was exactly if none of its names holds a dot.

## Main definitions

* `Json.IsLeaf`: a value without fields.
* `Plain`: no name that leads through the objects of a view holds a dot.

## Main results

* `Json.ext_of_leaves`: ordered values with the same leaves are equal.
* `unflatten_flatten_eq_iff`: a view comes back as it was exactly if it is plain.
* `Resolver.fieldValue?_of_get?_view`: a leaf of a resolved view is the value of its field.
* `Resolver.view_of_overrides_empty`: without overrides a view is taken apart and put together.
-/

namespace SceneFlow

/-! ### Values and their leaves -/

namespace Json

variable {value other : Json} {fields : Entries Json}

/-- A value without fields. -/
def IsLeaf (value : Json) : Prop :=
  value.fields = []

theorem IsLeaf.at?_eq_none (h : value.IsLeaf) {names : List String} (hnames : names ≠ []) :
    value.at? names = none := by
  rw [← value.at?_obj_fields hnames, h]
  cases names with
  | nil => exact absurd rfl hnames
  | cons name names => rfl

theorem Ordered.at? (h : value.Ordered) {names : List String} {inner : Json}
    (hinner : value.at? names = some inner) : inner.Ordered := by
  induction names generalizing value with
  | nil => exact Option.some.inj hinner ▸ h
  | cons name names ih =>
    obtain ⟨found, hfound, hrest⟩ := Option.bind_eq_some_iff.mp hinner
    cases h with
    | obj hsorted hvalues => exact ih ((Ordered.obj hsorted hvalues).get? hfound) hrest
    | _ => cases hfound

/-- Some leaf stands in every value. -/
theorem Ordered.exists_leaf (h : value.Ordered) :
    ∃ names leaf, value.at? names = some leaf ∧ leaf.IsLeaf := by
  induction h with
  | @obj fields hsorted hvalues ih =>
    cases fields with
    | nil => exact ⟨[], _, rfl, rfl⟩
    | cons e rest =>
      obtain ⟨names, leaf, hleaf, hisLeaf⟩ := ih e List.mem_cons_self
      have hget : Entries.get? (e :: rest) e.1 = some e.2 :=
        (hsorted.get?_eq_some_iff e.1 e.2).mpr List.mem_cons_self
      exact ⟨e.1 :: names, leaf, by rw [at?_cons, Json.fields, hget]; exact hleaf, hisLeaf⟩
  | _ => exact ⟨[], _, rfl, rfl⟩

theorem IsLeaf.eq (h : value.IsLeaf) (hleaves : ∀ names leaf, leaf.IsLeaf →
    (value.at? names = some leaf ↔ other.at? names = some leaf)) : value = other :=
  (Option.some.inj ((hleaves [] value h).mp rfl)).symm

/-- An object has a value under every name under which one with no more leaves has one. -/
theorem get?_ne_none_of_leaves {fields fields' : Entries Json} (h : (Json.obj fields).Ordered)
    (hleaves : ∀ names leaf, leaf.IsLeaf →
      (Json.obj fields).at? names = some leaf → (Json.obj fields').at? names = some leaf)
    {name : String} {inner : Json} (hinner : fields.get? name = some inner) :
    fields'.get? name ≠ none := by
  intro hnone
  obtain ⟨names, leaf, hleaf, hisLeaf⟩ := (h.get? hinner).exists_leaf
  have hfound := hleaves (name :: names) leaf hisLeaf
    (by rw [at?_cons, Json.fields, hinner]; exact hleaf)
  rw [at?_cons, Json.fields, hnone] at hfound
  cases hfound

/-- Ordered values with the same leaves are equal. -/
theorem ext_of_leaves (h : value.Ordered) (hother : other.Ordered)
    (hleaves : ∀ names leaf, leaf.IsLeaf →
      (value.at? names = some leaf ↔ other.at? names = some leaf)) : value = other := by
  induction h generalizing other with
  | @obj fields hsorted hvalues ih =>
    by_cases hisLeaf : fields = []
    · exact IsLeaf.eq hisLeaf hleaves
    · cases hother with
      | @obj fields' hsorted' hvalues' =>
        refine congrArg Json.obj (hsorted.ext hsorted' fun name => ?_)
        -- Below one name the leaves are the same, too.
        have hbelow : ∀ {inner inner'}, fields.get? name = some inner →
            fields'.get? name = some inner' → ∀ names leaf, leaf.IsLeaf →
              (inner.at? names = some leaf ↔ inner'.at? names = some leaf) := by
          intro inner inner' hinner hinner' names leaf hleaf
          have hiff := hleaves (name :: names) leaf hleaf
          rwa [at?_cons, at?_cons, Json.fields, Json.fields, hinner, hinner'] at hiff
        cases hinner : fields.get? name with
        | none =>
          cases hinner' : fields'.get? name with
          | none => rfl
          | some inner' =>
            exact absurd hinner (get?_ne_none_of_leaves (.obj hsorted' hvalues')
              (fun names leaf hleaf => (hleaves names leaf hleaf).mpr) hinner')
        | some inner =>
          cases hinner' : fields'.get? name with
          | none =>
            exact absurd hinner' (get?_ne_none_of_leaves (.obj hsorted hvalues)
              (fun names leaf hleaf => (hleaves names leaf hleaf).mp) hinner)
          | some inner' =>
            have hmem := (hsorted.get?_eq_some_iff name inner).mp hinner
            exact congrArg some (ih _ hmem ((Ordered.obj hsorted' hvalues').get? hinner')
              (hbelow hinner hinner'))
      | _ => exact Eq.symm (IsLeaf.eq rfl fun names leaf h => (hleaves names leaf h).symm)
  | _ => exact IsLeaf.eq rfl hleaves

end Json

/-! ### The paths of leaves -/

namespace FieldPath

/-- A path with further names behind it. -/
def extend (path : String) (names : List String) : String :=
  names.foldl (fun text name => text ++ "." ++ name) path

theorem extend_append (path more : String) (names : List String) :
    extend (path ++ more) names = path ++ extend more names := by
  induction names using List.reverseRecOn with
  | nil => rfl
  | append_singleton names name ih =>
    simp only [extend, List.foldl_append, List.foldl_cons, List.foldl_nil] at ih ⊢
    rw [ih, String.append_assoc, String.append_assoc, String.append_assoc]

theorem segments_injective : Function.Injective segments := by
  intro rest other h
  have htexts := List.map_injective_iff.mpr (fun _ _ heq => String.ofList_injective heq) h
  rw [Text.split_eq_splitOn, Text.split_eq_splitOn] at htexts
  exact String.toList_inj.mp (Text.splitOn_injective htexts)

/-- The names of an extension go on behind those of the field. -/
theorem exists_segments_eq_append (rest more : String) :
    ∃ inside ≠ [], segments (rest ++ "." ++ more) = segments rest ++ inside := by
  obtain ⟨inside, hinside⟩ := segments_prefix_iff.mpr (.inr ⟨more, rfl⟩)
  refine ⟨inside, ?_, hinside.symm⟩
  rintro rfl
  rw [List.append_nil] at hinside
  have hlength := congrArg String.length (segments_injective hinside)
  rw [String.length_append, String.length_append] at hlength
  have hdot : ".".length = 1 := by decide
  omega

theorem segments_of_notMem {name : String} (h : '.' ∉ name.toList) : segments name = [name] := by
  rw [segments, Text.split_eq_splitOn, List.splitOn_eq_singleton h]
  simp

theorem segments_concat (rest : String) {name : String} (h : '.' ∉ name.toList) :
    segments (rest ++ "." ++ name) = segments rest ++ [name] := by
  have htext : (rest ++ "." ++ name).toList = rest.toList ++ '.' :: name.toList := by simp
  rw [segments, segments, htext, Text.split_eq_splitOn, Text.split_eq_splitOn,
    Text.splitOn_append_cons _ h]
  simp

theorem notMem_of_mem_segments {rest name : String} (h : name ∈ segments rest) :
    '.' ∉ name.toList := by
  obtain ⟨part, hpart, rfl⟩ := List.mem_map.mp h
  rw [String.toList_ofList]
  exact Text.notMem_of_mem_split hpart

/-- Names without dots can be told from the path that they make. -/
theorem exists_join_eq_extend (space : String) {names : List String} (hnames : names ≠ [])
    (h : ∀ name ∈ names, '.' ∉ name.toList) :
    ∃ rest, extend space names = (join space rest).text ∧ segments rest = names := by
  cases names with
  | nil => exact absurd rfl hnames
  | cons name names =>
    obtain ⟨hname, hrest⟩ := List.forall_mem_cons.mp h
    refine ⟨extend name names, extend_append (space ++ ".") name names, ?_⟩
    induction names using List.reverseRecOn with
    | nil => exact segments_of_notMem hname
    | append_singleton names last ih =>
      obtain ⟨hrest, hlast⟩ := List.forall_mem_append.mp hrest
      have hsegments := ih (List.cons_ne_nil _ _) (List.forall_mem_cons.mpr ⟨hname, hrest⟩) hrest
      rw [extend, List.foldl_append, List.foldl_cons, List.foldl_nil, ← extend,
        segments_concat _ (hlast last (List.mem_singleton_self last)), hsegments, List.cons_append]

/-- The names of a field make its path. -/
theorem extend_segments (space rest : String) :
    extend space (segments rest) = (join space rest).text := by
  obtain ⟨other, hpath, hsegments⟩ := exists_join_eq_extend space (segments_ne_nil rest)
    fun _ => notMem_of_mem_segments
  rw [hpath, segments_injective hsegments]

end FieldPath

/-! ### Taking a view apart -/

namespace Json

variable {value leaf : Json} {fields : Entries Json} {path place : String}

theorem leavesOfFields_eq_flatMap (path : String) (fields : List (String × Json)) :
    leavesOfFields path fields = fields.flatMap fun e => leaves (path ++ "." ++ e.1) e.2 := by
  induction fields with
  | nil => rfl
  | cons e fields ih =>
    obtain ⟨name, value⟩ := e
    rw [leavesOfFields, ih, List.flatMap_cons]

/-- Some names lead to a leaf of a value, and make its path. -/
def LeafAt (value : Json) (path : String) (names : List String) (place : String) (leaf : Json) :
    Prop :=
  value.at? names = some leaf ∧ leaf.IsLeaf ∧ place = FieldPath.extend path names

theorem IsLeaf.mem_leaves_iff (h : value.IsLeaf) :
    (place, leaf) ∈ value.leaves path ↔ ∃ names, value.LeafAt path names place leaf := by
  have hleaves : value.leaves path = [(path, value)] := by
    cases value with
    | obj fields =>
      cases h
      rfl
    | _ => rfl
  rw [hleaves, List.mem_singleton]
  constructor
  · rintro ⟨⟩
    exact ⟨[], rfl, h, rfl⟩
  · rintro ⟨names, hat, -, rfl⟩
    rcases eq_or_ne names [] with rfl | hnames
    · rw [Option.some.inj hat]
      rfl
    · rw [h.at?_eq_none hnames] at hat
      cases hat

theorem mem_leavesOfFields_iff_of (hsorted : fields.Sorted)
    (h : ∀ e ∈ fields, ∀ path, (place, leaf) ∈ e.2.leaves path ↔
      ∃ names, e.2.LeafAt path names place leaf) :
    (place, leaf) ∈ leavesOfFields path fields ↔
      ∃ names ≠ [], (Json.obj fields).LeafAt path names place leaf := by
  rw [leavesOfFields_eq_flatMap, List.mem_flatMap]
  constructor
  · rintro ⟨e, he, hmem⟩
    obtain ⟨names, hat, hleaf, hplace⟩ := (h e he _).mp hmem
    refine ⟨e.1 :: names, List.cons_ne_nil _ _, ?_, hleaf, hplace⟩
    rw [at?_cons, Json.fields, (hsorted.get?_eq_some_iff e.1 e.2).mpr he]
    exact hat
  · rintro ⟨names, hnames, hat, hleaf, hplace⟩
    cases names with
    | nil => exact absurd rfl hnames
    | cons name names =>
      obtain ⟨inner, hinner, hat⟩ := Option.bind_eq_some_iff.mp hat
      have he := (hsorted.get?_eq_some_iff name inner).mp hinner
      exact ⟨(name, inner), he, (h _ he _).mpr ⟨names, hat, hleaf, hplace⟩⟩

theorem Ordered.mem_leaves_iff (h : value.Ordered) (path : String) :
    (place, leaf) ∈ value.leaves path ↔ ∃ names, value.LeafAt path names place leaf := by
  induction h generalizing path with
  | @obj fields hsorted hvalues ih =>
    by_cases hisLeaf : fields = []
    · exact IsLeaf.mem_leaves_iff hisLeaf
    · have hleaves : leaves path (.obj fields) = leavesOfFields path fields := by
        cases fields with
        | nil => exact absurd rfl hisLeaf
        | cons e rest => rw [leaves]
      rw [hleaves, mem_leavesOfFields_iff_of hsorted ih]
      refine exists_congr fun names => and_iff_right_of_imp ?_
      -- The object itself is no leaf.
      rintro ⟨hat, hleaf, -⟩ rfl
      cases hat
      exact hisLeaf hleaf
  | _ => exact IsLeaf.mem_leaves_iff rfl

theorem Ordered.mem_leavesOfFields_iff (h : (Json.obj fields).Ordered) :
    (place, leaf) ∈ leavesOfFields path fields ↔
      ∃ names ≠ [], (Json.obj fields).LeafAt path names place leaf :=
  mem_leavesOfFields_iff_of h.sorted fun e he path => (h.values e he).mem_leaves_iff path

end Json

/-- No name that leads through the objects of a view holds a dot. -/
def Plain (view : Entries Json) : Prop :=
  ∀ names, ((Json.obj view).at? names).isSome → ∀ name ∈ names, '.' ∉ name.toList

section Flatten

variable {space : String} {view : Entries Json}

theorem exists_of_get?_flatten (h : (Json.obj view).Ordered) {path : String} {leaf : Json}
    (hget : (flatten space view).get? path = some leaf) :
    ∃ names ≠ [], (Json.obj view).LeafAt space names path leaf :=
  h.mem_leavesOfFields_iff.mp (Entries.mem_of_get?_ofList hget)

theorem isLeaf_of_get?_flatten (h : (Json.obj view).Ordered) {path : String} {leaf : Json}
    (hget : (flatten space view).get? path = some leaf) : leaf.IsLeaf := by
  obtain ⟨_, -, -, hleaf, -⟩ := exists_of_get?_flatten h hget
  exact hleaf

/-- The leaves of a plain view are found by their names. -/
theorem get?_flatten_eq_some_iff (h : (Json.obj view).Ordered) (hplain : Plain view)
    {rest : String} {leaf : Json} :
    (flatten space view).get? (FieldPath.join space rest).text = some leaf ↔
      (Json.obj view).at? (FieldPath.segments rest) = some leaf ∧ leaf.IsLeaf := by
  -- The path of a leaf determines its names.
  have hnames : ∀ leaf, ((FieldPath.join space rest).text, leaf) ∈ Json.leavesOfFields space view ↔
      (Json.obj view).at? (FieldPath.segments rest) = some leaf ∧ leaf.IsLeaf := by
    intro leaf
    rw [h.mem_leavesOfFields_iff]
    constructor
    · rintro ⟨names, hne, hat, hleaf, hpath⟩
      obtain ⟨other, hextend, hsegments⟩ := FieldPath.exists_join_eq_extend space hne
        (hplain names (Option.isSome_of_eq_some hat))
      have hrest : rest = other := FieldPath.join_injective space
        (congrArg FieldPath.mk (hpath.trans hextend))
      rw [hrest, hsegments]
      exact ⟨hat, hleaf⟩
    · rintro ⟨hat, hleaf⟩
      exact ⟨_, FieldPath.segments_ne_nil rest, hat, hleaf,
        (FieldPath.extend_segments space rest).symm⟩
  refine Iff.trans (Entries.get?_ofList_eq_some_iff fun v v' hv hv' => ?_) (hnames leaf)
  exact Option.some.inj (((hnames v).mp hv).1.symm.trans ((hnames v').mp hv').1)

end Flatten

/-! ### Putting a view together -/

theorem ordered_plant {value : Json} (hvalue : value.Ordered) (names : List String)
    {view : Entries Json} (h : (Json.obj view).Ordered) :
    (Json.obj (plant value names view)).Ordered := by
  induction names generalizing view with
  | nil => exact h
  | cons name names ih =>
    rcases eq_or_ne names [] with rfl | hnames
    · exact h.insert hvalue name
    · rw [plant_cons value name hnames]
      refine h.insert (ih ?_) name
      rw [innerFields]
      cases hinner : view.get? name with
      | none => exact .empty
      | some inner =>
        have hordered := h.get? hinner
        cases inner with
        | obj fields => exact hordered
        | _ => exact .empty

theorem ordered_grow {branches : Branches} (h : ∀ branch ∈ branches, branch.2.Ordered) :
    (Json.obj (grow branches)).Ordered := by
  induction branches using List.reverseRecOn with
  | nil => exact .empty
  | append_singleton branches branch ih =>
    obtain ⟨hfirst, hlast⟩ := List.forall_mem_append.mp h
    rw [grow_concat]
    exact ordered_plant (hlast branch (List.mem_singleton_self branch)) _ (ih hfirst)

theorem ordered_unflatten (space : String) {leaves : Table Json}
    (h : ∀ e ∈ leaves.entries, e.2.Ordered) : (Json.obj (unflatten space leaves)).Ordered := by
  rw [unflatten_eq_grow]
  refine ordered_grow fun branch hbranch => ?_
  obtain ⟨rest, -, hmem⟩ := mem_branches_iff.mp hbranch
  exact h _ hmem

section Leaves

variable {space : String} {leaves : Table Json}
  (hleaves : ∀ path leaf, leaves.get? path = some leaf → leaf.IsLeaf) {names : List String}
include hleaves

/-- Whatever is found in a view that has been put together stands above or at a leaf. -/
theorem exists_prefix_of_isSome_at?_unflatten (hnames : names ≠ [])
    (hsome : ((Json.obj (unflatten space leaves)).at? names).isSome) :
    ∃ rest leaf, leaves.get? (FieldPath.join space rest).text = some leaf ∧
      names <+: FieldPath.segments rest := by
  obtain ⟨rest, leaf, hget, hplace⟩ := exists_get?_of_isSome_at?_unflatten hnames hsome
  refine ⟨rest, leaf, hget, hplace.elim id ?_⟩
  rintro ⟨inside, rfl, hinside⟩
  rcases eq_or_ne inside [] with rfl | hne
  · rw [List.append_nil]
  · rw [(hleaves _ leaf hget).at?_eq_none hne] at hinside
    cases hinside

theorem plain_unflatten : Plain (unflatten space leaves) := by
  intro names hsome name hname
  obtain ⟨rest, _, -, hbegins⟩ :=
    exists_prefix_of_isSome_at?_unflatten hleaves (List.ne_nil_of_mem hname) hsome
  exact FieldPath.notMem_of_mem_segments (hbegins.subset hname)

end Leaves

section RoundTrip

variable {space : String} {view : Entries Json} (h : (Json.obj view).Ordered)
include h

theorem ordered_unflatten_flatten :
    (Json.obj (unflatten space (flatten space view))).Ordered := by
  refine ordered_unflatten space fun e he => ?_
  obtain ⟨names, -, hat, -⟩ := exists_of_get?_flatten h
    ((get?_eq_some_iff_mem (flatten space view) e.1 e.2).mpr he)
  exact h.at? hat

/-- A view that has been put together is plain. -/
theorem plain_unflatten_flatten (space : String) : Plain (unflatten space (flatten space view)) :=
  plain_unflatten fun _ _ => isLeaf_of_get?_flatten h

/-- A leaf of a plain view is found when the view has been put together. -/
theorem at?_unflatten_flatten_of_at? (space : String) (hplain : Plain view)
    {names : List String} {leaf : Json}
    (hat : (Json.obj view).at? names = some leaf) (hleaf : leaf.IsLeaf) :
    (Json.obj (unflatten space (flatten space view))).at? names = some leaf := by
  rcases eq_or_ne names [] with rfl | hnames
  · cases hat
    cases hleaf
    rfl
  · obtain ⟨rest, -, rfl⟩ := FieldPath.exists_join_eq_extend space hnames
      (hplain names (Option.isSome_of_eq_some hat))
    refine at?_unflatten ((get?_flatten_eq_some_iff h hplain).mpr ⟨hat, hleaf⟩) fun more => ?_
    refine Option.eq_none_iff_forall_ne_some.mpr fun other hother => ?_
    -- No other leaf stands below a leaf.
    obtain ⟨inside, hne, hinside⟩ := FieldPath.exists_segments_eq_append rest more
    have hbelow := ((get?_flatten_eq_some_iff h hplain).mp hother).1
    rw [hinside, Json.at?_append, hat] at hbelow
    exact absurd (hleaf.at?_eq_none hne ▸ hbelow) (Option.some_ne_none other).symm

/-- Behind whatever is found when a plain view has been put together, a leaf of the view stands. -/
theorem exists_leaf_of_isSome_at? (hplain : Plain view) {names : List String}
    (hsome : ((Json.obj (unflatten space (flatten space view))).at? names).isSome) :
    ∃ more leaf, (Json.obj view).at? (names ++ more) = some leaf ∧ leaf.IsLeaf := by
  rcases eq_or_ne names [] with rfl | hnames
  · exact h.exists_leaf
  · obtain ⟨rest, leaf, hget, more, hmore⟩ :=
      exists_prefix_of_isSome_at?_unflatten (fun _ _ => isLeaf_of_get?_flatten h) hnames hsome
    exact ⟨more, leaf, hmore ▸ (get?_flatten_eq_some_iff h hplain).mp hget⟩

/-- A view comes back as it was exactly if it is plain. -/
theorem unflatten_flatten_eq_iff (space : String) :
    unflatten space (flatten space view) = view ↔ Plain view := by
  constructor
  · intro heq
    rw [← heq]
    exact plain_unflatten_flatten h space
  · intro hplain
    refine Json.obj.inj (Json.ext_of_leaves (ordered_unflatten_flatten h) h
      fun names leaf hleaf => ⟨fun hat => ?_, fun hat => ?_⟩)
    · obtain ⟨more, other, hother, hisLeaf⟩ :=
        exists_leaf_of_isSome_at? h hplain (Option.isSome_of_eq_some hat)
      have hfound := at?_unflatten_flatten_of_at? h space hplain hother hisLeaf
      rw [Json.at?_append, hat] at hfound
      rcases eq_or_ne more [] with rfl | hmore
      · rw [List.append_nil] at hother
        rw [hother, ← hfound]
        rfl
      · exact absurd (hleaf.at?_eq_none hmore ▸ hfound) (Option.some_ne_none other).symm
    · exact at?_unflatten_flatten_of_at? h space hplain hat hleaf

end RoundTrip

/-! ### Leaves that are found -/

/-- A leaf that is found in a view that has grown is one of those by which it grew, or lies inside
of one. -/
theorem exists_mem_of_at?_grow {branches : Branches} {names : List String} {leaf : Json}
    (hbranches : ∀ branch ∈ branches, branch.1 ≠ []) (hnames : names ≠ [])
    (h : (Json.obj (grow branches)).at? names = some leaf) (hleaf : leaf.IsLeaf) :
    ∃ branch ∈ branches, ∃ inside, names = branch.1 ++ inside ∧
      branch.2.at? inside = some leaf := by
  induction branches using List.reverseRecOn with
  | nil =>
    cases names with
    | nil => exact absurd rfl hnames
    | cons name names => cases h
  | append_singleton branches branch ih =>
    obtain ⟨hfirst, hlast⟩ := List.forall_mem_append.mp hbranches
    have hbranch := hlast branch (List.mem_singleton_self branch)
    rw [grow_concat] at h
    by_cases hbelow : branch.1 <+: names
    · obtain ⟨inside, rfl⟩ := hbelow
      rw [at?_plant_append _ hbranch] at h
      exact ⟨branch, List.mem_append_right _ (List.mem_singleton_self branch), inside, rfl, h⟩
    · by_cases habove : names <+: branch.1
      · -- Something would stand behind the leaf.
        obtain ⟨more, hmore⟩ := habove
        have hfound := at?_plant_append branch.2 hbranch [] (grow branches)
        rw [List.append_nil, ← hmore, Json.at?_append, hmore, h] at hfound
        have hne : more ≠ [] := fun hnil => hbelow (by rw [← hmore, hnil, List.append_nil])
        rw [Option.bind_some, hleaf.at?_eq_none hne] at hfound
        cases hfound
      · rw [at?_plant_of_apart branch.2 ⟨hbelow, habove⟩] at h
        obtain ⟨found, hfound, hplace⟩ := ih hfirst h
        exact ⟨found, List.mem_append_left _ hfound, hplace⟩

/-- A leaf that is found under a name of its own is a leaf with this name. -/
theorem get?_of_get?_unflatten {space name : String} {leaves : Table Json} {leaf : Json}
    (hname : '.' ∉ name.toList) (h : (unflatten space leaves).get? name = some leaf)
    (hleaf : leaf.IsLeaf) : leaves.get? (FieldPath.join space name).text = some leaf := by
  rw [unflatten_eq_grow] at h
  have hat : (Json.obj (grow (branches space leaves.entries))).at? [name] = some leaf := by
    rw [Json.at?_cons, Json.fields, h]
    rfl
  obtain ⟨branch, hbranch, inside, hnames, hvalue⟩ :=
    exists_mem_of_at?_grow (fun _ => ne_nil_of_mem_branches) (List.cons_ne_nil name []) hat hleaf
  obtain ⟨rest, hrest, hmem⟩ := mem_branches_iff.mp hbranch
  have hinside : inside = [] ∧ branch.1 = [name] := by
    rcases List.singleton_eq_append_iff.mp hnames with ⟨hnil, -⟩ | ⟨hone, hnil⟩
    · exact absurd hnil (ne_nil_of_mem_branches hbranch)
    · exact ⟨hnil, hone⟩
  obtain ⟨rfl, hone⟩ := hinside
  obtain rfl : rest = name := FieldPath.segments_injective
    (by rw [← hrest, hone, FieldPath.segments_of_notMem hname])
  rw [(get?_eq_some_iff_mem leaves _ _).mpr hmem, ← hvalue]
  rfl

/-- A leaf that is found under a name of a resolved view is the value of this field. -/
theorem Resolver.fieldValue?_of_get?_view {resolver : Resolver} {space name : String}
    {view : Entries Json} {scope : ObjectScope} {leaf : Json} (hname : '.' ∉ name.toList)
    (h : (resolver.view space view scope).1.get? name = some leaf) (hleaf : leaf.IsLeaf) :
    resolver.fieldValue? space view scope name = some leaf := by
  rw [view_fst] at h
  rw [← get?_leaves_join]
  exact get?_of_get?_unflatten hname h hleaf

/-! ### Views without overrides -/

namespace Resolver

variable {resolver : Resolver} (h : resolver.overrides = .empty)
include h

theorem binding?_of_overrides_empty (field : FieldPath) (scope : ObjectScope) :
    resolver.binding? field scope = none := by
  rw [binding?, h]
  cases scope <;> rfl

/-- Without overrides a field has the value that the node holds. -/
theorem resolve?_of_overrides_empty (defaults : Table Json) (field : FieldPath)
    (scope : ObjectScope) :
    resolver.resolve? defaults field scope =
      (defaults.get? field.text).map fun value => ⟨value, .default⟩ := by
  have hslot : ∀ slot, (scope.chain.findSome? fun s =>
      resolver.overrides.slot? field s slot) = none := by
    intro slot
    rw [h]
    cases scope <;> rfl
  have hlayer : ∀ layer ≠ .default, resolver.layerValue? defaults field scope layer = none := by
    intro layer hne
    cases layer with
    | binding =>
      rw [layerValue?, binding?_of_overrides_empty h]
      rfl
    | batchKey =>
      rw [layerValue?]
      simp only [hslot]
      cases resolver.slot? <;> rfl
    | batchDefault => exact hslot defaultKey
    | manual =>
      rw [layerValue?, h]
      cases scope <;> rfl
    | default => exact absurd rfl hne
  simp only [resolve?, Layer.all, List.findSome?_cons, List.findSome?_nil,
    hlayer .binding (by decide), hlayer .batchKey (by decide), hlayer .batchDefault (by decide),
    hlayer .manual (by decide), Option.map_none]
  cases hvalue : resolver.layerValue? defaults field scope .default <;>
    simp only [layerValue?] at hvalue <;> simp [hvalue]

theorem leaves_of_overrides_empty (space : String) (defaults : Table Json)
    (scope : ObjectScope) : resolver.leaves space defaults scope = defaults := by
  refine Table.ext_get? fun path => ?_
  rw [get?_leaves, resolve?_of_overrides_empty h]
  split
  · cases defaults.get? path <;> rfl
  · rename_i hplace
    rw [not_or] at hplace
    exact ((Entries.get?_eq_none_iff path).mpr hplace.1).symm

/-- Without overrides a view is taken apart and put together, and no binding is passed over. -/
theorem view_of_overrides_empty (space : String) (view : Entries Json) (scope : ObjectScope) :
    resolver.view space view scope = (unflatten space (flatten space view), []) := by
  have hstale : (resolver.view space view scope).2 = [] := by
    refine List.filterMap_eq_nil_iff.mpr fun field _ => ?_
    rw [stale?, binding?_of_overrides_empty h]
    rfl
  refine Prod.ext ?_ hstale
  rw [view_fst, leaves_of_overrides_empty h]

end Resolver

end SceneFlow
