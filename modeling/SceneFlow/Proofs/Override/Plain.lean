import Mathlib
import SceneFlow.Proofs.Override.RoundTrip

/-!
# Views that are laid over others

The views that are resolved are made of properties with some settings laid over them, and these are
read off and taken out again afterwards. What is left is what there was without the settings,
exactly if none of its names holds a dot.

## Main results

* `plain_iff`: a view is plain if its names and the values under them are.
* `foldl_erase_unflatten_flatten_eq_iff`: what is left when a view comes back.
-/

namespace SceneFlow

variable {view upper : Entries Json}

/-- A view is plain exactly if no name in it holds a dot, and if the values are plain. -/
theorem plain_iff : Plain view ↔ ∀ name value, view.get? name = some value →
    '.' ∉ name.toList ∧ Plain value.fields := by
  constructor
  · intro h name value hget
    refine ⟨h [name] (by simp [Json.at?_cons, Json.fields, hget]) name
      (List.mem_singleton_self name), fun names hsome other hother => ?_⟩
    rw [Json.at?_obj_fields _ (List.ne_nil_of_mem hother)] at hsome
    refine h (name :: names) ?_ other (List.mem_cons_of_mem _ hother)
    rw [Json.at?_cons, Json.fields, hget]
    exact hsome
  · intro h names hsome name hname
    cases names with
    | nil => exact absurd hname List.not_mem_nil
    | cons first rest =>
      obtain ⟨value, hat⟩ := Option.isSome_iff_exists.mp hsome
      obtain ⟨inner, hget, hat⟩ := Option.bind_eq_some_iff.mp hat
      obtain ⟨hfirst, hinner⟩ := h first inner hget
      rcases List.mem_cons.mp hname with rfl | hname
      · exact hfirst
      · refine hinner rest ?_ name hname
        rw [Json.at?_obj_fields _ (List.ne_nil_of_mem hname), hat]
        rfl

/-- The names and the values are all that makes a view plain. -/
theorem plain_of_forall_mem (h : ∀ e ∈ view, '.' ∉ e.1.toList ∧ Plain e.2.fields) : Plain view :=
  plain_iff.mpr fun _ _ hget => h _ (Entries.mem_of_get? hget)

theorem plain_nil : Plain [] :=
  plain_of_forall_mem fun _ he => absurd he List.not_mem_nil

theorem Plain.foldl_erase (h : Plain view) (names : List String) :
    Plain (names.foldl Entries.erase view) := by
  rw [plain_iff] at h ⊢
  intro name value hget
  rw [Entries.get?_foldl_erase] at hget
  split at hget
  · cases hget
  · exact h name value hget

section Overlay

variable (hkeys : upper.keys.Nodup)
  (hupper : ∀ e ∈ upper, '.' ∉ e.1.toList ∧ Plain e.2.fields)
include hkeys hupper

/-- A plain view that is laid over another counts for nothing. -/
theorem plain_overlay_iff :
    Plain (view.overlay upper) ↔ Plain (upper.keys.foldl Entries.erase view) := by
  rw [plain_iff, plain_iff]
  refine forall₂_congr fun name value => ?_
  rw [Entries.get?_overlay hkeys, Entries.get?_foldl_erase]
  cases hname : upper.get? name with
  | none => rw [Option.none_or, if_neg ((Entries.get?_eq_none_iff name).mp hname)]
  | some found =>
    have hmem : name ∈ upper.keys :=
      (Entries.mem_keys_iff name).mpr (Option.isSome_of_eq_some hname)
    rw [if_pos hmem, Option.some_or]
    exact iff_of_true (fun h => Option.some.inj h ▸ hupper _ (Entries.mem_of_get? hname))
      fun h => by cases h

/-- When a view comes back with a plain view laid over it, and this is taken out again, the view is
left exactly if it is plain but for what the other covers. -/
theorem foldl_erase_unflatten_flatten_eq_iff (h : (Json.obj view).Ordered)
    (hvalues : ∀ e ∈ upper, e.2.Ordered) (space : String) :
    upper.keys.foldl Entries.erase (unflatten space (flatten space (view.overlay upper))) =
        upper.keys.foldl Entries.erase view ↔
      Plain (upper.keys.foldl Entries.erase view) := by
  have hordered := h.overlay hvalues
  constructor
  · intro heq
    rw [← heq]
    exact (plain_unflatten_flatten hordered space).foldl_erase _
  · intro hplain
    rw [(unflatten_flatten_eq_iff hordered space).mpr ((plain_overlay_iff hkeys hupper).mpr hplain),
      h.sorted.foldl_erase_overlay hkeys]

end Overlay

end SceneFlow
