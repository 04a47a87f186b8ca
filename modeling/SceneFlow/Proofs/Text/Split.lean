import Mathlib
import SceneFlow.Text.Split

/-!
# Splitting and joining texts

Splitting a text at a separator and joining parts with it undo each other, unless a part holds the
separator itself. So one text has some first parts of another exactly if it is the other text or
ends there before a separator.

## Main results

* `Text.split_eq_splitOn`: the parts are those of the library's `List.splitOn`.
* `Text.split_prefix_iff`: when one text has the first parts of another.
-/

namespace SceneFlow.Text

variable {separator : Char}

theorem split_eq_splitOn (separator : Char) (cs : List Char) :
    split separator cs = cs.splitOn separator := by
  induction cs with
  | nil => rfl
  | cons c rest ih =>
    rw [split, ih, List.splitOn_cons_eq_if_modifyHead]
    cases hparts : rest.splitOn separator with
    | nil => exact absurd hparts (List.splitOn_ne_nil separator rest)
    | cons part parts => simp only [beq_iff_eq, List.modifyHead_cons]

/-- No part holds the separator. -/
theorem notMem_of_mem_split {cs part : List Char} (h : part ∈ split separator cs) :
    separator ∉ part := by
  induction cs generalizing part with
  | nil => simp_all [split]
  | cons c rest ih =>
    rw [split] at h
    cases hparts : split separator rest with
    | nil => exact absurd hparts (split_ne_nil separator rest)
    | cons first parts =>
      have hfirst : separator ∉ first := ih (hparts ▸ List.mem_cons_self)
      have hrest : ∀ p ∈ parts, separator ∉ p := fun p hp =>
        ih (hparts ▸ List.mem_cons_of_mem _ hp)
      rw [hparts] at h
      dsimp only at h
      split at h
      · rcases List.mem_cons.mp h with rfl | h
        · exact List.not_mem_nil
        · exact ih (hparts ▸ h)
      · rename_i hc
        rcases List.mem_cons.mp h with rfl | h
        · rw [List.mem_cons, not_or]
          exact ⟨Ne.symm hc, hfirst⟩
        · exact hrest part h

theorem splitOn_injective : Function.Injective (List.splitOn separator) :=
  Function.LeftInverse.injective fun _ => List.intercalate_splitOn separator

/-- A part without separators behind a text is its last part. -/
theorem splitOn_append_cons (cs : List Char) {last : List Char} (h : separator ∉ last) :
    (cs ++ separator :: last).splitOn separator = cs.splitOn separator ++ [last] := by
  rw [List.splitOn_append_cons_self, List.splitOn_eq_singleton h]

/-- One text has the first parts of another exactly if it is the other text or ends in it before a
separator. -/
theorem split_prefix_iff {cs ds : List Char} :
    split separator cs <+: split separator ds ↔ ds = cs ∨ ∃ more, ds = cs ++ separator :: more := by
  simp only [split_eq_splitOn]
  constructor
  · rintro ⟨parts, hparts⟩
    rcases eq_or_ne parts [] with rfl | hne
    · rw [List.append_nil] at hparts
      exact .inl (splitOn_injective hparts.symm)
    · -- What stands behind the separator are the other parts, joined.
      have hfree : ∀ part ∈ parts, separator ∉ part := fun part hpart => by
        have hmem : part ∈ split separator ds := by
          rw [split_eq_splitOn, ← hparts]
          exact List.mem_append_right _ hpart
        exact notMem_of_mem_split hmem
      refine .inr ⟨[separator].intercalate parts, @splitOn_injective separator _ _ ?_⟩
      rw [List.splitOn_append_cons_self, List.splitOn_intercalate separator hfree hne, hparts]
  · rintro (rfl | ⟨more, rfl⟩)
    · exact List.prefix_rfl
    · rw [List.splitOn_append_cons_self]
      exact List.prefix_append _ _

end SceneFlow.Text
