import Mathlib
import SceneFlow.Proofs.Motion.Range

/-!
# The latest of some times

Which of two times is later is decided by one comparison. It does not hold where one of the two is a
NaN; between other doubles it is a strict order, for which the two zeros are the same. So the latest
of a span and of some times, as it is found by going through them, is the greatest of them, in
whatever order they come.

## Main results

* `le_of_not_lt_of_isNaN`: of two doubles that are no NaN one is at most the other.
* `isGreatest_later`: the latest of some times is the greatest of them.
-/

namespace SceneFlow

open Float.Model Float.Model.UnpackedFloat

/-! ### The order of doubles -/

/-- Two numbers compare the other way round when they change places. -/
theorem compare_swap (u v : UnpackedFloat) :
    UnpackedFloat.compare v u = (UnpackedFloat.compare u v).map Ordering.swap := by
  have hparts : ∀ (e e' : ℤ) (m m' : ℕ), (compare e' e).then (compare m' m) =
      ((compare e e').then (compare m m')).swap := fun e e' m m' => by
    rw [Ordering.swap_then, ← Std.OrientedCmp.eq_swap, ← Std.OrientedCmp.eq_swap]
  cases u with
  | notANumber => cases v <;> rfl
  | infinity sign =>
    cases v with
    | infinity sign' => cases sign <;> cases sign' <;> rfl
    | _ => cases sign <;> rfl
  | zero sign =>
    cases v with
    | infinity sign' | finite sign' _ _ _ => cases sign' <;> rfl
    | _ => rfl
  | finite sign m e _ =>
    cases v with
    | notANumber => rfl
    | infinity sign' => cases sign' <;> rfl
    | zero _ => cases sign <;> rfl
    | finite sign' m' e' _ =>
      cases sign <;> cases sign' <;>
        simp only [UnpackedFloat.compare, Option.map_some, hparts e e' m m', Ordering.swap_swap,
          Ordering.swap_lt, Ordering.swap_gt]

/-- Numbers that are no NaN can be compared. -/
theorem exists_compare_eq {u v : UnpackedFloat} (hu : u.isNaN = false) (hv : v.isNaN = false) :
    ∃ order, UnpackedFloat.compare u v = some order := by
  cases u with
  | notANumber => cases hu
  | infinity sign | finite sign _ _ _ =>
    cases v with
    | notANumber => cases hv
    | infinity sign' | finite sign' _ _ _ => cases sign <;> cases sign' <;> exact ⟨_, rfl⟩
    | zero _ => cases sign <;> exact ⟨_, rfl⟩
  | zero _ =>
    cases v with
    | notANumber => cases hv
    | infinity sign | finite sign _ _ _ => cases sign <;> exact ⟨_, rfl⟩
    | zero _ => exact ⟨_, rfl⟩

section Order

variable {x y : Float}

theorem float_le_iff (x y : Float) : x ≤ y ↔
    ∃ order, UnpackedFloat.compare x.toModel.unpack y.toModel.unpack = some order ∧
      order.isLE = true := by
  change decide (UnpackedFloat.le _ _ = true) = true ↔ _
  rw [decide_eq_true_iff, UnpackedFloat.le, Option.any_eq_true]

theorem not_lt_of_lt (h : x < y) : ¬ y < x := by
  rw [float_lt_iff] at h ⊢
  rw [compare_swap, h]
  simp

theorem isNaN_of_isFinite (h : x.isFinite = true) : x.isNaN = false := by
  change UnpackedFloat.isFinite x.toModel.unpack = true at h
  change UnpackedFloat.isNaN x.toModel.unpack = false
  cases hx : x.toModel.unpack <;> simp [hx, UnpackedFloat.isFinite, UnpackedFloat.isNaN] at h ⊢

/-- Of two doubles that are no NaN one is at most the other. -/
theorem le_of_not_lt_of_isNaN (hx : x.isNaN = false) (hy : y.isNaN = false) (h : ¬ y < x) :
    x ≤ y := by
  obtain ⟨order, horder⟩ := exists_compare_eq hx hy
  rw [float_lt_iff, compare_swap, horder] at h
  refine (float_le_iff x y).mpr ⟨order, horder, ?_⟩
  cases order <;> simp at h ⊢

/-- A span is as late as a time: as itself, or as zero. -/
theorem IsSpan.exists_isTime (h : IsSpan x) : ∃ time, IsTime time ∧ ∀ y, x < y ↔ time < y := by
  have hforward := (isSpan_iff x).mp h
  cases hx : x.toModel.unpack with
  | zero sign =>
    refine ⟨0, isTime_zero, fun y => ?_⟩
    rw [float_lt_iff, float_lt_iff, hx, unpack_zero]
    cases y.toModel.unpack with
    | notANumber | zero _ => rfl
    | infinity sign' | finite sign' _ _ _ => cases sign' <;> rfl
  | notANumber => exact absurd (hx ▸ trivial) hforward
  | infinity sign | finite sign _ _ _ =>
    refine ⟨x, (isTime_iff_forward x).mpr ?_, fun _ => Iff.rfl⟩
    rw [hx] at hforward ⊢
    cases sign with
    | positive => rfl
    | negative => exact absurd rfl hforward

end Order

/-! ### The latest time -/

section Latest

variable {x : Float} {times : List Float}

/-- What is found by going through some times is one of them, or what was there before. -/
theorem foldl_later_mem (x : Float) (times : List Float) : times.foldl later x ∈ x :: times := by
  induction times generalizing x with
  | nil => exact List.mem_cons_self
  | cons y rest ih =>
    rw [List.foldl_cons]
    rcases List.mem_cons.mp (ih (later x y)) with hfirst | hrest
    · rw [hfirst, later]
      split <;> simp
    · exact List.mem_cons_of_mem _ (List.mem_cons_of_mem _ hrest)

theorem timeRank_le_foldl_later (hx : IsTime x) :
    ∀ y ∈ x :: times, timeRank y ≤ timeRank (times.foldl later x) := by
  induction times generalizing x with
  | nil => exact fun y hy => (List.mem_singleton.mp hy ▸ le_refl _)
  | cons z rest ih =>
    intro y hy
    have hrest := ih (hx.later z)
    have hfirst := hrest _ List.mem_cons_self
    rw [hx.timeRank_later] at hfirst
    rw [List.foldl_cons]
    rcases List.mem_cons.mp hy with rfl | hy
    · omega
    · rcases List.mem_cons.mp hy with rfl | hy
      · omega
      · exact hrest y (List.mem_cons_of_mem _ hy)

/-- None of some times is later than the one that is found. -/
theorem not_foldl_later_lt (hx : IsTime x) {y : Float} (hy : y ∈ x :: times) :
    ¬ times.foldl later x < y := by
  intro hlt
  have hlatest := (timeRank_foldl_later hx times).1
  have hrank := timeRank_le_foldl_later hx y hy
  have htime := hlatest.of_lt hlt
  rw [hlatest.lt_iff htime] at hlt
  rw [timeRank, timeRank, if_pos htime, if_pos hlatest] at hrank
  omega

/-- The latest of a span and of some times that are no NaN is the greatest of them. -/
theorem isGreatest_later (hx : IsSpan x) (htimes : ∀ time ∈ times, time.isNaN = false) :
    IsGreatest {time | time = x ∨ time ∈ times} (later x (times.foldl later 0)) := by
  have hlatest := (timeRank_foldl_later isTime_zero times).1
  rw [later]
  split
  · rename_i hlt
    have hmem : times.foldl later 0 ∈ times := by
      refine (List.mem_cons.mp (foldl_later_mem 0 times)).resolve_left fun hzero => ?_
      exact hx.2 (hzero ▸ hlt)
    refine ⟨.inr hmem, fun time htime => ?_⟩
    rcases htime with rfl | htime
    · exact le_of_not_lt_of_isNaN hx.1 hlatest.isSpan.1 (not_lt_of_lt hlt)
    · exact le_of_not_lt_of_isNaN (htimes time htime) hlatest.isSpan.1
        (not_foldl_later_lt isTime_zero (List.mem_cons_of_mem _ htime))
  · rename_i hnot
    refine ⟨.inl rfl, fun time htime => ?_⟩
    rcases htime with rfl | htime
    · exact le_of_not_lt_of_isNaN hx.1 hx.1 fun hlt => not_lt_of_lt hlt hlt
    · refine le_of_not_lt_of_isNaN (htimes time htime) hx.1 fun hlt => hnot ?_
      -- What is later than the span is no later than the latest of the times.
      obtain ⟨first, hfirst, hspan⟩ := hx.exists_isTime
      rw [hspan] at hlt ⊢
      have hnone := not_foldl_later_lt isTime_zero (List.mem_cons_of_mem 0 htime)
      have hlater := hfirst.of_lt hlt
      rw [hfirst.lt_iff hlater] at hlt
      rw [hlatest.lt_iff hlater] at hnone
      rw [hfirst.lt_iff hlatest]
      omega

end Latest

end SceneFlow
