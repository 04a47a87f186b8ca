import SceneFlow.Proofs.Motion.Latest

/-!
# The order of doubles that are no NaN

Doubles that are no NaN are ordered like the parts that they are made of: by the sign first, then by
the exponent and the mantissa. So comparing them is transitive, and so is not being less; the two
zeros are alike. It follows that of some times the latest and the earliest do not depend on how they
are taken two by two, as long as they keep their order.

## Main definitions

* `rank`: the place of a number among all numbers.

## Main results

* `float_lt_iff_rank`: doubles are ordered like their ranks.
* `later_assoc`, `earliest?_assoc`: times are compared two by two in any grouping.
* `isGreatest_insert_later`, `isLeast_insert_earlier`: the latest and the earliest of one time more.
-/

namespace SceneFlow

open Float.Model Float.Model.UnpackedFloat

/-- The place of a number among all numbers; what is no number is taken for zero. -/
def rank : UnpackedFloat → ℤ ×ₗ ℤ ×ₗ ℤ
  | .notANumber | .zero _ => toLex (0, toLex (0, 0))
  | .infinity sign => toLex (sign.apply 2, toLex (0, 0))
  | .finite sign mantissa exponent _ =>
    toLex (sign.apply 1, toLex (sign.apply exponent, sign.apply mantissa))

/-- Of two numbers the one of the lower rank is less. -/
theorem compare_eq_lt_iff {u v : UnpackedFloat} (hu : u.isNaN = false) (hv : v.isNaN = false) :
    UnpackedFloat.compare u v = some .lt ↔ rank u < rank v := by
  have hsign : compare Sign.negative Sign.positive = .lt := rfl
  cases u with
  | notANumber => cases hu
  | infinity sign =>
    cases v with
    | notANumber => cases hv
    | infinity sign' | finite sign' _ _ _ =>
      cases sign <;> cases sign' <;>
        simp [UnpackedFloat.compare, rank, Sign.apply, Prod.Lex.toLex_lt_toLex, hsign]
    | zero _ =>
      cases sign <;> simp [UnpackedFloat.compare, rank, Sign.apply, Prod.Lex.toLex_lt_toLex]
  | zero _ =>
    cases v with
    | notANumber => cases hv
    | infinity sign' | finite sign' _ _ _ =>
      cases sign' <;> simp [UnpackedFloat.compare, rank, Sign.apply, Prod.Lex.toLex_lt_toLex]
    | zero _ => simp [UnpackedFloat.compare, rank]
  | finite sign m e _ =>
    cases v with
    | notANumber => cases hv
    | infinity sign' =>
      cases sign <;> cases sign' <;>
        simp [UnpackedFloat.compare, rank, Sign.apply, Prod.Lex.toLex_lt_toLex]
    | zero _ =>
      cases sign <;> simp [UnpackedFloat.compare, rank, Sign.apply, Prod.Lex.toLex_lt_toLex]
    | finite sign' m' e' _ =>
      cases sign <;> cases sign' <;>
        simp [UnpackedFloat.compare, rank, Sign.apply, Prod.Lex.toLex_lt_toLex,
          Ordering.then_eq_lt, Ordering.swap_then, Std.compare_eq_lt, ← Std.OrientedCmp.eq_swap]
      -- Between negative numbers the exponents are equal the other way round.
      exact or_congr_right (and_congr_left' eq_comm)

/-! ### Doubles -/

section Doubles

variable {x y z : Float}

/-- Doubles that are no NaN are ordered like their ranks. -/
theorem float_lt_iff_rank (hx : x.isNaN = false) (hy : y.isNaN = false) :
    x < y ↔ rank x.toModel.unpack < rank y.toModel.unpack :=
  (float_lt_iff x y).trans (compare_eq_lt_iff hx hy)

theorem float_le_iff_rank (hx : x.isNaN = false) (hy : y.isNaN = false) :
    x ≤ y ↔ rank x.toModel.unpack ≤ rank y.toModel.unpack := by
  rw [← not_lt, ← float_lt_iff_rank hy hx]
  refine ⟨fun hle hlt => ?_, le_of_not_lt_of_isNaN hx hy⟩
  obtain ⟨order, horder, hle⟩ := (float_le_iff x y).mp hle
  rw [float_lt_iff, compare_swap, horder] at hlt
  cases order <;> simp at hlt hle

theorem float_le_refl (hx : x.isNaN = false) : x ≤ x :=
  (float_le_iff_rank hx hx).mpr le_rfl

theorem float_le_trans (hx : x.isNaN = false) (hy : y.isNaN = false) (hz : z.isNaN = false)
    (hxy : x ≤ y) (hyz : y ≤ z) : x ≤ z := by
  rw [float_le_iff_rank hx hy] at hxy
  rw [float_le_iff_rank hy hz] at hyz
  exact (float_le_iff_rank hx hz).mpr (hxy.trans hyz)

theorem float_le_of_lt (hx : x.isNaN = false) (hy : y.isNaN = false) (h : x < y) : x ≤ y :=
  (float_le_iff_rank hx hy).mpr ((float_lt_iff_rank hx hy).mp h).le

/-! ### The later and the earlier of two times -/

theorem isNaN_later (hx : x.isNaN = false) (hy : y.isNaN = false) : (later x y).isNaN = false := by
  rw [later]
  split
  · exact hy
  · exact hx

theorem isNaN_earlier (hx : x.isNaN = false) (hy : y.isNaN = false) :
    (earlier x y).isNaN = false := by
  rw [earlier]
  split
  · exact hy
  · exact hx

theorem isSome_earliest? (x y : Option Float) :
    (earliest? x y).isSome = (x.isSome || y.isSome) := by
  cases x <;> cases y <;> rfl

theorem isNaN_earliest? {x y : Option Float} (hx : ∀ a ∈ x, a.isNaN = false)
    (hy : ∀ a ∈ y, a.isNaN = false) : ∀ a ∈ earliest? x y, a.isNaN = false := by
  match x, y with
  | none, _ => exact hy
  | some _, none => exact hx
  | some a, some b =>
    intro time htime
    obtain rfl : earlier a b = time := Option.mem_some.mp htime
    exact isNaN_earlier (hx a rfl) (hy b rfl)

/-- Which of two times is later is the same in any grouping. -/
theorem later_assoc (hx : x.isNaN = false) (hy : y.isNaN = false) (hz : z.isNaN = false) :
    later (later x y) z = later x (later y z) := by
  simp only [later, apply_ite (x < ·), apply_ite (· < z), float_lt_iff_rank hx hy,
    float_lt_iff_rank hy hz, float_lt_iff_rank hx hz]
  grind

theorem earlier_assoc (hx : x.isNaN = false) (hy : y.isNaN = false) (hz : z.isNaN = false) :
    earlier (earlier x y) z = earlier x (earlier y z) := by
  simp only [earlier, apply_ite (· < x), apply_ite (z < ·), float_lt_iff_rank hy hx,
    float_lt_iff_rank hz hy, float_lt_iff_rank hz hx]
  grind

theorem earliest?_assoc {x y z : Option Float} (hx : ∀ a ∈ x, a.isNaN = false)
    (hy : ∀ a ∈ y, a.isNaN = false) (hz : ∀ a ∈ z, a.isNaN = false) :
    earliest? (earliest? x y) z = earliest? x (earliest? y z) := by
  match x, y, z with
  | none, _, _ => rfl
  | some _, none, none | some _, none, some _ | some _, some _, none => rfl
  | some a, some b, some c =>
    exact congrArg some (earlier_assoc (hx a rfl) (hy b rfl) (hz c rfl))

theorem isGreatest_float_singleton (hx : x.isNaN = false) : IsGreatest {x} x := by
  refine ⟨Set.mem_singleton x, fun time htime => ?_⟩
  rw [Set.mem_singleton_iff.mp htime]
  exact float_le_refl hx

theorem isLeast_float_singleton (hx : x.isNaN = false) : IsLeast {x} x := by
  refine ⟨Set.mem_singleton x, fun time htime => ?_⟩
  rw [Set.mem_singleton_iff.mp htime]
  exact float_le_refl hx

/-- The later of the latest time and one more is the latest of all. -/
theorem isGreatest_insert_later {times : Set Float} (h : IsGreatest times x)
    (htimes : ∀ time ∈ times, time.isNaN = false) (hy : y.isNaN = false) :
    IsGreatest (insert y times) (later x y) := by
  have hx := htimes x h.1
  rw [later]
  split
  · rename_i hlt
    refine ⟨Set.mem_insert y times, fun time htime => ?_⟩
    rcases Set.mem_insert_iff.mp htime with rfl | htime
    · exact float_le_refl hy
    · exact float_le_trans (htimes time htime) hx hy (h.2 htime) (float_le_of_lt hx hy hlt)
  · rename_i hnot
    refine ⟨Set.mem_insert_of_mem y h.1, fun time htime => ?_⟩
    rcases Set.mem_insert_iff.mp htime with rfl | htime
    · exact le_of_not_lt_of_isNaN hy hx hnot
    · exact h.2 htime

/-- The earlier of the earliest time and one more is the earliest of all. -/
theorem isLeast_insert_earlier {times : Set Float} (h : IsLeast times x)
    (htimes : ∀ time ∈ times, time.isNaN = false) (hy : y.isNaN = false) :
    IsLeast (insert y times) (earlier x y) := by
  have hx := htimes x h.1
  rw [earlier]
  split
  · rename_i hlt
    refine ⟨Set.mem_insert y times, fun time htime => ?_⟩
    rcases Set.mem_insert_iff.mp htime with rfl | htime
    · exact float_le_refl hy
    · exact float_le_trans hy hx (htimes time htime) (float_le_of_lt hy hx hlt) (h.2 htime)
  · rename_i hnot
    refine ⟨Set.mem_insert_of_mem y h.1, fun time htime => ?_⟩
    rcases Set.mem_insert_iff.mp htime with rfl | htime
    · exact le_of_not_lt_of_isNaN hx hy hnot
    · exact h.2 htime

end Doubles

end SceneFlow
