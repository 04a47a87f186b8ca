import Mathlib
import SceneFlow.Motion.Ease

/-!
# Easing curves are progress

Over the rational numbers every easing curve leads from zero to one and never back. The curves that
are slow at the end are reflections of those that are slow at the start, and the curves that are
slow at both ends are put together from two halves of these. So two facts about the powers, and one
about each way of making a curve of another, are enough for all of them.

A track that takes no time is over when it starts.

## Main definitions

* `Ease.Leads`: a curve leads from zero to one and never back.
* `Ease.mirror`, `Ease.halves`: a curve that is reflected, and one that is halved and put together
  with its reflection.
* `Ease.reflected`: the easing whose curve is the reflection.

## Main results

* `Ease.leads_height`: every easing curve leads from zero to one.
* `Ease.apply_reflected`: which curves are reflections of each other.
* `Ease.progress_spec`: the progress of tracks.
-/

namespace SceneFlow.Ease

/-! ### Curves -/

/-- A curve leads from zero to one and never back. -/
structure Leads (f : ℚ → ℚ) : Prop where
  /-- It never leads back. -/
  monotoneOn : MonotoneOn f (Set.Icc 0 1)
  /-- It starts at zero. -/
  zero : f 0 = 0
  /-- It ends at one. -/
  one : f 1 = 1

/-- The reflection of a curve: its end is the start of the other. -/
def mirror (f : ℚ → ℚ) (t : ℚ) : ℚ :=
  1 - f (1 - t)

/-- A curve at half its size in the first half of the time, and its reflection in the second. -/
def halves (f : ℚ → ℚ) (t : ℚ) : ℚ :=
  if t < 1 / 2 then f (2 * t) / 2 else 1 - f (2 - 2 * t) / 2

namespace Leads

variable {f : ℚ → ℚ} {t : ℚ}

/-- Between zero and one a curve stays between zero and one. -/
theorem mem_Icc (h : Leads f) (ht : t ∈ Set.Icc (0 : ℚ) 1) : f t ∈ Set.Icc (0 : ℚ) 1 := by
  have hzero := h.monotoneOn (Set.left_mem_Icc.mpr zero_le_one) ht ht.1
  have hone := h.monotoneOn ht (Set.right_mem_Icc.mpr zero_le_one) ht.2
  rw [h.zero] at hzero
  rw [h.one] at hone
  exact ⟨hzero, hone⟩

theorem mirror (h : Leads f) : Leads (mirror f) where
  monotoneOn s hs t ht hle := by
    have hrest : ∀ u ∈ Set.Icc (0 : ℚ) 1, 1 - u ∈ Set.Icc (0 : ℚ) 1 := fun u hu =>
      ⟨sub_nonneg.mpr hu.2, sub_le_self 1 hu.1⟩
    exact sub_le_sub_left (h.monotoneOn (hrest t ht) (hrest s hs) (sub_le_sub_left hle 1)) 1
  zero := by rw [Ease.mirror, sub_zero, h.one, sub_self]
  one := by rw [Ease.mirror, sub_self, h.zero, sub_zero]

/-- The first half of the curve lies below one half, and the second above it. -/
theorem halves (h : Leads f) : Leads (halves f) where
  monotoneOn s hs t ht hle := by
    have hfirst : ∀ u ∈ Set.Icc (0 : ℚ) 1, u < 1 / 2 → 2 * u ∈ Set.Icc (0 : ℚ) 1 :=
      fun u hu hlt => ⟨by linarith [hu.1], by linarith⟩
    have hsecond : ∀ u ∈ Set.Icc (0 : ℚ) 1, ¬ u < 1 / 2 → 2 - 2 * u ∈ Set.Icc (0 : ℚ) 1 :=
      fun u hu hge => ⟨by linarith [hu.2], by linarith⟩
    rw [Ease.halves, Ease.halves]
    split
    · rename_i hs'
      split
      · rename_i ht'
        have := h.monotoneOn (hfirst s hs hs') (hfirst t ht ht') (by linarith)
        linarith
      · rename_i ht'
        linarith [(h.mem_Icc (hfirst s hs hs')).2, (h.mem_Icc (hsecond t ht ht')).2]
    · rename_i hs'
      have ht' : ¬ t < 1 / 2 := by linarith
      rw [if_neg ht']
      have := h.monotoneOn (hsecond t ht ht') (hsecond s hs hs') (by linarith)
      linarith
  zero := by rw [Ease.halves, if_pos one_half_pos, mul_zero, h.zero, zero_div]
  one := by
    rw [Ease.halves, if_neg (by norm_num)]
    norm_num [h.zero]

/-- The two halves are reflections of each other; in the middle both are one half. -/
theorem mirror_halves (h : Leads f) : Ease.mirror (Ease.halves f) = Ease.halves f := by
  funext t
  rw [Ease.mirror, Ease.halves, Ease.halves]
  rcases lt_trichotomy t (1 / 2) with hlt | rfl | hgt
  · rw [if_pos hlt, if_neg (by linarith)]
    ring_nf
  · norm_num [h.one]
  · rw [if_neg hgt.not_gt, if_pos (by linarith)]
    ring_nf

end Leads

/-! ### The curves of easings -/

theorem leads_linear : Leads linear.height where
  monotoneOn _ _ _ _ hle := hle
  zero := rfl
  one := rfl

theorem leads_inQuad : Leads inQuad.height where
  monotoneOn _ hs _ _ hle := mul_self_le_mul_self hs.1 hle
  zero := by norm_num [height]
  one := by norm_num [height]

theorem leads_inCubic : Leads inCubic.height where
  monotoneOn s hs t ht hle :=
    mul_le_mul (mul_self_le_mul_self hs.1 hle) hle hs.1 (mul_self_nonneg t)
  zero := by norm_num [height]
  one := by norm_num [height]

theorem height_outQuad : outQuad.height = mirror inQuad.height :=
  rfl

theorem height_outCubic : outCubic.height = mirror inCubic.height := by
  funext t
  simp only [height, mirror]
  ring

theorem height_inOutQuad : inOutQuad.height = halves inQuad.height := by
  funext t
  simp only [height, halves]
  split <;> ring

theorem height_inOutCubic : inOutCubic.height = halves inCubic.height := by
  funext t
  simp only [height, halves]
  split <;> ring

/-- Every easing curve leads from zero to one and never back. -/
theorem leads_height (ease : Ease) : Leads ease.height := by
  cases ease with
  | linear => exact leads_linear
  | inQuad => exact leads_inQuad
  | outQuad => exact height_outQuad ▸ leads_inQuad.mirror
  | inOutQuad => exact height_inOutQuad ▸ leads_inQuad.halves
  | inCubic => exact leads_inCubic
  | outCubic => exact height_outCubic ▸ leads_inCubic.mirror
  | inOutCubic => exact height_inOutCubic ▸ leads_inCubic.halves

/-- The easing whose curve is the reflection: what is slow at the start becomes slow at the end. -/
def reflected : Ease → Ease
  | inQuad => outQuad
  | outQuad => inQuad
  | inCubic => outCubic
  | outCubic => inCubic
  | linear => linear
  | inOutQuad => inOutQuad
  | inOutCubic => inOutCubic

theorem mirror_mirror (f : ℚ → ℚ) : mirror (mirror f) = f := by
  funext t
  simp only [mirror, sub_sub_cancel]

theorem height_reflected (ease : Ease) : ease.reflected.height = mirror ease.height := by
  cases ease with
  | linear =>
    funext t
    exact (sub_sub_cancel 1 t).symm
  | inQuad => exact height_outQuad
  | outQuad => rw [height_outQuad, mirror_mirror, reflected]
  | inOutQuad => rw [height_inOutQuad, leads_inQuad.mirror_halves, ← height_inOutQuad, reflected]
  | inCubic => exact height_outCubic
  | outCubic => rw [height_outCubic, mirror_mirror, reflected]
  | inOutCubic =>
    rw [height_inOutCubic, leads_inCubic.mirror_halves, ← height_inOutCubic, reflected]

/-! ### Progress -/

section Clamp

variable {s t : ℚ}

theorem clamp_eq (t : ℚ) : clamp t = max 0 (min 1 t) := by
  rw [clamp]
  split
  · rename_i hneg
    rw [max_eq_left ((min_le_right 1 t).trans hneg.le)]
  · rename_i hnonneg
    rw [max_eq_right (le_min zero_le_one (not_lt.mp hnonneg))]
    split
    · rename_i hgt
      rw [min_eq_left hgt.le]
    · rename_i hle
      rw [min_eq_right (not_lt.mp hle)]

theorem clamp_mem (t : ℚ) : clamp t ∈ Set.Icc (0 : ℚ) 1 := by
  rw [clamp_eq]
  exact ⟨le_max_left _ _, max_le zero_le_one (min_le_left _ _)⟩

theorem clamp_le_clamp (hle : s ≤ t) : clamp s ≤ clamp t := by
  rw [clamp_eq, clamp_eq]
  exact max_le_max_left 0 (min_le_min_left 1 hle)

theorem clamp_of_nonpos (ht : t ≤ 0) : clamp t = 0 := by
  rw [clamp_eq, max_eq_left ((min_le_right 1 t).trans ht)]

theorem clamp_of_one_le (ht : 1 ≤ t) : clamp t = 1 := by
  rw [clamp_eq, min_eq_left ht, max_eq_right zero_le_one]

theorem clamp_one_sub (t : ℚ) : clamp (1 - t) = 1 - clamp t := by
  rcases le_total t 0 with hneg | hnonneg
  · rw [clamp_of_nonpos hneg, clamp_of_one_le (by linarith), sub_zero]
  · rcases le_total 1 t with hbig | hsmall
    · rw [clamp_of_one_le hbig, clamp_of_nonpos (by linarith), sub_self]
    · rw [clamp_eq, clamp_eq, min_eq_right hsmall, max_eq_right hnonneg,
        min_eq_right (by linarith), max_eq_right (by linarith)]

end Clamp

section Apply

variable (ease : Ease) {t : ℚ}

theorem monotone_apply : Monotone (ease.apply : ℚ → ℚ) := fun s t hle =>
  (leads_height ease).monotoneOn (clamp_mem s) (clamp_mem t) (clamp_le_clamp hle)

theorem apply_mem_Icc (t : ℚ) : ease.apply t ∈ Set.Icc (0 : ℚ) 1 :=
  (leads_height ease).mem_Icc (clamp_mem t)

theorem apply_of_nonpos (ht : t ≤ 0) : ease.apply t = 0 := by
  rw [apply, clamp_of_nonpos ht, (leads_height ease).zero]

theorem apply_of_one_le (ht : 1 ≤ t) : ease.apply t = 1 := by
  rw [apply, clamp_of_one_le ht, (leads_height ease).one]

/-- The progress of the reflected curve is what the curve has still to go at the time that is
left. -/
theorem apply_reflected (t : ℚ) : ease.reflected.apply t = 1 - ease.apply (1 - t) := by
  rw [apply, apply, height_reflected, mirror, clamp_one_sub]

end Apply

section Progress

variable (ease : Ease) (start : ℚ) {duration time : ℚ}

theorem monotone_progress (hduration : 0 ≤ duration) :
    Monotone (ease.progress start duration) := by
  intro s t hle
  rw [progress, progress]
  split
  · split
    · rename_i hs
      rw [if_pos (hs.trans hle)]
    · split
      · exact zero_le_one
      · exact le_rfl
  · exact monotone_apply ease (div_le_div_of_nonneg_right (sub_le_sub_right hle start) hduration)

theorem progress_of_lt (hduration : 0 ≤ duration) (htime : time < start) :
    ease.progress start duration time = 0 := by
  rw [progress]
  split
  · rw [if_neg (not_le.mpr htime)]
  · exact apply_of_nonpos ease (div_nonpos_of_nonpos_of_nonneg (sub_neg.mpr htime).le hduration)

theorem progress_of_le (hduration : 0 ≤ duration) (htime : start + duration ≤ time) :
    ease.progress start duration time = 1 := by
  rw [progress]
  split
  · rw [if_pos ((le_add_of_nonneg_right hduration).trans htime)]
  · rename_i hpos
    refine apply_of_one_le ease ((one_le_div (not_le.mp hpos)).mpr ?_)
    linarith

end Progress

/-- Easing curves are progress, in exact arithmetic. Every curve goes on from zero to one and never
back, at any time; the curves that are slow at the end are reflections of those that are slow at
the start, and those that are slow at both ends are their own. So the progress of a track of any
duration from zero on never goes back, is zero before the start and one from the end on. -/
theorem progress_spec (ease : Ease) :
    (Monotone (ease.apply : ℚ → ℚ) ∧ (∀ t : ℚ, 0 ≤ ease.apply t ∧ ease.apply t ≤ 1) ∧
      (∀ t : ℚ, t ≤ 0 → ease.apply t = 0) ∧ ∀ t : ℚ, 1 ≤ t → ease.apply t = 1) ∧
    (∀ t : ℚ, ease.reflected.apply t = 1 - ease.apply (1 - t)) ∧
    ∀ start duration : ℚ, 0 ≤ duration →
      Monotone (ease.progress start duration) ∧
        (∀ time < start, ease.progress start duration time = 0) ∧
        ∀ time, start + duration ≤ time → ease.progress start duration time = 1 :=
  ⟨⟨monotone_apply ease, apply_mem_Icc ease, fun _ => apply_of_nonpos ease,
      fun _ => apply_of_one_le ease⟩,
    apply_reflected ease,
    fun start _ hduration => ⟨monotone_progress ease start hduration,
      fun _ => progress_of_lt ease start hduration, fun _ => progress_of_le ease start hduration⟩⟩

/-- A track from one to three that is slow at both ends, and one that is over when it starts. -/
theorem progress_spec_inOutCubic :
    (inOutCubic.apply (-1 : ℚ) = 0 ∧ inOutCubic.apply (2 : ℚ) = 1 ∧
      inOutCubic.apply (1 / 3 : ℚ) = 1 - inOutCubic.apply (1 - 1 / 3 : ℚ)) ∧
    ((0 : ℚ) ≤ 2 ∧ inOutCubic.progress 1 2 (1 / 2 : ℚ) = 0 ∧
      inOutCubic.progress 1 2 (3 / 2 : ℚ) ≤ inOutCubic.progress 1 2 (2 : ℚ) ∧
      inOutCubic.progress 1 2 (3 : ℚ) = 1) ∧
    inOutCubic.progress 1 0 (1 : ℚ) = 1 := by
  obtain ⟨⟨-, -, hstart, hend⟩, hreflected, htracks⟩ := progress_spec inOutCubic
  obtain ⟨hmonotone, hbefore, hafter⟩ := htracks 1 2 (by norm_num)
  obtain ⟨-, -, hover⟩ := htracks 1 0 le_rfl
  exact ⟨⟨hstart (-1) (by norm_num), hend 2 (by norm_num), hreflected (1 / 3)⟩,
    ⟨by norm_num, hbefore (1 / 2) (by norm_num), hmonotone (by norm_num), hafter 3 (by norm_num)⟩,
    hover 1 (by norm_num)⟩

end SceneFlow.Ease
