import Mathlib
import SceneFlow.Proofs.Motion.Rounding

/-!
# The range of doubles

A sum of finite doubles is finite if there is a bound on its exact value that is no larger than the
largest double. So the sum of a time and a finite double is finite or the infinity behind all
times, and a sum of a few amounts that are far from the limit is always finite.

## Main definitions

* `grains`: a finite double as a number of grains, that is of least positive doubles.
* `IsBound`: a number of grains that has no more significant bits than a double.
* `endless`: the infinity behind all times.
* `Within`: an amount in units of `2 ^ 971`.

## Main results

* `isFinite_add`, `isFinite_sub`: sums and differences that keep a bound are finite.
* `isFinite_div_360_iff`: a number of degrees is finite if and only if the full turns are.
* `IsTime.add_isFinite`: a time and a finite double.
* `IsSpan.isFinite_or_eq_add`: a finite span that is added to what can be the start of a motion.
* `Within.add`, `Within.sub`: amounts far from the limit can be added and subtracted.
-/

namespace SceneFlow

open Float.Model Float.Model.UnpackedFloat

/-- A finite double in grains, zero for what is not finite. -/
def grains (x : Float) : ℤ :=
  grainsOf x.toModel.unpack

/-- A number of grains that has no more significant bits than a double. -/
def IsBound (b : ℕ) : Prop :=
  ∃ n k, n < 2 ^ 53 ∧ k ≤ 2045 ∧ b = n * 2 ^ k

theorem isBound_of_canonical {u : UnpackedFloat} (h : Canonical u) :
    IsBound (grainsOf u).natAbs := by
  cases u with
  | finite sign mantissa exponent _ =>
    obtain ⟨hmantissa, hleast, hmost, -⟩ := h
    exact ⟨mantissa, (exponent + 1074).toNat, hmantissa, by omega, natAbs_apply _ _⟩
  | zero _ => exact ⟨0, 0, by decide, by decide, rfl⟩
  | infinity _ | notANumber => exact h.elim

/-! ### Doubles -/

section Doubles

variable {x y : Float}

theorem canonical_of_isFinite (h : x.isFinite = true) : Canonical x.toModel.unpack :=
  canonical_unpack h

/-- The size of a finite double is a bound. -/
theorem isBound_natAbs_grains (h : x.isFinite = true) : IsBound (grains x).natAbs :=
  isBound_of_canonical (canonical_of_isFinite h)

theorem isFinite_of_canonical {u : UnpackedFloat} (h : Canonical u)
    (hx : x.toModel.unpack = UnpackedFloat.unpack .binary64 (UnpackedFloat.pack .binary64 u)) :
    x.isFinite = true ∧ grains x = grainsOf u := by
  rw [unpack_pack h] at hx
  refine ⟨?_, congrArg grainsOf hx⟩
  change UnpackedFloat.isFinite x.toModel.unpack = true
  rw [hx]
  exact h.isFinite

/-- A sum of finite doubles that keeps a bound is finite. -/
theorem isFinite_add {b : ℕ} (hx : x.isFinite = true) (hy : y.isFinite = true) (hb : IsBound b)
    (hle : (grains x + grains y).natAbs ≤ b) :
    (x + y).isFinite = true ∧ (grains (x + y)).natAbs ≤ b := by
  obtain ⟨n, k, hn, hk, rfl⟩ := hb
  obtain ⟨hcanonical, hsize⟩ :=
    add_spec (canonical_of_isFinite hx) (canonical_of_isFinite hy) hn hk hle
  obtain ⟨hfinite, heq⟩ := isFinite_of_canonical (x := x + y) hcanonical rfl
  exact ⟨hfinite, heq ▸ hsize⟩

/-- The sum of finite doubles of which none is on the side of zero of the other is finite: it is no
larger than the larger of the two. -/
theorem isFinite_add_of_signs (hx : x.isFinite = true) (hy : y.isFinite = true)
    (h : 0 ≤ grains x ∧ grains y ≤ 0 ∨ grains x ≤ 0 ∧ 0 ≤ grains y) :
    (x + y).isFinite = true := by
  rcases le_total (grains x).natAbs (grains y).natAbs with hle | hle
  · exact (isFinite_add hx hy (isBound_natAbs_grains hy) (by omega)).1
  · exact (isFinite_add hx hy (isBound_natAbs_grains hx) (by omega)).1

theorem grains_nonneg_of_isSpan (h : IsSpan x) : 0 ≤ grains x := by
  rw [isSpan_iff] at h
  rw [grains]
  cases hparts : x.toModel.unpack with
  | finite sign _ _ _ =>
    cases sign with
    | positive => exact Int.natCast_nonneg _
    | negative => exact absurd (by rw [hparts]; rfl) h
  | _ => exact le_refl _

theorem grains_nonpos_of_not_isTime (h : ¬ IsTime x) : grains x ≤ 0 := by
  rw [isTime_iff_forward] at h
  rw [grains]
  cases hparts : x.toModel.unpack with
  | finite sign _ _ _ =>
    cases sign with
    | positive => exact absurd (by rw [hparts]; rfl) h
    | negative => exact Int.neg_nonpos_of_nonneg (Int.natCast_nonneg _)
  | _ => exact le_refl _

/-- A difference of finite doubles that keeps a bound is finite. -/
theorem isFinite_sub {b : ℕ} (hx : x.isFinite = true) (hy : y.isFinite = true) (hb : IsBound b)
    (hle : (grains x - grains y).natAbs ≤ b) :
    (x - y).isFinite = true ∧ (grains (x - y)).natAbs ≤ b := by
  obtain ⟨n, k, hn, hk, rfl⟩ := hb
  obtain ⟨hcanonical, hsize⟩ :=
    sub_spec (canonical_of_isFinite hx) (canonical_of_isFinite hy) hn hk hle
  obtain ⟨hfinite, heq⟩ := isFinite_of_canonical (x := x - y) hcanonical rfl
  exact ⟨hfinite, heq ▸ hsize⟩

/-- A finite double that is divided by a number from one on, given in its parts, stays finite. -/
theorem isFinite_div {sign : Sign} {m e : ℕ} (hm : 0 < m) (hx : x.isFinite = true)
    (hy : y.toModel.unpack = .finite sign m (-e) hm) (he : 2 ^ e ≤ m) :
    (x / y).isFinite = true := by
  have hcanonical := (div_spec sign hm (canonical_of_isFinite hx) he).1
  rw [← hy] at hcanonical
  exact (isFinite_of_canonical (x := x / y) hcanonical rfl).1

/-- A number of degrees is finite if and only if the full turns are. -/
theorem isFinite_div_360_iff : (x / 360).isFinite = true ↔ x.isFinite = true := by
  constructor
  · intro h
    change UnpackedFloat.isFinite (UnpackedFloat.unpack .binary64 (UnpackedFloat.pack .binary64
      (UnpackedFloat.div .binary64 x.toModel.unpack (360 : Float).toModel.unpack))) = true at h
    change UnpackedFloat.isFinite x.toModel.unpack = true
    rw [show (360 : Float).toModel.unpack = .finite .positive (360 * 2 ^ 44) (-44) (by decide) from
      rfl] at h
    cases hx : x.toModel.unpack with
    | finite _ _ _ _ | zero _ => rfl
    | notANumber =>
      rw [hx] at h
      exact absurd h (by decide)
    | infinity sign =>
      rw [hx] at h
      cases sign <;> exact absurd h (by decide)
  · intro h
    have hparts : (360 : Float).toModel.unpack =
        .finite .positive (360 * 2 ^ 44) (-(44 : ℕ)) (by decide) := rfl
    exact isFinite_div (by decide) h hparts (by decide)

end Doubles

/-! ### Times that overflow -/

/-- The infinity behind all times. -/
def endless : Float :=
  1 / 0

namespace IsTime

variable {x y : Float}

/-- A time that is not finite is the infinity behind all times. -/
theorem isFinite_or_eq (h : IsTime x) : x.isFinite = true ∨ x = endless := by
  have hforward := (isTime_iff_forward x).mp h
  have hparts : PartsOf x.toBits.toNat x.toModel.unpack := partsOf_unpack x.toBits.toBitVec h
  change UnpackedFloat.isFinite x.toModel.unpack = true ∨ _
  cases hx : x.toModel.unpack with
  | finite _ _ _ _ | zero _ => exact .inl rfl
  | notANumber => exact (hx ▸ hforward).elim
  | infinity sign =>
    rw [hx] at hparts
    have hendless : IsTime endless := by decide +kernel
    refine .inr (h.eq_of_timeRank hendless ?_)
    rw [timeRank, if_pos h, hparts]
    decide +kernel

/-- A finite double that is added to a time gives a finite one or overflows to infinity. -/
theorem add_isFinite (h : IsTime x) (hy : y.isFinite = true) :
    (x + y).isFinite = true ∨ x + y = endless := by
  by_cases hspan : IsSpan y
  · exact (h.add hspan).isFinite_or_eq
  · have hcanonical := canonical_of_isFinite hy
    rcases h.isFinite_or_eq with hx | rfl
    · exact .inl (isFinite_add_of_signs hx hy (.inl ⟨grains_nonneg_of_isSpan h.isSpan,
        grains_nonpos_of_not_isTime fun htime => hspan htime.isSpan⟩))
    · have hparts : endless.toModel.unpack = .infinity .positive := rfl
      have hsum : UnpackedFloat.add .binary64 endless.toModel.unpack y.toModel.unpack =
          .infinity .positive := by
        rw [hparts]
        cases hu : y.toModel.unpack with
        | finite _ _ _ _ | zero _ => rfl
        | infinity _ | notANumber => exact (hu ▸ hcanonical).elim
      refine .inr ?_
      change Float.ofModel (.pack (UnpackedFloat.add .binary64 endless.toModel.unpack
        y.toModel.unpack)) = endless
      rw [hsum]
      rfl

end IsTime

/-- A finite span that is added to a finite double, or to the infinity behind all times, gives a
finite double or that infinity. -/
theorem IsSpan.isFinite_or_eq_add {x y : Float} (h : IsSpan y) (hy : y.isFinite = true)
    (hx : x.isFinite = true ∨ x = endless) : (x + y).isFinite = true ∨ x + y = endless := by
  by_cases htime : IsTime x
  · exact (htime.add h).isFinite_or_eq
  · have hx := hx.resolve_right fun heq => htime (heq ▸ by decide +kernel)
    exact .inl (isFinite_add_of_signs hx hy
      (.inr ⟨grains_nonpos_of_not_isTime htime, grains_nonneg_of_isSpan h⟩))

/-! ### Amounts far from the limit -/

/-- A finite double of at most `n` times `2 ^ 971`, which is `2 ^ 2045` grains. -/
def Within (n : ℕ) (x : Float) : Prop :=
  x.isFinite = true ∧ (grains x).natAbs ≤ n * 2 ^ 2045

namespace Within

variable {m n : ℕ} {x y : Float}

theorem zero : Within 0 0 :=
  ⟨by decide +kernel, by decide +kernel⟩

theorem mono (h : Within m x) (hle : m ≤ n) : Within n x :=
  ⟨h.1, h.2.trans (Nat.mul_le_mul_right _ hle)⟩

theorem add (h : Within m x) (hy : Within n y) (hlt : m + n < 2 ^ 53) : Within (m + n) (x + y) := by
  refine isFinite_add h.1 hy.1 ⟨m + n, 2045, hlt, le_refl _, rfl⟩ ?_
  rw [add_mul]
  exact (Int.natAbs_add_le _ _).trans (Nat.add_le_add h.2 hy.2)

theorem sub (h : Within m x) (hy : Within n y) (hlt : m + n < 2 ^ 53) : Within (m + n) (x - y) := by
  refine isFinite_sub h.1 hy.1 ⟨m + n, 2045, hlt, le_refl _, rfl⟩ ?_
  rw [add_mul]
  exact (Int.natAbs_sub_le _ _).trans (Nat.add_le_add h.2 hy.2)

theorem later (h : Within n x) (hy : Within n y) : Within n (later x y) := by
  rw [SceneFlow.later]
  split
  · exact hy
  · exact h

theorem earlier (h : Within n x) (hy : Within n y) : Within n (earlier x y) := by
  rw [SceneFlow.earlier]
  split
  · exact hy
  · exact h

/-- The latest of some amounts is one of them. -/
theorem foldl_later {list : List Float} (h : ∀ y ∈ list, Within n y) (hx : Within n x) :
    Within n (list.foldl SceneFlow.later x) := by
  induction list generalizing x with
  | nil => exact hx
  | cons y rest ih =>
    obtain ⟨hy, hrest⟩ := List.forall_mem_cons.mp h
    exact ih hrest (hx.later hy)

end Within

end SceneFlow
