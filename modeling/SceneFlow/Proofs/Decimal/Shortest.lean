import Mathlib
import SceneFlow.Decimal.Shortest

/-!
# The shortest decimal belongs to one double

The decimal that is found for a double rounds to it. Two doubles have no decimal in common: their
rounding intervals at most touch, and where they touch one of the two mantissas is odd, so that the
common end is not in the interval of that double. What is written for a double therefore belongs to
no other one.

## Main definitions

* `Scientific.value`: the number that a decimal writes.
* `Binary.Rounds`: a number rounds to a double.
* `Binary.Regular`: the magnitude of a double other than zero.

## Main results

* `Binary.rounds_shortest`: the shortest decimal rounds to the double.
* `Binary.Rounds.unique`: a number rounds to one double only.
* `Binary.ofBits_inj`: the bits of a double are its sign and its magnitude.
-/

namespace SceneFlow.Decimal

/-- The number that a decimal writes. -/
def Scientific.value (d : Scientific) : ℚ :=
  d.digits * 10 ^ d.exponent

/-- The value of a quarter of the last bit of the mantissa. -/
def Binary.quarter (x : Binary) : ℚ :=
  2 ^ (x.exponent - 2)

/-- A number rounds to the binary number: it lies in the rounding interval, whose ends belong to it
just if the mantissa is even. -/
def Binary.Rounds (x : Binary) (v : ℚ) : Prop :=
  if x.mantissa % 2 = 0 then x.low * x.quarter ≤ v ∧ v ≤ x.high * x.quarter
  else x.low * x.quarter < v ∧ v < x.high * x.quarter

theorem Binary.quarter_pos (x : Binary) : 0 < x.quarter :=
  zpow_pos (by norm_num) _

namespace Binary

variable {x y : Binary} {v : ℚ}

theorem Rounds.low_le (h : x.Rounds v) : x.low * x.quarter ≤ v := by
  rw [Rounds] at h
  split at h
  · exact h.1
  · exact h.1.le

theorem Rounds.le_high (h : x.Rounds v) : v ≤ x.high * x.quarter := by
  rw [Rounds] at h
  split at h
  · exact h.2
  · exact h.2.le

theorem Rounds.even_of_eq_high (h : x.Rounds v) (hv : v = x.high * x.quarter) :
    x.mantissa % 2 = 0 := by
  by_contra hodd
  rw [Rounds, if_neg hodd] at h
  exact h.2.ne hv

theorem Rounds.even_of_eq_low (h : x.Rounds v) (hv : v = x.low * x.quarter) :
    x.mantissa % 2 = 0 := by
  by_contra hodd
  rw [Rounds, if_neg hodd] at h
  exact h.1.ne' hv

theorem le_low (x : Binary) : 4 * x.mantissa - 2 ≤ x.low := by
  rw [low]
  split <;> omega

theorem low_lt (hpos : 0 < x.mantissa) : x.low < 4 * x.mantissa := by
  rw [low]
  split <;> omega

theorem Rounds.pos (h : x.Rounds v) (hpos : 0 < x.mantissa) : 0 < v := by
  have hlow : 0 < x.low := by
    have := x.le_low
    omega
  exact lt_of_lt_of_le (mul_pos (by exact_mod_cast hlow) x.quarter_pos) h.low_le

/-! ### What is found rounds to the double -/

theorem pow_toNat_div {b : ℕ} (hb : b ≠ 0) (e : ℤ) :
    ((b ^ e.toNat : ℕ) : ℚ) / (b ^ (-e).toNat : ℕ) = (b : ℚ) ^ e := by
  push_cast
  rw [← zpow_natCast, ← zpow_natCast, ← zpow_sub₀ (Nat.cast_ne_zero.mpr hb)]
  congr 1
  omega

/-- The common unit of a number and a grid. -/
def unit (x : Binary) (place : ℤ) : ℚ :=
  1 / ((2 ^ (-(x.exponent - 2)).toNat : ℕ) * (10 ^ (-place).toNat : ℕ))

theorem unit_pos (x : Binary) (place : ℤ) : 0 < x.unit place := by
  rw [unit]
  positivity

theorem grid_quarter_mul (x : Binary) (place : ℤ) :
    (x.grid place).quarter * x.unit place = x.quarter := by
  have hpow := pow_toNat_div two_ne_zero (x.exponent - 2)
  rw [Nat.cast_ofNat] at hpow
  rw [quarter, ← hpow, grid, unit]
  simp only [Nat.pow_eq, Nat.cast_mul]
  field_simp

theorem grid_step_mul (x : Binary) (place : ℤ) :
    (x.grid place).step * x.unit place = 10 ^ place := by
  have hpow := pow_toNat_div (by norm_num : 10 ≠ 0) place
  rw [Nat.cast_ofNat] at hpow
  rw [← hpow, grid, unit, show 2 - x.exponent = -(x.exponent - 2) by omega]
  simp only [Nat.pow_eq, Nat.cast_mul]
  field_simp

theorem readsBack_iff (x : Binary) (place : ℤ) (n : ℕ) :
    x.readsBack (x.grid place) n = true ↔ x.Rounds (n * 10 ^ place) := by
  have hunit := x.unit_pos place
  have hle : ∀ a b c d : ℕ, (a * b ≤ c * d ↔
      (a : ℚ) * (b * x.unit place) ≤ c * (d * x.unit place)) := fun a b c d => by
    rw [← mul_assoc, ← mul_assoc, mul_le_mul_iff_of_pos_right hunit]
    exact_mod_cast Iff.rfl
  rw [readsBack, Rounds, ← grid_quarter_mul x place, ← grid_step_mul x place]
  split
  · simp only [Bool.and_eq_true, decide_eq_true_eq, hle]
  · simp only [Bool.and_eq_true, decide_eq_true_eq, ← not_le, hle]

theorem rounds_of_onGrid? {tie : Tie} {place : ℤ} {d : Scientific}
    (h : x.onGrid? tie place = some d) : x.Rounds d.value := by
  obtain ⟨n, hn, rfl⟩ := Option.map_eq_some_iff.mp h
  exact (x.readsBack_iff place n).mp (List.find?_some hn)

theorem exactly_value (x : Binary) : x.exactly.value = x.mantissa * 2 ^ x.exponent := by
  rw [exactly]
  split
  · rename_i hnonneg
    obtain ⟨n, hn⟩ := Int.eq_ofNat_of_zero_le hnonneg
    simp [Scientific.value, hn]
  · rename_i hneg
    obtain ⟨n, hn⟩ := Int.eq_ofNat_of_zero_le (show 0 ≤ -x.exponent by omega)
    rw [show x.exponent = -n by omega]
    have hten : (10 : ℚ) ^ n = 2 ^ n * 5 ^ n := by rw [← mul_pow]; norm_num
    simp only [Scientific.value, Nat.pow_eq, neg_neg, Int.toNat_natCast, Nat.cast_mul,
      Nat.cast_pow, Nat.cast_ofNat, zpow_neg, zpow_natCast, hten]
    field_simp

/-- A number rounds to itself. -/
theorem rounds_self (hpos : 0 < x.mantissa) : x.Rounds (x.mantissa * 2 ^ x.exponent) := by
  have hvalue : (x.mantissa : ℚ) * 2 ^ x.exponent = (4 * x.mantissa : ℕ) * x.quarter := by
    rw [quarter, zpow_sub₀ (by norm_num)]
    push_cast
    ring
  have hlow : (x.low : ℚ) * x.quarter < (4 * x.mantissa : ℕ) * x.quarter :=
    mul_lt_mul_of_pos_right (by exact_mod_cast low_lt hpos) x.quarter_pos
  have hhigh : ((4 * x.mantissa : ℕ) : ℚ) * x.quarter < x.high * x.quarter :=
    mul_lt_mul_of_pos_right (by rw [high]; exact_mod_cast (by omega)) x.quarter_pos
  rw [Rounds, hvalue]
  split
  · exact ⟨hlow.le, hhigh.le⟩
  · exact ⟨hlow, hhigh⟩

end Binary

theorem Scientific.value_strip (fuel : ℕ) (d : Scientific) : (d.strip fuel).value = d.value := by
  induction fuel generalizing d with
  | zero => rfl
  | succ fuel ih =>
    rw [strip]
    split
    · rename_i h
      have hten : d.digits = d.digits / 10 * 10 := by
        simp only [ne_eq, Bool.and_eq_true, decide_eq_true_eq] at h
        omega
      rw [ih, value, value, zpow_add_one₀ (by norm_num)]
      conv_rhs => rw [hten]
      push_cast
      ring
    · rfl

namespace Binary

variable {x y : Binary} {v : ℚ}

/-- The shortest decimal rounds to the double. -/
theorem rounds_shortest (hpos : 0 < x.mantissa) (tie : Tie) : x.Rounds (x.shortest tie).value := by
  rw [shortest, Scientific.value_strip]
  cases hfound : (List.range 17).findSome? fun n : ℕ => x.onGrid? tie (x.leadingPlace - n) with
  | none =>
    rw [Option.getD_none, exactly_value]
    exact rounds_self hpos
  | some d =>
    obtain ⟨n, -, hn⟩ := List.exists_of_findSome?_eq_some hfound
    exact rounds_of_onGrid? hn

/-! ### Doubles have no decimal in common -/

/-- The magnitude of a double other than zero. -/
structure Regular (x : Binary) : Prop where
  pos : 0 < x.mantissa
  lt : x.mantissa < 2 ^ 53
  least : -1074 ≤ x.exponent
  full : -1074 < x.exponent → 2 ^ 52 ≤ x.mantissa
  narrowBelow_iff : x.narrowBelow = true ↔ -1074 < x.exponent ∧ x.mantissa = 2 ^ 52

theorem Regular.ext (hx : x.Regular) (hy : y.Regular) (hmantissa : x.mantissa = y.mantissa)
    (hexponent : x.exponent = y.exponent) : x = y := by
  have hnarrow : x.narrowBelow = y.narrowBelow := by
    rw [Bool.eq_iff_iff, hx.narrowBelow_iff, hy.narrowBelow_iff, hmantissa, hexponent]
  cases x
  cases y
  simp_all

theorem Rounds.mantissa_le (hx : x.Rounds v) (hy : y.Rounds v)
    (hexponent : x.exponent = y.exponent) : y.mantissa ≤ x.mantissa := by
  by_contra! hlt
  have hquarter : x.quarter = y.quarter := by rw [quarter, quarter, hexponent]
  have hle : (y.low : ℚ) * x.quarter ≤ x.high * x.quarter :=
    hquarter ▸ hy.low_le |>.trans hx.le_high
  have hlow : y.low ≤ x.high := by
    exact_mod_cast le_of_mul_le_mul_right hle x.quarter_pos
  have hshift := y.le_low
  have hends : y.low = x.high ∧ y.mantissa = x.mantissa + 1 := by
    rw [high] at hlow ⊢
    omega
  -- the two intervals touch, and one of the two mantissas is odd
  have hv : v = x.high * x.quarter := by
    refine le_antisymm hx.le_high ?_
    rw [← hends.1, hquarter]
    exact hy.low_le
  have hx' := hx.even_of_eq_high hv
  have hy' := hy.even_of_eq_low (by rw [hv, hends.1, hquarter])
  omega

theorem Rounds.exponent_le (hx : x.Rounds v) (hy : y.Rounds v) (hregular : x.Regular)
    (hregular' : y.Regular) : y.exponent ≤ x.exponent := by
  by_contra! hlt
  have hquarter : 2 * x.quarter ≤ y.quarter := by
    rw [quarter, quarter, ← zpow_one_add₀ (by norm_num)]
    exact zpow_le_zpow_right₀ (by norm_num) (by omega)
  have hfull := hregular'.full (hregular.least.trans_lt hlt)
  have hle : ((2 * y.low : ℕ) : ℚ) * x.quarter ≤ v := by
    calc ((2 * y.low : ℕ) : ℚ) * x.quarter = y.low * (2 * x.quarter) := by push_cast; ring
      _ ≤ y.low * y.quarter := mul_le_mul_of_nonneg_left hquarter (Nat.cast_nonneg _)
      _ ≤ v := hy.low_le
  have hlow : 2 * y.low ≤ x.high := by
    exact_mod_cast le_of_mul_le_mul_right (hle.trans hx.le_high) x.quarter_pos
  -- the intervals touch at a power of two, below which the mantissa is odd
  have hends : 2 * y.low = x.high ∧ x.mantissa % 2 = 1 := by
    have hmantissa := hregular.lt
    have hleast := hregular.least
    rw [high, low] at hlow ⊢
    by_cases hnarrow : y.narrowBelow = true
    · have hpower := (hregular'.narrowBelow_iff.mp hnarrow).2
      rw [if_pos hnarrow] at hlow ⊢
      omega
    · have hpower : y.mantissa ≠ 2 ^ 52 := fun heq =>
        hnarrow (hregular'.narrowBelow_iff.mpr ⟨by omega, heq⟩)
      rw [if_neg hnarrow] at hlow
      omega
  have hv : v = x.high * x.quarter := le_antisymm hx.le_high (by rw [← hends.1]; exact hle)
  have heven := hx.even_of_eq_high hv
  omega

/-- A number rounds to one double only. -/
theorem Rounds.unique (hx : x.Rounds v) (hy : y.Rounds v) (hregular : x.Regular)
    (hregular' : y.Regular) : x = y := by
  have hexponent : x.exponent = y.exponent :=
    le_antisymm (hy.exponent_le hx hregular' hregular) (hx.exponent_le hy hregular hregular')
  exact hregular.ext hregular'
    (le_antisymm (hy.mantissa_le hx hexponent.symm) (hx.mantissa_le hy hexponent)) hexponent

/-! ### The bits of a double -/

theorem toNat_biased (bits : UInt64) :
    (bits >>> 52 &&& 0x7FF).toNat = bits.toNat / 2 ^ 52 % 2 ^ 11 := by
  rw [UInt64.toNat_and, UInt64.toNat_shiftRight, Nat.shiftRight_eq_div_pow]
  exact Nat.and_two_pow_sub_one_eq_mod _ 11

theorem toNat_fraction (bits : UInt64) :
    (bits &&& 0xFFFFFFFFFFFFF).toNat = bits.toNat % 2 ^ 52 := by
  rw [UInt64.toNat_and]
  exact Nat.and_two_pow_sub_one_eq_mod _ 52

theorem regular_ofBits {bits : UInt64} (h : (ofBits bits).mantissa ≠ 0) :
    (ofBits bits).Regular := by
  rw [ofBits, toNat_biased, toNat_fraction] at h ⊢
  split at h
  · rename_i hzero
    rw [if_pos hzero]
    exact ⟨by dsimp only at h ⊢; omega, by dsimp only; omega, le_refl _, by simp, by simp⟩
  · rename_i hzero
    rw [if_neg hzero]
    refine ⟨by dsimp only; omega, by dsimp only; omega, by dsimp only; omega,
      fun _ => by dsimp only; omega, ?_⟩
    simp only [Bool.and_eq_true, beq_iff_eq, decide_eq_true_eq]
    omega

theorem ofBits_of_mantissa_eq_zero {bits : UInt64} (h : (ofBits bits).mantissa = 0) :
    ofBits bits = ⟨0, -1074, false⟩ := by
  rw [ofBits] at h ⊢
  split at h
  · rename_i hzero
    exact (if_pos hzero).trans (congrArg (Binary.mk · _ _) h)
  · dsimp only at h
    omega

/-- The bits of a double are its sign and its magnitude. -/
theorem ofBits_inj {a b : UInt64} (hsign : a >>> 63 = 1 ↔ b >>> 63 = 1)
    (h : ofBits a = ofBits b) : a = b := by
  have hbit : ∀ bits : UInt64, bits >>> 63 = 1 ↔ bits.toNat / 2 ^ 63 = 1 := fun bits => by
    rw [← UInt64.toNat_inj, UInt64.toNat_shiftRight, Nat.shiftRight_eq_div_pow]
    exact Iff.rfl
  have ha := a.toNat_lt
  have hb := b.toNat_lt
  rw [hbit, hbit] at hsign
  rw [ofBits, ofBits, toNat_biased, toNat_biased, toNat_fraction, toNat_fraction] at h
  refine UInt64.toNat_inj.mp ?_
  split at h <;> split at h <;> obtain ⟨hmantissa, hexponent, -⟩ := Binary.mk.inj h <;> omega

end Binary

end SceneFlow.Decimal
