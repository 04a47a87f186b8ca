import Mathlib
import SceneFlow.Proofs.Motion.Time

/-!
# Rounding to doubles

The parts of a double are a mantissa and an exponent. Every finite double is a whole number of
*grains*, the grain being the least positive double. What is calculated is rounded to the bits that
there are, and rounding does not pass a number of grains that has no more bits than these. So a sum
or a difference whose exact value keeps such a bound is finite and keeps it too, and overflows only
if there is none.

## Main definitions

* `Canonical`: the parts of a finite double.
* `grainsOf`: these parts in grains.
* `Stands`: a mantissa with the bits that are kept for rounding stands for a fraction.

## Main results

* `unpack_pack`: nothing is lost when the parts of a finite double are packed.
* `roundWithAccuracy_spec`: rounding does not pass a bound.
* `add_spec`, `sub_spec`, `div_spec`: neither do sums, differences and quotients.
-/

namespace SceneFlow

open Float.Model Float.Model.UnpackedFloat

/-- The parts of a double in grains, zero for what is not finite. -/
def grainsOf : UnpackedFloat → ℤ
  | .finite sign mantissa exponent _ =>
    sign.apply ((mantissa * 2 ^ (exponent + 1074).toNat : ℕ) : ℤ)
  | _ => 0

/-- The parts of a finite double: as many bits as there are, unless the exponent is the least. -/
def Canonical : UnpackedFloat → Prop
  | .finite _ mantissa exponent _ =>
    mantissa < 2 ^ 53 ∧ -1074 ≤ exponent ∧ exponent ≤ 971 ∧ (-1074 < exponent → 2 ^ 52 ≤ mantissa)
  | .zero _ => True
  | _ => False

theorem Canonical.isFinite {u : UnpackedFloat} (h : Canonical u) : u.isFinite = true := by
  cases u with
  | finite _ _ _ _ | zero _ => rfl
  | infinity _ | notANumber => exact h.elim

theorem natAbs_apply (sign : Sign) (n : ℕ) : (sign.apply (n : ℤ)).natAbs = n := by
  cases sign <;> simp [Sign.apply]

/-! ### Packing -/

theorem canonical_unpack {b : BitVec Format.binary64.numBits}
    (h : (UnpackedFloat.unpack .binary64 b).isFinite = true) :
    Canonical (UnpackedFloat.unpack .binary64 b) := by
  have hunpacks := unpacks_unpack b
  generalize UnpackedFloat.unpack .binary64 b = u at h hunpacks ⊢
  cases hunpacks with
  | infinity | notANumber => cases h
  | zero => trivial
  | subnormal | normal =>
    rw [Canonical]
    omega

theorem log2_eq_of {m : ℕ} (hlt : m < 2 ^ 53) (h : 2 ^ 52 ≤ m) : m.log2 = 52 :=
  (Nat.log2_eq_iff (by omega)).mpr ⟨h, hlt⟩

theorem unpack_pack_normal {sign : Sign} {mantissa : ℕ} {exponent : ℤ} (hpos : 0 < mantissa)
    (hge : 2 ^ 52 ≤ mantissa) (hlt : mantissa < 2 ^ 53) (hleast : -1074 ≤ exponent)
    (hmost : exponent ≤ 971) :
    UnpackedFloat.unpack .binary64
        (UnpackedFloat.pack .binary64 (.finite sign mantissa exponent hpos)) =
      .finite sign mantissa exponent hpos := by
  have hbias : (Format.exponentBias .binary64 : ℤ) = 1023 := rfl
  rw [UnpackedFloat.pack]
  dsimp only
  rw [hbias, if_neg (by simp; omega), if_pos (by rw [log2_eq_of hlt hge]; rfl),
    UnpackedFloat.unpack]
  simp only [unpackExponent_packComponents, unpackMantissa_packComponents,
    unpackSign_packComponents, ofBitVec_toBitVec, hbias]
  rw [if_neg, if_neg]
  · congr 1
    · rw [BitVec.toNat_append, ← Nat.shiftLeft_add_eq_or_of_lt (BitVec.isLt _)]
      simp
      omega
    · simp
      omega
  · intro heq
    have := congrArg BitVec.toNat heq
    simp at this
    omega
  · intro heq
    have := congrArg BitVec.toNat heq
    simp at this
    omega

theorem unpack_pack_subnormal {sign : Sign} {mantissa : ℕ} (hpos : 0 < mantissa)
    (hlt : mantissa < 2 ^ 52) :
    UnpackedFloat.unpack .binary64
        (UnpackedFloat.pack .binary64 (.finite sign mantissa (-1074) hpos)) =
      .finite sign mantissa (-1074) hpos := by
  have hbias : (Format.exponentBias .binary64 : ℤ) = 1023 := rfl
  have hlog : mantissa.log2 + 1 ≠ Format.binary64.mantissaBits := by
    have := (Nat.log2_lt hpos.ne').mpr hlt
    change mantissa.log2 + 1 ≠ 53
    omega
  rw [UnpackedFloat.pack]
  dsimp only
  rw [hbias, if_neg (by decide), if_neg hlog, UnpackedFloat.unpack]
  simp only [unpackExponent_packComponents, unpackMantissa_packComponents,
    unpackSign_packComponents, ofBitVec_toBitVec, hbias]
  rw [if_neg (by decide), if_pos trivial, dif_neg]
  · congr 1
    simp
    omega
  · intro heq
    have := congrArg BitVec.toNat heq
    simp at this
    omega

/-- Nothing is lost when the parts of a finite double are packed. -/
theorem unpack_pack {u : UnpackedFloat} (h : Canonical u) :
    UnpackedFloat.unpack .binary64 (UnpackedFloat.pack .binary64 u) = u := by
  cases u with
  | infinity _ | notANumber => exact h.elim
  | zero sign => cases sign <;> rfl
  | finite sign mantissa exponent hpos =>
    obtain ⟨hlt, hleast, hmost, hfull⟩ := h
    rcases Nat.lt_or_ge mantissa (2 ^ 52) with hstored | hge
    · obtain rfl : exponent = -1074 := by omega
      exact unpack_pack_subnormal hpos hstored
    · exact unpack_pack_normal hpos hge hlt hleast hmost

/-! ### Rounding -/

/-- A mantissa with the bits that are kept for rounding stands for a fraction: it is the whole part,
and the bits are clear if the fraction is whole. -/
structure Stands (em : ExtendedMantissa) (num den : ℕ) : Prop where
  le : em.mantissa * den ≤ num
  lt : num < (em.mantissa + 1) * den
  eq_iff : num = em.mantissa * den ↔ em.roundBit = false ∧ em.stickyBit = false

namespace Stands

variable {em : ExtendedMantissa} {num den : ℕ}

theorem den_pos (h : Stands em num den) : 0 < den := by
  by_contra hnot
  have := h.lt
  simp [show den = 0 by omega] at this

theorem shiftRightOne (h : Stands em num den) : Stands em.shiftRightOne num (2 * den) := by
  have hden := h.den_pos
  obtain ⟨hle, hlt, heq⟩ := h
  have hsplit : em.mantissa = 2 * (em.mantissa / 2) + em.mantissa % 2 := (Nat.div_add_mod _ _).symm
  have hbit : em.mantissa % 2 < 2 := Nat.mod_lt _ (by decide)
  simp only [ExtendedMantissa.shiftRightOne] at *
  generalize em.mantissa / 2 = half at *
  generalize em.mantissa % 2 = bit at *
  rw [hsplit] at hle hlt heq
  refine ⟨by dsimp only; nlinarith, by dsimp only; nlinarith, ?_⟩
  dsimp only
  rcases (by omega : bit = 0 ∨ bit = 1) with rfl | rfl
  · rw [show half * (2 * den) = (2 * half + 0) * den by ring, heq]
    simp
  · simp
    nlinarith

theorem shiftRight (h : Stands em num den) (k : ℕ) : Stands (em >>> k) num (2 ^ k * den) := by
  induction k with
  | zero => rwa [pow_zero, one_mul]
  | succ k ih =>
    rw [pow_succ', mul_assoc]
    exact ih.shiftRightOne

/-- Rounding does not pass a whole number. -/
theorem roundedMantissa_le (h : Stands em num den) {c : ℕ} (hc : num ≤ c * den) :
    em.roundedMantissa ≤ c := by
  have hden := h.den_pos
  obtain ⟨hle, hlt, heq⟩ := h
  obtain ⟨mantissa, roundBit, stickyBit⟩ := em
  dsimp only at hle hlt heq
  have hmantissa : mantissa ≤ c := Nat.le_of_mul_le_mul_right (hle.trans hc) hden
  -- A fraction that is not whole lies strictly below the bound.
  have hstrict : (roundBit = false ∧ stickyBit = false) ∨ mantissa + 1 ≤ c := by
    refine or_iff_not_imp_left.mpr fun hnot => Nat.lt_of_mul_lt_mul_right (a := den) ?_
    exact ((Nat.lt_of_le_of_ne hle fun h => hnot (heq.mp h.symm))).trans_le hc
  cases roundBit <;> cases stickyBit <;>
    simp [ExtendedMantissa.roundedMantissa, ExtendedMantissa.accuracy,
      Accuracy.roundToNearestEven] at hstrict ⊢ <;> omega

theorem le_roundedMantissa (em : ExtendedMantissa) : em.mantissa ≤ em.roundedMantissa := by
  obtain ⟨mantissa, roundBit, stickyBit⟩ := em
  cases roundBit <;> cases stickyBit <;>
    simp [ExtendedMantissa.roundedMantissa, ExtendedMantissa.accuracy,
      Accuracy.roundToNearestEven]

theorem mantissa_shiftRight (em : ExtendedMantissa) (k : ℕ) :
    (em >>> k).mantissa = em.mantissa / 2 ^ k := by
  induction k with
  | zero => exact (Nat.div_one _).symm
  | succ k ih =>
    rw [pow_succ, ← Nat.div_div_eq_div_mul, ← ih]
    rfl

theorem of_exact (m : ℕ) : Stands (.ofMantissaAndAccuracy m .exact) m 1 where
  le := by simp [ExtendedMantissa.ofMantissaAndAccuracy]
  lt := by simp [ExtendedMantissa.ofMantissaAndAccuracy]
  eq_iff := by simp [ExtendedMantissa.ofMantissaAndAccuracy]

theorem of_fraction {den : ℕ} (hden : 0 < den) (num : ℕ) :
    Stands (.ofMantissaAndAccuracy (num / den) (accuracyOfFraction (num % den) den)) num den := by
  have hmod := Nat.mod_lt num hden
  have hsplit := Nat.div_add_mod num den
  rw [accuracyOfFraction]
  split
  · rename_i hzero
    refine ⟨?_, ?_, ?_⟩ <;> simp [ExtendedMantissa.ofMantissaAndAccuracy] <;> nlinarith
  · rename_i hne
    have hmantissa : ∀ accuracy,
        (ExtendedMantissa.ofMantissaAndAccuracy (num / den) accuracy).mantissa = num / den := by
      intro accuracy
      cases accuracy with
      | exact => rfl
      | inexact o => cases o <;> rfl
    refine ⟨?_, ?_, ?_⟩
    · rw [hmantissa]
      exact Nat.div_mul_le_self num den
    · rw [hmantissa]
      nlinarith
    · rw [hmantissa]
      refine iff_of_false (by nlinarith [Nat.pos_of_ne_zero hne]) ?_
      cases compare (2 * (num % den)) den <;> simp [ExtendedMantissa.ofMantissaAndAccuracy]

end Stands

/-- How far a mantissa is shifted before it is rounded, where the exponent is counted from the
least one. -/
def shiftOf (m i : ℕ) : ℕ :=
  m.log2 + i - 52 - i

theorem shiftToTargetExponent_eq (m i : ℕ) (accuracy : Accuracy) :
    shiftToTargetExponent .binary64 m ((i : ℤ) - 1074) accuracy =
      (ExtendedMantissa.ofMantissaAndAccuracy m accuracy >>> shiftOf m i,
        ((i + shiftOf m i : ℕ) : ℤ) - 1074) := by
  have htarget : Format.binary64.targetExponent (totalExponent m ((i : ℤ) - 1074)) =
      max ((m.log2 : ℤ) + 1 + (i - 1074) - 53) (-1074) := rfl
  have hshift : (Format.binary64.targetExponent (totalExponent m ((i : ℤ) - 1074)) -
      ((i : ℤ) - 1074)).toNat = shiftOf m i := by
    rw [htarget, shiftOf]
    omega
  simp only [shiftToTargetExponent, shiftToExponent]
  rw [hshift]
  congr 1
  omega

theorem mantissa_ofMantissaAndAccuracy (m : ℕ) (accuracy : Accuracy) :
    (ExtendedMantissa.ofMantissaAndAccuracy m accuracy).mantissa = m := by
  cases accuracy with
  | exact => rfl
  | inexact o => cases o <;> rfl

/-- A mantissa that has been shifted fits into the bits of a double. -/
theorem div_shiftOf_lt (m i : ℕ) : m / 2 ^ shiftOf m i < 2 ^ 53 := by
  rw [Nat.div_lt_iff_lt_mul (by positivity), ← pow_add]
  refine Nat.lt_log2_self.trans_le (Nat.pow_le_pow_right (by decide) ?_)
  rw [shiftOf]
  omega

/-- It fills them unless the exponent is the least. -/
theorem le_div_shiftOf {m i : ℕ} (hi : i = 0 ∨ 2 ^ 52 ≤ m) (hpos : 0 < i + shiftOf m i) :
    2 ^ 52 ≤ m / 2 ^ shiftOf m i := by
  have hm : m ≠ 0 := by
    rintro rfl
    simp [shiftOf] at hpos
    omega
  have hlog : 52 + shiftOf m i = m.log2 := by
    rw [shiftOf] at hpos ⊢
    rcases hi with rfl | hge
    · omega
    · have := (Nat.le_log2 hm).mpr hge
      omega
  rw [Nat.le_div_iff_mul_le (by positivity), ← pow_add, hlog]
  exact Nat.log2_self_le hm

/-- A bound on a number with all bits bounds its exponent. -/
theorem le_of_full {m i n k : ℕ} (hm : 2 ^ 52 ≤ m) (hn : n < 2 ^ 53)
    (hle : m * 2 ^ i ≤ n * 2 ^ k) : i ≤ k := by
  by_contra hlt
  have hpow : 2 * 2 ^ k ≤ 2 ^ i := by
    rw [← pow_succ']
    exact Nat.pow_le_pow_right (by decide) (by omega)
  have hpos : 0 < 2 ^ k := by positivity
  nlinarith

theorem div_shiftOf_mul_le (m i : ℕ) :
    m / 2 ^ shiftOf m i * 2 ^ (i + shiftOf m i) ≤ m * 2 ^ i := by
  calc m / 2 ^ shiftOf m i * 2 ^ (i + shiftOf m i)
      = m / 2 ^ shiftOf m i * 2 ^ shiftOf m i * 2 ^ i := by ring
    _ ≤ m * 2 ^ i := by gcongr; exact Nat.div_mul_le_self _ _

/-- A bound on a number bounds the exponent that it is shifted to. -/
theorem add_shiftOf_le {m i n k : ℕ} (hi : i = 0 ∨ 2 ^ 52 ≤ m) (hn : n < 2 ^ 53)
    (hle : m * 2 ^ i ≤ n * 2 ^ k) : i + shiftOf m i ≤ k := by
  rcases Nat.eq_zero_or_pos (i + shiftOf m i) with hzero | hpos
  · omega
  · exact le_of_full (le_div_shiftOf hi hpos) hn ((div_shiftOf_mul_le m i).trans hle)

/-- Rounding gives the parts of a finite double and does not pass a bound. The mantissa `m` stands
for the whole part of `num / den` and has all bits unless the exponent is the least. -/
theorem roundWithAccuracy_spec {m i num den n k : ℕ} {accuracy : Accuracy} (sign : Sign)
    (h : Stands (.ofMantissaAndAccuracy m accuracy) num den) (hi : i = 0 ∨ 2 ^ 52 ≤ m)
    (hn : n < 2 ^ 53) (hk : k ≤ 2045) (hle : num * 2 ^ i ≤ n * 2 ^ k * den) :
    Canonical (roundWithAccuracy .binary64 sign m ((i : ℤ) - 1074) accuracy) ∧
      (grainsOf (roundWithAccuracy .binary64 sign m ((i : ℤ) - 1074) accuracy)).natAbs ≤
        n * 2 ^ k := by
  have hstands := h.shiftRight (shiftOf m i)
  have hlow := Stands.le_roundedMantissa
    (ExtendedMantissa.ofMantissaAndAccuracy m accuracy >>> shiftOf m i)
  have hfull := le_div_shiftOf hi
  rw [Stands.mantissa_shiftRight, mantissa_ofMantissaAndAccuracy] at hlow
  have hwhole : m * 2 ^ i ≤ n * 2 ^ k := by
    have hmantissa := h.le
    rw [mantissa_ofMantissaAndAccuracy] at hmantissa
    refine Nat.le_of_mul_le_mul_right ?_ h.den_pos
    calc m * 2 ^ i * den = m * den * 2 ^ i := by ring
      _ ≤ num * 2 ^ i := by gcongr
      _ ≤ n * 2 ^ k * den := hle
  have hexponent : i + shiftOf m i ≤ k := add_shiftOf_le hi hn hwhole
  have hrounded : (ExtendedMantissa.ofMantissaAndAccuracy m accuracy >>>
      shiftOf m i).roundedMantissa ≤ n * 2 ^ (k - (i + shiftOf m i)) := by
    refine hstands.roundedMantissa_le (Nat.le_of_mul_le_mul_right ?_ (by positivity : 0 < 2 ^ i))
    calc num * 2 ^ i ≤ n * 2 ^ k * den := hle
      _ = n * 2 ^ (k - (i + shiftOf m i) + (i + shiftOf m i)) * den := by
        rw [Nat.sub_add_cancel hexponent]
      _ = n * 2 ^ (k - (i + shiftOf m i)) * (2 ^ shiftOf m i * den) * 2 ^ i := by ring
  rw [roundWithAccuracy, shiftToTargetExponent_eq]
  dsimp only
  generalize i + shiftOf m i = j at *
  generalize ExtendedMantissa.roundedMantissa _ = r at *
  -- What is rounded has all bits too, and is only shifted if it has one too many.
  have hj : j = 0 ∨ 2 ^ 52 ≤ r := by
    rcases Nat.eq_zero_or_pos j with hzero | hpos
    · exact .inl hzero
    · exact .inr ((hfull hpos).trans hlow)
  have hsize : r * 2 ^ j ≤ n * 2 ^ k := by
    calc r * 2 ^ j ≤ n * 2 ^ (k - j) * 2 ^ j := by gcongr
      _ = n * 2 ^ (k - j + j) := by ring
      _ = n * 2 ^ k := by rw [Nat.sub_add_cancel hexponent]
  have hfits := div_shiftOf_lt r j
  have hfull' := le_div_shiftOf hj
  have hmost : j + shiftOf r j ≤ k := add_shiftOf_le hj hn hsize
  rw [shiftToTargetExponent_eq]
  dsimp only
  split
  · exact ⟨trivial, by simp [grainsOf]⟩
  · simp only [Canonical, grainsOf, natAbs_apply, Stands.mantissa_shiftRight,
      mantissa_ofMantissaAndAccuracy]
    refine ⟨⟨hfits, by omega, by omega, fun hpos => hfull' (by omega)⟩, ?_⟩
    rw [sub_add_cancel, Int.toNat_natCast]
    exact (div_shiftOf_mul_le r j).trans hsize

/-! ### Calculations -/

section Calculations

variable {n k : ℕ} {u v : UnpackedFloat}

theorem round_spec {m i : ℕ} (hm : 0 < m) (sign : Sign) (hn : n < 2 ^ 53) (hk : k ≤ 2045)
    (hle : m * 2 ^ i ≤ n * 2 ^ k) :
    Canonical (UnpackedFloat.round .binary64 sign m ((i : ℤ) - 1074)) ∧
      (grainsOf (UnpackedFloat.round .binary64 sign m ((i : ℤ) - 1074))).natAbs ≤ n * 2 ^ k := by
  have htarget : Format.binary64.targetExponent (totalExponent m ((i : ℤ) - 1074)) =
      max ((m.log2 : ℤ) + 1 + (i - 1074) - 53) (-1074) := rfl
  -- The mantissa is brought to as many bits as there are.
  obtain ⟨d, hd⟩ : ∃ d, i - (m.log2 + i - 52) = d := ⟨_, rfl⟩
  have hshift : ((i : ℤ) - 1074 -
      Format.binary64.targetExponent (totalExponent m ((i : ℤ) - 1074))).toNat = d := by
    rw [htarget]
    omega
  have hexponent : (i : ℤ) - 1074 - (d : ℕ) = ((i - d : ℕ) : ℤ) - 1074 := by omega
  simp only [UnpackedFloat.round, decreaseExponent, hshift, hexponent, Nat.shiftLeft_eq]
  refine roundWithAccuracy_spec sign (.of_exact _) ?_ hn hk ?_
  · refine or_iff_not_imp_left.mpr fun hpos => ?_
    calc 2 ^ 52 ≤ 2 ^ (m.log2 + d) := Nat.pow_le_pow_right (by decide) (by omega)
      _ = 2 ^ m.log2 * 2 ^ d := pow_add _ _ _
      _ ≤ m * 2 ^ d := by gcongr; exact Nat.log2_self_le hm.ne'
  · rw [mul_one, mul_assoc, ← pow_add, Nat.add_sub_cancel' (by omega)]
    exact hle

theorem normalize_spec {mantissa : ℤ} {i : ℕ} (sign : Sign) (hn : n < 2 ^ 53) (hk : k ≤ 2045)
    (hle : mantissa.natAbs * 2 ^ i ≤ n * 2 ^ k) :
    Canonical (UnpackedFloat.normalize .binary64 mantissa ((i : ℤ) - 1074) sign) ∧
      (grainsOf (UnpackedFloat.normalize .binary64 mantissa ((i : ℤ) - 1074) sign)).natAbs ≤
        n * 2 ^ k := by
  rw [UnpackedFloat.normalize]
  rcases lt_trichotomy mantissa 0 with hneg | rfl | hpos
  · rw [Int.compare_eq_lt.mpr hneg]
    refine round_spec (by omega) _ hn hk ?_
    rwa [show (-mantissa).toNat = mantissa.natAbs by omega]
  · exact ⟨trivial, by simp [grainsOf, compare, compareOfLessAndEq]⟩
  · rw [Int.compare_eq_gt.mpr hpos]
    refine round_spec (by omega) _ hn hk ?_
    rwa [show mantissa.toNat = mantissa.natAbs by omega]

theorem apply_mul (sign : Sign) (a : ℤ) (b : ℤ) : sign.apply (a * b) = sign.apply a * b := by
  cases sign <;> simp [Sign.apply]

theorem add_spec (hu : Canonical u) (hv : Canonical v) (hn : n < 2 ^ 53) (hk : k ≤ 2045)
    (hle : (grainsOf u + grainsOf v).natAbs ≤ n * 2 ^ k) :
    Canonical (UnpackedFloat.add .binary64 u v) ∧
      (grainsOf (UnpackedFloat.add .binary64 u v)).natAbs ≤ n * 2 ^ k := by
  cases u with
  | infinity _ | notANumber => exact hu.elim
  | zero sign =>
    cases v with
    | infinity _ | notANumber => exact hv.elim
    | zero sign' => cases sign <;> cases sign' <;> exact ⟨trivial, Nat.zero_le _⟩
    | finite _ _ _ _ =>
      rw [show grainsOf (.zero sign) = 0 from rfl, zero_add] at hle
      exact ⟨hv, hle⟩
  | finite sign m e hm =>
    cases v with
    | infinity _ | notANumber => exact hv.elim
    | zero sign' =>
      rw [show grainsOf (.zero sign') = 0 from rfl, add_zero] at hle
      exact ⟨hu, hle⟩
    | finite sign' m' e' hm' =>
      have hleast : -1074 ≤ min e e' := le_min hu.2.1 hv.2.1
      obtain ⟨i, hi⟩ : ∃ i : ℕ, min e e' = (i : ℤ) - 1074 := ⟨(min e e' + 1074).toNat, by omega⟩
      -- Both mantissas are brought to the smaller exponent.
      have hpart : ∀ (s : Sign) (a : ℕ) (c : ℤ), min e e' ≤ c →
          s.apply ((a <<< (c - min e e').toNat : ℕ) : ℤ) * 2 ^ i =
            s.apply ((a * 2 ^ (c + 1074).toNat : ℕ) : ℤ) := by
        intro s a c hc
        rw [← apply_mul, Nat.shiftLeft_eq]
        push_cast
        rw [mul_assoc, ← pow_add]
        congr 3
        omega
      rw [UnpackedFloat.add]
      simp only [decreaseExponent]
      rw [hi] at hpart ⊢
      refine normalize_spec _ hn hk ?_
      have hsum : (sign.apply ((m <<< (e - ((i : ℤ) - 1074)).toNat : ℕ) : ℤ) +
          sign'.apply ((m' <<< (e' - ((i : ℤ) - 1074)).toNat : ℕ) : ℤ)) * 2 ^ i =
            grainsOf (.finite sign m e hm) + grainsOf (.finite sign' m' e' hm') := by
        rw [add_mul, hpart _ _ _ (hi ▸ min_le_left _ _), hpart _ _ _ (hi ▸ min_le_right _ _)]
        rfl
      have habs := congrArg Int.natAbs hsum
      rw [Int.natAbs_mul, Int.natAbs_pow] at habs
      exact habs.trans_le hle

theorem apply_neg (sign : Sign) (a : ℤ) : (-sign).apply a = -sign.apply a := by
  cases sign
  · exact (neg_neg a).symm
  · rfl

/-- A difference is the sum with the other sign. -/
theorem sub_eq_add_of_canonical (hu : Canonical u) (hv : Canonical v) :
    UnpackedFloat.sub .binary64 u v = UnpackedFloat.add .binary64 u v.neg := by
  cases u with
  | infinity _ | notANumber => exact hu.elim
  | zero sign =>
    cases v with
    | infinity _ | notANumber => exact hv.elim
    | zero _ | finite _ _ _ _ => rfl
  | finite sign m e hm =>
    cases v with
    | infinity _ | notANumber => exact hv.elim
    | zero _ => rfl
    | finite sign' m' e' hm' =>
      simp only [UnpackedFloat.sub, UnpackedFloat.neg, UnpackedFloat.add, apply_neg, sub_eq_add_neg]

theorem canonical_neg (h : Canonical u) : Canonical u.neg := by
  cases u <;> exact h

theorem grainsOf_neg (u : UnpackedFloat) : grainsOf u.neg = -grainsOf u := by
  cases u with
  | finite sign _ _ _ => exact apply_neg _ _
  | _ => rfl

theorem sub_spec (hu : Canonical u) (hv : Canonical v) (hn : n < 2 ^ 53) (hk : k ≤ 2045)
    (hle : (grainsOf u - grainsOf v).natAbs ≤ n * 2 ^ k) :
    Canonical (UnpackedFloat.sub .binary64 u v) ∧
      (grainsOf (UnpackedFloat.sub .binary64 u v)).natAbs ≤ n * 2 ^ k := by
  rw [sub_eq_add_of_canonical hu hv]
  refine add_spec hu (canonical_neg hv) hn hk ?_
  rwa [grainsOf_neg, ← sub_eq_add_neg]

theorem div_spec (sign : Sign) {m e : ℕ} (hm : 0 < m) (hu : Canonical u) (he : 2 ^ e ≤ m) :
    Canonical (UnpackedFloat.div .binary64 u (.finite sign m (-e) hm)) ∧
      (grainsOf (UnpackedFloat.div .binary64 u (.finite sign m (-e) hm))).natAbs ≤
        (grainsOf u).natAbs := by
  cases u with
  | infinity _ | notANumber => exact hu.elim
  | zero _ => exact ⟨trivial, Nat.zero_le _⟩
  | finite sign' m' e' hm' =>
    obtain ⟨hn, hleast, hmost, -⟩ := hu
    rw [UnpackedFloat.div, divCore]
    dsimp only
    have htarget : Format.binary64.targetExponent (totalExponent m' e' - totalExponent m (-e)) =
      max ((m'.log2 : ℤ) + 1 + e' - (m.log2 + 1 + -e) - 53) (-1074) := rfl
    obtain ⟨i, hi⟩ : ∃ i : ℕ, min (e' - -(e : ℤ)) (Format.binary64.targetExponent
        (totalExponent m' e' - totalExponent m (-e))) = (i : ℤ) - 1074 := by
      refine ⟨(min (e' - -(e : ℤ)) (Format.binary64.targetExponent
        (totalExponent m' e' - totalExponent m (-e))) + 1074).toNat, ?_⟩
      rw [htarget]
      omega
    rw [hi]
    rw [htarget] at hi
    obtain ⟨d, hd⟩ : ∃ d : ℕ, (e' - -(e : ℤ) - ((i : ℤ) - 1074)).toNat = d := ⟨_, rfl⟩
    rw [hd, grainsOf, natAbs_apply, Nat.shiftLeft_eq]
    refine roundWithAccuracy_spec _ (.of_fraction hm _) ?_ hn (by omega) ?_
    · refine or_iff_not_imp_left.mpr fun hpos => ?_
      rw [Nat.le_div_iff_mul_le hm]
      calc 2 ^ 52 * m ≤ 2 ^ 52 * 2 ^ (m.log2 + 1) := by gcongr; exact Nat.lt_log2_self.le
        _ = 2 ^ (m.log2 + 53) := by ring
        _ ≤ 2 ^ (m'.log2 + d) := Nat.pow_le_pow_right (by decide) (by omega)
        _ = 2 ^ m'.log2 * 2 ^ d := pow_add _ _ _
        _ ≤ m' * 2 ^ d := by gcongr; exact Nat.log2_self_le hm'.ne'
    · calc m' * 2 ^ d * 2 ^ i = m' * 2 ^ (d + i) := by ring
        _ = m' * 2 ^ ((e' + 1074).toNat + e) := by congr 2; omega
        _ = m' * 2 ^ (e' + 1074).toNat * 2 ^ e := by ring
        _ ≤ m' * 2 ^ (e' + 1074).toNat * m := by gcongr

end Calculations

end SceneFlow
