import Mathlib
import SceneFlow.Json.Basic
import SceneFlow.Proofs.Motion.Range

/-!
# Numbers as doubles

A number of a JSON value is read as a double. A real number is a finite double already, and an
integer has at most 64 bits, so the double that is nearest to it is finite too. A number that has
been read can therefore be written again.

## Main results

* `mul_unitParts`: a finite double is its product with one.
* `isFinite_ofNat`, `isFinite_ofInt`: the double nearest to an integer of 64 bits.
* `Number.isFinite_toFloat`: every number of a JSON value is a finite double.
-/

namespace SceneFlow

open Float.Model Float.Model.UnpackedFloat

/-! ### Parts of doubles -/

section Parts

variable {u : UnpackedFloat}

/-- The parts of the double one. -/
def unitParts : UnpackedFloat :=
  .finite .positive (2 ^ 52) (-52) (by decide)

/-- The exponent of a finite double is the one to which its mantissa is brought. -/
theorem exponent_of_canonical {sign : Sign} {m : ℕ} {e : ℤ} {hm : 0 < m}
    (h : Canonical (.finite sign m e hm)) : max ((m.log2 : ℤ) + e - 52) (-1074) = e := by
  obtain ⟨hlt, hleast, -, hfull⟩ := h
  have hlog : m.log2 < 53 := (Nat.log2_lt hm.ne').mpr hlt
  rcases hleast.eq_or_lt with rfl | hpos
  · omega
  · have := log2_eq_of hlt (hfull hpos)
    omega

/-- A finite double is its product with one. -/
theorem mul_unitParts (h : Canonical u) : UnpackedFloat.mul .binary64 u unitParts = u := by
  cases u with
  | infinity _ | notANumber => exact h.elim
  | zero sign => cases sign <;> rfl
  | finite sign m e hm =>
    have hexponent := exponent_of_canonical h
    have hlog : (m * 2 ^ 52).log2 = m.log2 + 52 := by
      rw [Nat.log2_eq_iff (by positivity), pow_add, add_right_comm, pow_add]
      exact ⟨Nat.mul_le_mul_right _ (Nat.log2_self_le hm.ne'),
        Nat.mul_lt_mul_of_pos_right Nat.lt_log2_self (by decide)⟩
    have hfirst : Format.binary64.targetExponent (totalExponent (m * 2 ^ 52) (e + -52)) = e := by
      change max (((m * 2 ^ 52).log2 : ℤ) + 1 + (e + -52) - 53) (-1074) = e
      rw [hlog]
      omega
    have hsecond : Format.binary64.targetExponent (totalExponent m e) = e := by
      change max ((m.log2 : ℤ) + 1 + e - 53) (-1074) = e
      omega
    -- The bits that the product adds are clear, so rounding takes just them away.
    have hrounded : (ExtendedMantissa.ofMantissaAndAccuracy (m * 2 ^ 52) .exact >>>
        52).roundedMantissa = m := by
      refine le_antisymm (((Stands.of_exact _).shiftRight 52).roundedMantissa_le (by omega)) ?_
      have hlow := Stands.le_roundedMantissa
        (ExtendedMantissa.ofMantissaAndAccuracy (m * 2 ^ 52) .exact >>> 52)
      rwa [Stands.mantissa_shiftRight, mantissa_ofMantissaAndAccuracy,
        Nat.mul_div_cancel _ (by decide)] at hlow
    have hshift : (e - (e + -52)).toNat = 52 := by omega
    have hback : e + -52 + (52 : ℕ) = e := by omega
    have hsame : (ExtendedMantissa.ofMantissaAndAccuracy m .exact >>> 0).mantissa = m := rfl
    simp only [unitParts, UnpackedFloat.mul, roundWithAccuracy, shiftToTargetExponent,
      shiftToExponent, hfirst, hshift, hback, hrounded, hsecond, sub_self, Int.toNat_zero,
      Nat.cast_zero, add_zero, hsame]
    rw [dif_neg hm.ne']
    cases sign <;> rfl

/-- An integer of 64 bits is rounded to the parts of a finite double. -/
theorem canonical_normalize {n : ℕ} (h : n ≤ 2 ^ 64) :
    Canonical (UnpackedFloat.normalize .binary64 n 0 .positive) := by
  have hle : (n : ℤ).natAbs * 2 ^ 1074 ≤ 1 * 2 ^ (64 + 1074) := by
    rw [Int.natAbs_natCast, one_mul, pow_add]
    gcongr
  exact (normalize_spec (i := 1074) .positive (by decide) (by decide) hle).1

/-- A large integer of 64 bits goes through its decimal digits, and is rounded in the same way. -/
theorem canonical_ofScientific {n : ℕ} (hpos : n ≠ 0) (h : n ≤ 2 ^ 64) :
    Canonical (UnpackedFloat.ofScientific .binary64 n 0) := by
  have hpow : (0 : ℤ) ≤ 2 ^ Format.binary64.exponentBits := by positivity
  have hbits : Format.binary64.mantissaBits = 53 := rfl
  have hsign : Sign.positive * Sign.positive = Sign.positive := rfl
  have hexponent : -((53 : ℕ) : ℤ) + 0 = (1021 : ℕ) - 1074 := by decide
  rw [UnpackedFloat.ofScientific, dif_neg hpos, if_neg (by decide), if_neg (by omega),
    if_pos le_rfl, UnpackedFloat.mul, hsign, hbits, hexponent, Int.toNat_zero, pow_zero, mul_one,
    Nat.shiftLeft_eq]
  refine (roundWithAccuracy_spec (n := 1) (k := 64 + 53 + 1021) .positive (.of_exact _) (.inr ?_)
    (by decide) (by decide) ?_).1
  · calc 2 ^ 52 ≤ 1 * 2 ^ 53 := by decide
      _ ≤ n * 2 ^ 53 := Nat.mul_le_mul_right _ (Nat.pos_of_ne_zero hpos)
  · rw [one_mul, mul_one, pow_add, pow_add]
    gcongr

end Parts

/-! ### Doubles -/

section Doubles

theorem unpack_mul (x y : Float) :
    (x * y).toModel.unpack = UnpackedFloat.unpack .binary64 (UnpackedFloat.pack .binary64
      (UnpackedFloat.mul .binary64 x.toModel.unpack y.toModel.unpack)) :=
  rfl

theorem unpack_neg (x : Float) :
    (-x).toModel.unpack = UnpackedFloat.unpack .binary64 (UnpackedFloat.pack .binary64
      x.toModel.unpack.neg) :=
  rfl

theorem unpack_toFloat (n : UInt64) :
    n.toFloat.toModel.unpack = UnpackedFloat.unpack .binary64 (UnpackedFloat.pack .binary64
      (UnpackedFloat.normalize .binary64 n.toNat 0 .positive)) :=
  rfl

theorem unpack_ofScientific (n : ℕ) (e : ℤ) :
    (Float.ofModel (.ofScientific n e)).toModel.unpack = UnpackedFloat.unpack .binary64
      (UnpackedFloat.pack .binary64 (UnpackedFloat.ofScientific .binary64 n e)) :=
  rfl

theorem unpack_powersOfTen_zero :
    (Float.exactlyRepresentablePowersOfTen[0]).toModel.unpack = unitParts :=
  rfl

/-- The double nearest to a natural number of 64 bits is finite. -/
theorem isFinite_ofNat {n : ℕ} (h : n ≤ 2 ^ 64) : (Float.ofNat n).isFinite = true := by
  change (Float.ofScientific n false 0).isFinite = true
  rw [Float.ofScientific]
  split
  · have hcanonical := canonical_normalize n.toUInt64.toNat_lt.le
    dsimp only
    rw [if_neg (by decide)]
    refine (isFinite_of_canonical hcanonical ?_).1
    rw [unpack_mul, unpack_powersOfTen_zero, unpack_toFloat, unpack_pack hcanonical,
      mul_unitParts hcanonical, unpack_pack hcanonical]
  · rename_i hlarge
    have hpos : n ≠ 0 := by
      rintro rfl
      exact hlarge (by decide)
    exact (isFinite_of_canonical (canonical_ofScientific hpos h) (unpack_ofScientific n 0)).1

/-- The double nearest to an integer of 64 bits is finite. -/
theorem isFinite_ofInt {n : ℤ} (h : n.natAbs ≤ 2 ^ 64) : (Float.ofInt n).isFinite = true := by
  cases n with
  | ofNat n => exact isFinite_ofNat h
  | negSucc n =>
    have hcanonical := canonical_neg (canonical_of_isFinite (isFinite_ofNat h))
    exact (isFinite_of_canonical hcanonical (unpack_neg _)).1

end Doubles

/-- Every number of a JSON value is a finite double. -/
theorem Number.isFinite_toFloat (number : Number) : number.toFloat.isFinite = true := by
  cases number with
  | int value fits => exact isFinite_ofInt (by omega)
  | real value finite => exact finite

end SceneFlow
