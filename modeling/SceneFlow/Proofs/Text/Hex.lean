import Mathlib
import SceneFlow.Proofs.Text.Blank
import SceneFlow.Text.Hex

/-!
# Hexadecimal digits that are written and read

A number is written with lower-case digits only. The value of each is read back, and none of them is
white space. Digits of either case are read, and nothing else.

## Main definitions

* `Text.isLowerHex`: a lower-case hexadecimal digit.
* `Text.isHex`: a hexadecimal digit in either case.
* `Text.IsHexDigit`: a character is the hexadecimal digit of a number.

## Main results

* `Text.hexValue?_hexDigit`: a digit that is written is read back.
* `Text.isLowerHex_of_mem_hexDigits`: only lower-case digits are written.
* `Text.hexValue?_eq_some_iff`: which digits are read, and as what.
-/

namespace SceneFlow.Text

/-- A lower-case hexadecimal digit. -/
def isLowerHex (c : Char) : Bool :=
  c.isDigit || ('a' ≤ c && c ≤ 'f')

/-- A digit that is written is read back. -/
theorem hexValue?_hexDigit : ∀ n < 16, hexValue? (hexDigit n) = some n := by
  decide

theorem isLowerHex_hexDigit : ∀ n < 16, isLowerHex (hexDigit n) = true := by
  decide

/-- Only lower-case digits are written. -/
theorem isLowerHex_of_mem_hexDigits {width n : ℕ} {c : Char} (h : c ∈ hexDigits width n) :
    isLowerHex c = true := by
  induction width generalizing n with
  | zero => cases h
  | succ width ih =>
    rw [hexDigits, List.mem_append, List.mem_singleton] at h
    rcases h with h | rfl
    · exact ih h
    · exact isLowerHex_hexDigit _ (Nat.mod_lt _ (by decide))

/-- The code points of lower-case hexadecimal digits. -/
theorem toNat_of_isLowerHex {c : Char} (h : isLowerHex c = true) :
    48 ≤ c.toNat ∧ c.toNat ≤ 57 ∨ 97 ≤ c.toNat ∧ c.toNat ≤ 102 := by
  simp only [isLowerHex, Char.isDigit, Bool.or_eq_true, Bool.and_eq_true, decide_eq_true_eq,
    Char.le_def, UInt32.le_iff_toNat_le] at h
  exact h

/-! ### Digits that are read -/

/-- A character is the hexadecimal digit of a number, in either case. -/
def IsHexDigit (c : Char) (n : ℕ) : Prop :=
  n < 16 ∧ (c = n.digitChar ∨ c = n.digitChar.toUpper)

/-- A hexadecimal digit in either case. -/
def isHex (c : Char) : Bool :=
  isLowerHex c || ('A' ≤ c && c ≤ 'F')

/-- The value of a character is read if it is the digit of a number. -/
theorem hexValue?_eq_some_iff {c : Char} {n : ℕ} : hexValue? c = some n ↔ IsHexDigit c n := by
  have hdigit : ∀ n < 16, hexValue? n.digitChar = some n ∧
      hexValue? n.digitChar.toUpper = some n := by decide
  constructor
  · intro h
    have hsmall : ∀ n < 10, n.digitChar.toNat = 48 + n := by decide
    have hlower : ∀ n < 16, 10 ≤ n → n.digitChar.toNat = 87 + n := by decide
    have hupper : ∀ n < 16, 10 ≤ n → n.digitChar.toUpper.toNat = 55 + n := by decide
    simp only [hexValue?] at h
    split at h
    · obtain rfl := Option.some.inj h
      refine ⟨by omega, .inl (Char.toNat_inj.mp ?_)⟩
      rw [hsmall _ (by omega)]
      omega
    · split at h
      · obtain rfl := Option.some.inj h
        refine ⟨by omega, .inl (Char.toNat_inj.mp ?_)⟩
        rw [hlower _ (by omega) (by omega)]
        omega
      · split at h
        · obtain rfl := Option.some.inj h
          refine ⟨by omega, .inr (Char.toNat_inj.mp ?_)⟩
          rw [hupper _ (by omega) (by omega)]
          omega
        · cases h
  · rintro ⟨hn, rfl | rfl⟩
    · exact (hdigit n hn).1
    · exact (hdigit n hn).2

/-- The code points of hexadecimal digits. -/
theorem isHex_iff_toNat {c : Char} : isHex c = true ↔
    48 ≤ c.toNat ∧ c.toNat ≤ 57 ∨ 97 ≤ c.toNat ∧ c.toNat ≤ 102 ∨ 65 ≤ c.toNat ∧ c.toNat ≤ 70 := by
  simp only [isHex, isLowerHex, Char.isDigit, Bool.or_eq_true, Bool.and_eq_true, decide_eq_true_eq,
    Char.le_def, UInt32.le_iff_toNat_le, or_assoc]
  exact Iff.rfl

/-- The hexadecimal digits are the digits of numbers. -/
theorem isHex_iff {c : Char} : isHex c = true ↔ ∃ n, IsHexDigit c n := by
  simp only [← hexValue?_eq_some_iff, ← Option.isSome_iff_exists, isHex_iff_toNat, hexValue?]
  split
  · simp [*]
  · split
    · simp [*]
    · split
      · simp [*]
      · simp [*]

theorem isBlank_of_isHex {c : Char} (h : isHex c = true) : isBlank c = false := by
  have hcode := isHex_iff_toNat.mp h
  simp only [isBlank, inRanges, blankRanges, List.any_cons, List.any_nil, Bool.or_false,
    Bool.or_eq_false_iff, Bool.and_eq_false_iff, decide_eq_false_iff_not]
  omega

theorem isBlank_of_isLowerHex {c : Char} (h : isLowerHex c = true) : isBlank c = false :=
  isBlank_of_isHex (by rw [isHex, h, Bool.true_or])

end SceneFlow.Text
