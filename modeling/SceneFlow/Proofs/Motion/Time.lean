import Mathlib
import SceneFlow.Motion.Time

/-!
# Times as doubles

The times of objects are doubles from zero to infinity. No such double is a NaN or the negative
zero, so they are ordered like their bit patterns, and the later and the earlier of some times do
not depend on the order in which they are compared. A time to which a span is added is a time.

## Main definitions

* `IsTime`: a double from zero to infinity.
* `IsSpan`: a double that can be added to times: neither a NaN nor less than zero.
* `timeRank`: the place of a time among all times.
* `Unpacks`: what a bit pattern stands for.

## Main results

* `IsTime.lt_iff`: times are ordered like their bit patterns.
* `IsTime.add`: a time and a span make a time.
* `timeRank_foldl_later`: the latest of some times, in any order.
-/

namespace SceneFlow

open Float.Model Float.Model.UnpackedFloat

/-- A double from zero to infinity; the negative zero is none. -/
def IsTime (x : Float) : Prop :=
  x.toBits.toNat ≤ 0x7FF0000000000000

instance (x : Float) : Decidable (IsTime x) :=
  inferInstanceAs (Decidable (_ ≤ _))

/-- A double that can be added to times: neither a NaN nor less than zero. -/
def IsSpan (x : Float) : Prop :=
  x.isNaN = false ∧ ¬ x < 0

/-- The place of a time among all times; other doubles are taken for zero. -/
def timeRank (x : Float) : Nat :=
  if IsTime x then x.toBits.toNat else 0

/-! ### Doubles by their parts -/

/-- A number that carries the positive sign. -/
def Forward : UnpackedFloat → Prop
  | .notANumber => False
  | .infinity sign | .zero sign | .finite sign _ _ _ => sign = .positive

/-- A number that is a NaN or carries the negative sign, apart from zero. -/
def Backward : UnpackedFloat → Prop
  | .notANumber => True
  | .zero _ => False
  | .infinity sign | .finite sign _ _ _ => sign = .negative

/-- The parts of a double whose bit pattern is a number. -/
def PartsOf (bits : Nat) : UnpackedFloat → Prop
  | .notANumber => False
  | .infinity _ => bits = 0x7FF0000000000000
  | .zero _ => bits = 0
  | .finite _ mantissa exponent _ =>
    (exponent + 1074) * 2 ^ 52 + mantissa = bits ∧ mantissa < 2 ^ 53 ∧ -1074 ≤ exponent ∧
      exponent ≤ 971 ∧ (-1074 < exponent → 2 ^ 52 ≤ mantissa)

section Bits

variable (b : BitVec Format.binary64.numBits)

theorem toNat_unpackMantissa : (unpackMantissa b).toNat = b.toNat % 2 ^ 52 := by
  simp [unpackMantissa, BitVec.extractLsb]

theorem toNat_unpackExponent : (unpackExponent b).toNat = b.toNat / 2 ^ 52 % 2 ^ 11 := by
  simp [unpackExponent, BitVec.extractLsb, Nat.shiftRight_eq_div_pow]

theorem toNat_unpackSign : (unpackSign b).toNat = b.toNat / 2 ^ 63 := by
  have hlt : b.toNat < 2 ^ 64 := b.isLt
  simp [unpackSign, BitVec.extractLsb, Nat.shiftRight_eq_div_pow]
  omega

/-- The mantissa of a normal number has one bit more than is stored. -/
theorem toNat_implicit : (1#1 ++ unpackMantissa b).toNat = 2 ^ 52 + b.toNat % 2 ^ 52 := by
  rw [BitVec.toNat_append, ← Nat.shiftLeft_add_eq_or_of_lt (BitVec.isLt _), toNat_unpackMantissa]
  rfl

theorem sign_eq_positive_iff :
    Sign.ofBitVec (unpackSign b) = .positive ↔ b.toNat < 2 ^ 63 := by
  have hzero : unpackSign b = 0#1 ↔ b.toNat / 2 ^ 63 = 0 := by
    rw [← BitVec.toNat_inj, toNat_unpackSign]
    rfl
  simp only [Sign.ofBitVec, hzero]
  split <;> simp <;> omega

/-- What a bit pattern stands for, by its sign, its exponent and its mantissa. -/
inductive Unpacks : UnpackedFloat → Prop where
  | infinity (hexponent : b.toNat / 2 ^ 52 % 2 ^ 11 = 2047) (hmantissa : b.toNat % 2 ^ 52 = 0) :
      Unpacks (.infinity (.ofBitVec (unpackSign b)))
  | notANumber (hexponent : b.toNat / 2 ^ 52 % 2 ^ 11 = 2047) (hmantissa : b.toNat % 2 ^ 52 ≠ 0) :
      Unpacks .notANumber
  | zero (hexponent : b.toNat / 2 ^ 52 % 2 ^ 11 = 0) (hmantissa : b.toNat % 2 ^ 52 = 0) :
      Unpacks (.zero (.ofBitVec (unpackSign b)))
  /-- The least exponent stands for that above it, and the mantissa is as it is stored. -/
  | subnormal {mantissa : Nat} {exponent : Int} (hpos : 0 < mantissa)
      (hexponent : b.toNat / 2 ^ 52 % 2 ^ 11 = 0) (hmantissa : b.toNat % 2 ^ 52 = mantissa)
      (hleast : exponent = -1074) :
      Unpacks (.finite (.ofBitVec (unpackSign b)) mantissa exponent hpos)
  /-- The mantissa has a bit that is not stored. -/
  | normal {mantissa : Nat} {exponent : Int} (hpos : 0 < mantissa)
      (hleast : 0 < b.toNat / 2 ^ 52 % 2 ^ 11) (hmost : b.toNat / 2 ^ 52 % 2 ^ 11 < 2047)
      (hmantissa : 2 ^ 52 + b.toNat % 2 ^ 52 = mantissa)
      (hexponent : exponent = (b.toNat / 2 ^ 52 % 2 ^ 11 : ℕ) - 1075) :
      Unpacks (.finite (.ofBitVec (unpackSign b)) mantissa exponent hpos)

theorem unpacks_unpack : Unpacks b (UnpackedFloat.unpack .binary64 b) := by
  have hexponent := toNat_unpackExponent b
  have hmantissa := toNat_unpackMantissa b
  have hbias : ((Format.binary64.exponentBias : ℕ) : ℤ) = 1023 := rfl
  have hbits : ((Format.binary64.mantissaBitsWithoutImplicit : ℕ) : ℤ) = 52 := rfl
  have hzero : unpackMantissa b = 0#_ ↔ b.toNat % 2 ^ 52 = 0 := by
    rw [← BitVec.toNat_inj, hmantissa]
    rfl
  have hleast : unpackExponent b = 0#_ ↔ b.toNat / 2 ^ 52 % 2 ^ 11 = 0 := by
    rw [← BitVec.toNat_inj, hexponent]
    rfl
  have hmost : unpackExponent b = -1#_ ↔ b.toNat / 2 ^ 52 % 2 ^ 11 = 2047 := by
    rw [← BitVec.toNat_inj, hexponent]
    rfl
  rw [UnpackedFloat.unpack]
  dsimp only
  split
  · rename_i hall
    split
    · exact .infinity (hmost.mp hall) (hzero.mp ‹_›)
    · exact .notANumber (hmost.mp hall) (mt hzero.mpr ‹_›)
  · rename_i hall
    split
    · rename_i hnone
      split
      · exact .zero (hleast.mp hnone) (hzero.mp ‹_›)
      · refine .subnormal _ (hleast.mp hnone) hmantissa.symm ?_
        rw [hexponent, hleast.mp hnone, hbias, hbits]
        rfl
    · rename_i hsome
      have hne := mt hmost.mpr hall
      refine .normal _ (Nat.pos_of_ne_zero (mt hleast.mpr hsome)) (by omega)
        (toNat_implicit b).symm ?_
      rw [hexponent, hbias, hbits]
      rfl

/-- A bit pattern is that of a time exactly if what it stands for carries the positive sign. -/
theorem forward_unpack_iff :
    Forward (UnpackedFloat.unpack .binary64 b) ↔ b.toNat ≤ 0x7FF0000000000000 := by
  have hlt : b.toNat < 2 ^ 64 := b.isLt
  have hsign := sign_eq_positive_iff b
  have hunpacks := unpacks_unpack b
  generalize UnpackedFloat.unpack .binary64 b = u at hunpacks ⊢
  cases hunpacks with
  | notANumber hexponent hmantissa =>
    simp only [Forward, false_iff]
    omega
  | infinity | zero | subnormal | normal =>
    rw [Forward, hsign]
    omega

theorem partsOf_unpack (h : b.toNat ≤ 0x7FF0000000000000) :
    PartsOf b.toNat (UnpackedFloat.unpack .binary64 b) := by
  have hunpacks := unpacks_unpack b
  generalize UnpackedFloat.unpack .binary64 b = u at hunpacks ⊢
  cases hunpacks with
  | infinity | notANumber | zero | subnormal | normal =>
    rw [PartsOf]
    omega

end Bits

/-! ### What is packed carries the sign that it has -/

theorem unpackSign_packComponents {spec : Format} (sign : Sign)
    (exponent : BitVec spec.exponentBits) (mantissa : BitVec spec.mantissaBitsWithoutImplicit) :
    unpackSign (packComponents spec sign exponent mantissa) = sign.toBitVec := by
  refine BitVec.eq_of_getLsbD_eq fun i hi => ?_
  obtain rfl : i = 0 := by omega
  simp [unpackSign, packComponents, BitVec.getLsbD_append, BitVec.getElem_append]

theorem ofBitVec_toBitVec (sign : Sign) : Sign.ofBitVec sign.toBitVec = sign := by
  cases sign <;> rfl

theorem forward_unpack_packComponents {exponent : BitVec Format.binary64.exponentBits}
    {mantissa : BitVec Format.binary64.mantissaBitsWithoutImplicit}
    (h : exponent = -1#_ → mantissa = 0#_) :
    Forward (UnpackedFloat.unpack .binary64
      (packComponents .binary64 .positive exponent mantissa)) := by
  have hsign := ofBitVec_toBitVec .positive
  rw [← unpackSign_packComponents .positive exponent mantissa] at hsign
  rw [UnpackedFloat.unpack]
  simp only [unpackExponent_packComponents, unpackMantissa_packComponents]
  split
  · rename_i hall
    rw [if_pos (h hall)]
    exact hsign
  · split
    · split <;> exact hsign
    · exact hsign

/-- What is packed with the positive sign is a time. -/
theorem Forward.unpack_pack {u : UnpackedFloat} (h : Forward u) :
    Forward (UnpackedFloat.unpack .binary64 (UnpackedFloat.pack .binary64 u)) := by
  cases u with
  | notANumber => exact h.elim
  | infinity sign =>
    obtain rfl : sign = .positive := h
    exact forward_unpack_packComponents fun _ => rfl
  | zero sign =>
    obtain rfl : sign = .positive := h
    exact forward_unpack_packComponents fun _ => rfl
  | finite sign mantissa exponent hpos =>
    obtain rfl : sign = .positive := h
    rw [UnpackedFloat.pack]
    dsimp only
    split
    · exact forward_unpack_packComponents fun _ => rfl
    · rename_i hsmall
      split
      · refine forward_unpack_packComponents fun hall => ?_
        have hall := congrArg BitVec.toNat hall
        simp at hsmall hall
        omega
      · refine forward_unpack_packComponents fun hall => ?_
        simp at hall

/-! ### Sums -/

theorem forward_roundWithAccuracy (spec : Format) (mantissa : Nat) (exponent : Int)
    (accuracy : Accuracy) :
    Forward (roundWithAccuracy spec .positive mantissa exponent accuracy) := by
  rw [roundWithAccuracy]
  dsimp only
  split <;> rfl

theorem forward_normalize (spec : Format) {mantissa : Int} (h : 0 < mantissa) (exponent : Int)
    (sign : Sign) : Forward (UnpackedFloat.normalize spec mantissa exponent sign) := by
  rw [UnpackedFloat.normalize, Int.compare_eq_gt.mpr h]
  exact forward_roundWithAccuracy _ _ _ _

theorem Forward.add {u other : UnpackedFloat} (h : Forward u) (hother : ¬ Backward other) :
    Forward (UnpackedFloat.add .binary64 u other) := by
  cases u with
  | notANumber => exact h.elim
  | infinity sign =>
    obtain rfl : sign = .positive := h
    cases other with
    | notANumber => exact absurd trivial hother
    | infinity sign =>
      cases sign with
      | negative => exact absurd rfl hother
      | positive => rfl
    | zero _ | finite _ _ _ _ => rfl
  | zero sign =>
    obtain rfl : sign = .positive := h
    cases other with
    | notANumber => exact absurd trivial hother
    | infinity sign | finite sign _ _ _ =>
      cases sign with
      | negative => exact absurd rfl hother
      | positive => rfl
    | zero sign => cases sign <;> rfl
  | finite sign mantissa exponent hpos =>
    obtain rfl : sign = .positive := h
    cases other with
    | notANumber => exact absurd trivial hother
    | infinity sign =>
      cases sign with
      | negative => exact absurd rfl hother
      | positive => rfl
    | zero sign => rfl
    | finite sign mantissa' exponent' hpos' =>
      cases sign with
      | negative => exact absurd rfl hother
      | positive =>
        refine forward_normalize _ ?_ _ _
        have hshift : 0 < mantissa <<< (exponent - min exponent exponent').toNat := by
          rw [Nat.shiftLeft_eq]
          positivity
        exact Int.add_pos_of_pos_of_nonneg (Int.natCast_pos.mpr hshift) (Int.natCast_nonneg _)

/-! ### Times -/

theorem isTime_iff_forward (x : Float) : IsTime x ↔ Forward x.toModel.unpack :=
  (forward_unpack_iff x.toBits.toBitVec).symm

theorem float_lt_iff (x y : Float) :
    x < y ↔ UnpackedFloat.compare x.toModel.unpack y.toModel.unpack = some .lt := by
  change decide (UnpackedFloat.lt _ _ = true) = true ↔ _
  rw [decide_eq_true_iff, UnpackedFloat.lt, beq_iff_eq]

theorem unpack_zero : (0 : Float).toModel.unpack = .zero .positive := by
  rfl

theorem isTime_zero : IsTime 0 := by
  decide

theorem isSpan_iff (x : Float) : IsSpan x ↔ ¬ Backward x.toModel.unpack := by
  rw [IsSpan, float_lt_iff, unpack_zero]
  change UnpackedFloat.isNaN x.toModel.unpack = false ∧ _ ↔ _
  cases x.toModel.unpack with
  | notANumber => simp [Backward, UnpackedFloat.isNaN]
  | zero sign => simp [Backward, UnpackedFloat.isNaN, UnpackedFloat.compare]
  | infinity sign | finite sign _ _ _ =>
    cases sign <;> simp [Backward, UnpackedFloat.isNaN, UnpackedFloat.compare]

/-- A finite number that is not negative is a span. -/
theorem isSpan_of_isFinite {x : Float} (hfinite : x.isFinite = true) (h : ¬ x < 0) : IsSpan x := by
  refine ⟨?_, h⟩
  change UnpackedFloat.isFinite x.toModel.unpack = true at hfinite
  change UnpackedFloat.isNaN x.toModel.unpack = false
  cases hx : x.toModel.unpack <;>
    simp [hx, UnpackedFloat.isFinite, UnpackedFloat.isNaN] at hfinite ⊢

namespace IsTime

variable {x y : Float}

theorem isSpan (h : IsTime x) : IsSpan x := by
  rw [isTime_iff_forward] at h
  rw [isSpan_iff]
  cases hx : x.toModel.unpack with
  | notANumber => exact (hx ▸ h).elim
  | zero sign => exact id
  | infinity sign | finite sign _ _ _ =>
    rw [hx] at h
    obtain rfl : sign = .positive := h
    simp [Backward]

/-- A time to which a span is added is a time. -/
theorem add (h : IsTime x) (hy : IsSpan y) : IsTime (x + y) := by
  rw [isTime_iff_forward] at h ⊢
  rw [isSpan_iff] at hy
  exact (h.add hy).unpack_pack

/-- What is later than a time is a time. -/
theorem of_lt (h : IsTime x) (hlt : x < y) : IsTime y := by
  rw [isTime_iff_forward] at h ⊢
  rw [float_lt_iff] at hlt
  cases hx : x.toModel.unpack with
  | notANumber => exact (hx ▸ h).elim
  | infinity sign | zero sign | finite sign _ _ _ =>
    rw [hx] at h hlt
    obtain rfl : sign = .positive := h
    cases hy : y.toModel.unpack with
    | notANumber => simp [hy, UnpackedFloat.compare] at hlt
    | zero sign => simp [hy, UnpackedFloat.compare] at hlt
    | infinity sign | finite sign _ _ _ =>
      cases sign with
      | positive => rfl
      | negative => simp [hy, UnpackedFloat.compare, compare] at hlt

/-- Times are ordered like their bit patterns. -/
theorem lt_iff (h : IsTime x) (hy : IsTime y) : x < y ↔ x.toBits.toNat < y.toBits.toNat := by
  have hparts : PartsOf x.toBits.toNat x.toModel.unpack := partsOf_unpack x.toBits.toBitVec h
  have hparts' : PartsOf y.toBits.toNat y.toModel.unpack := partsOf_unpack y.toBits.toBitVec hy
  rw [isTime_iff_forward] at h hy
  rw [float_lt_iff]
  cases hx : x.toModel.unpack with
  | notANumber => exact (hx ▸ h).elim
  | infinity sign | zero sign | finite sign mantissa exponent _ =>
    rw [hx] at h hparts
    obtain rfl : sign = .positive := h
    cases hy' : y.toModel.unpack with
    | notANumber => exact (hy' ▸ hy).elim
    | infinity sign | zero sign | finite sign mantissa' exponent' _ =>
      rw [hy'] at hy hparts'
      obtain rfl : sign = .positive := hy
      simp only [PartsOf] at hparts hparts'
      simp [UnpackedFloat.compare, Ordering.then_eq_lt, Std.compare_eq_lt]
      omega

/-- Times of one rank are the same. -/
theorem eq_of_timeRank (h : IsTime x) (hy : IsTime y) (heq : timeRank x = timeRank y) : x = y := by
  rw [timeRank, timeRank, if_pos h, if_pos hy] at heq
  obtain ⟨⟨bits, _⟩⟩ := x
  obtain ⟨⟨bits', _⟩⟩ := y
  obtain rfl : bits = bits' := UInt64.toNat_inj.mp heq
  rfl

theorem later (h : IsTime x) (y : Float) : IsTime (later x y) := by
  rw [SceneFlow.later]
  split
  · rename_i hlt
    exact h.of_lt hlt
  · exact h

theorem timeRank_later (h : IsTime x) (y : Float) :
    timeRank (SceneFlow.later x y) = max (timeRank x) (timeRank y) := by
  rw [SceneFlow.later]
  by_cases hy : IsTime y
  · split
    · rename_i hlt
      rw [h.lt_iff hy] at hlt
      simp only [timeRank, if_pos h, if_pos hy]
      omega
    · rename_i hle
      rw [h.lt_iff hy] at hle
      simp only [timeRank, if_pos h, if_pos hy]
      omega
  · rw [if_neg fun hlt => hy (h.of_lt hlt)]
    simp [timeRank, hy]

theorem earlier (h : IsTime x) (hy : IsTime y) : IsTime (earlier x y) := by
  rw [SceneFlow.earlier]
  split
  · exact hy
  · exact h

theorem timeRank_earlier (h : IsTime x) (hy : IsTime y) :
    timeRank (SceneFlow.earlier x y) = min (timeRank x) (timeRank y) := by
  simp only [SceneFlow.earlier, hy.lt_iff h]
  split <;> simp only [timeRank, if_pos h, if_pos hy] <;> omega

end IsTime

/-! ### The latest and the earliest time -/

/-- The latest of a time and some doubles is a time; doubles that are no times do not count. -/
theorem timeRank_foldl_later {x : Float} (h : IsTime x) (list : List Float) :
    IsTime (list.foldl later x) ∧
      timeRank (list.foldl later x) = (list.map timeRank).foldl max (timeRank x) := by
  induction list generalizing x with
  | nil => exact ⟨h, rfl⟩
  | cons y rest ih =>
    rw [List.foldl_cons, List.map_cons, List.foldl_cons, ← h.timeRank_later y]
    exact ih (h.later y)

/-- The latest of some times does not depend on their order. -/
theorem foldl_later_eq_of_perm {x : Float} (h : IsTime x) {list other : List Float}
    (hperm : list.Perm other) : list.foldl later x = other.foldl later x := by
  obtain ⟨htime, hrank⟩ := timeRank_foldl_later h list
  obtain ⟨htime', hrank'⟩ := timeRank_foldl_later h other
  refine htime.eq_of_timeRank htime' ?_
  rw [hrank, hrank']
  exact (hperm.map timeRank).foldl_eq _

/-- The rank of a time that may be missing; a missing time comes last. -/
def timeRank? (x : Option Float) : WithTop Nat :=
  x.map timeRank

theorem timeRank?_earliest? {x y : Option Float} (h : ∀ a ∈ x, IsTime a) (hy : ∀ a ∈ y, IsTime a) :
    (∀ a ∈ earliest? x y, IsTime a) ∧
      timeRank? (earliest? x y) = min (timeRank? x) (timeRank? y) := by
  match x, y with
  | none, _ => exact ⟨hy, (min_eq_right le_top).symm⟩
  | some a, none => exact ⟨h, (min_eq_left le_top).symm⟩
  | some a, some b =>
    have ha := h a rfl
    have hb := hy b rfl
    refine ⟨fun c hc => Option.some.inj hc ▸ ha.earlier hb, ?_⟩
    change ((timeRank (earlier a b) : Nat) : WithTop Nat) = min ((timeRank a : Nat) : WithTop Nat) _
    rw [ha.timeRank_earlier hb]
    exact WithTop.coe_min _ _

theorem eq_of_timeRank? {x y : Option Float} (h : ∀ a ∈ x, IsTime a) (hy : ∀ a ∈ y, IsTime a)
    (heq : timeRank? x = timeRank? y) : x = y := by
  match x, y with
  | none, none => rfl
  | none, some _ | some _, none => cases heq
  | some a, some b =>
    rw [(h a rfl).eq_of_timeRank (hy b rfl) (Option.some.inj heq)]

end SceneFlow
