import Mathlib
import SceneFlow.Decimal.Style
import SceneFlow.Proofs.Decimal.Shortest

/-!
# The text of a double

Both forms of a decimal show its value, and only the form with an exponent has the letter `e`. Since
a decimal that is written belongs to one double only, two finite doubles with the same text are the
same, the sign of a zero included.

## Main results

* `Scientific.value_eq_of_plain`, `Scientific.eq_of_withExponent`: what is written shows the value.
* `Style.render_inj`: a text belongs to one finite double only.
-/

namespace SceneFlow.Decimal

open Float.Model (UnpackedFloat)

/-- The characters of a number without a sign and an exponent. -/
def isPointed (c : Char) : Bool :=
  c.isDigit || c == '.'

/-- The characters of a number. -/
def isNumeral (c : Char) : Bool :=
  isPointed c || c == '-' || c == '+' || c == 'e'

theorem isPointed_of_isDigit {c : Char} (h : c.isDigit = true) : isPointed c = true := by
  rw [isPointed, h, Bool.true_or]

theorem isNumeral_of_isPointed {c : Char} (h : isPointed c = true) : isNumeral c = true := by
  rw [isNumeral, h, Bool.true_or, Bool.true_or, Bool.true_or]

theorem isDigit_of_mem_digitChars {n : ℕ} {c : Char} (h : c ∈ digitChars n) : c.isDigit = true :=
  Nat.isDigit_of_mem_toDigits (by decide) (by decide) h

theorem point_notMem_of_isDigit {cs : List Char} (h : ∀ c ∈ cs, c.isDigit = true) : '.' ∉ cs :=
  fun hmem => absurd (h _ hmem) (by decide)

theorem digitChars_inj {m n : ℕ} (h : digitChars m = digitChars n) : m = n := by
  rw [← Nat.ofDigitChars_ten_toDigits (n := m), ← Nat.ofDigitChars_ten_toDigits (n := n)]
  exact congrArg (Nat.ofDigitChars 10 · 0) h

namespace Scientific

variable {d d' : Scientific}

/-! ### Without an exponent -/

/-- The text is a decimal with a point: digits on both sides of it, and the value of the decimal is
that of all digits, divided by the power of ten of those behind the point. -/
theorem exists_plain (d : Scientific) : ∃ whole fraction, d.plain true = whole ++ '.' :: fraction ∧
    (∀ c ∈ whole ++ fraction, c.isDigit = true) ∧
    d.value = Nat.ofDigitChars 10 (whole ++ fraction) 0 / 10 ^ fraction.length := by
  have hdigits : ∀ c ∈ digitChars d.digits, c.isDigit = true := fun _ => isDigit_of_mem_digitChars
  have hzeros : ∀ n, ∀ c ∈ List.replicate n '0', c.isDigit = true := fun n c hc =>
    List.eq_of_mem_replicate hc ▸ rfl
  have hread : Nat.ofDigitChars 10 (digitChars d.digits) 0 = d.digits :=
    Nat.ofDigitChars_ten_toDigits
  rw [plain]
  split
  · rename_i hnonneg
    obtain ⟨n, hn⟩ := Int.eq_ofNat_of_zero_le hnonneg
    refine ⟨digitChars d.digits ++ List.replicate d.exponent.toNat '0', ['0'], by simp, ?_, ?_⟩
    · simpa [or_imp, forall_and] using hdigits
    · have happend : digitChars d.digits ++ List.replicate n '0' ++ ['0']
          = digitChars d.digits ++ List.replicate (n + 1) '0' := by
        rw [List.append_assoc, List.replicate_succ']
      rw [hn, Int.toNat_natCast, happend, Nat.ofDigitChars_append, hread,
        Nat.ofDigitChars_replicate_zero, value, hn, zpow_natCast]
      push_cast
      rw [List.length_singleton, pow_one, pow_succ]
      ring
  · rename_i hneg
    have hvalue : ∀ n : ℕ, (n : ℤ) = -d.exponent → d.value = d.digits / 10 ^ n := fun n hn => by
      rw [value, show d.exponent = -n by omega, zpow_neg, zpow_natCast, div_eq_mul_inv]
    split
    · rename_i hwhole
      refine ⟨_, _, rfl, by rwa [List.take_append_drop], ?_⟩
      rw [List.take_append_drop, hread]
      exact hvalue _ (by rw [List.length_drop]; omega)
    · rename_i hwhole
      refine ⟨['0'], List.replicate _ '0' ++ digitChars d.digits, rfl, ?_, ?_⟩
      · rw [List.forall_mem_append, List.forall_mem_append]
        exact ⟨hzeros 1, hzeros _, hdigits⟩
      · rw [show ['0'] = List.replicate 1 '0' from rfl, Nat.ofDigitChars_append,
          Nat.ofDigitChars_append, Nat.ofDigitChars_replicate_zero,
          Nat.ofDigitChars_replicate_zero, mul_zero, mul_zero, hread]
        refine hvalue _ ?_
        rw [List.length_append, List.length_replicate]
        omega

theorem point_mem_plain (d : Scientific) : '.' ∈ d.plain true := by
  obtain ⟨whole, fraction, htext, -, -⟩ := d.exists_plain
  rw [htext]
  exact List.mem_append_right _ List.mem_cons_self

/-- A whole number may keep its point. -/
theorem plain_true (d : Scientific) :
    d.plain true = d.plain false ++ if 0 ≤ d.exponent then ['.', '0'] else [] := by
  rw [plain, plain]
  split <;> simp

/-- Without a point stand exactly the whole numbers that do not keep it. -/
theorem point_mem_plain_iff (d : Scientific) : '.' ∈ d.plain false ↔ d.exponent < 0 := by
  rcases lt_or_ge d.exponent 0 with hneg | hnonneg
  · have hpoint := d.point_mem_plain
    rw [plain_true, if_neg (by omega), List.append_nil] at hpoint
    exact iff_of_true hpoint hneg
  · refine iff_of_false (fun hmem => ?_) (by omega)
    rw [plain, if_pos hnonneg, if_neg Bool.false_ne_true, List.append_nil, List.mem_append] at hmem
    rcases hmem with hmem | hmem
    · exact absurd (isDigit_of_mem_digitChars hmem) (by decide)
    · exact absurd (List.eq_of_mem_replicate hmem) (by decide)

variable {pointZero : Bool}

/-- The text without an exponent shows the value. -/
theorem value_eq_of_plain (h : d.plain pointZero = d'.plain pointZero) : d.value = d'.value := by
  have hpoint : d.plain true = d'.plain true := by
    cases pointZero with
    | true => exact h
    | false =>
      have hsign : 0 ≤ d.exponent ↔ 0 ≤ d'.exponent := by
        rw [← not_lt, ← not_lt, ← point_mem_plain_iff, ← point_mem_plain_iff, h]
      rw [plain_true, plain_true, h, if_congr hsign rfl rfl]
  obtain ⟨whole, fraction, htext, hdigits, hvalue⟩ := d.exists_plain
  obtain ⟨whole', fraction', htext', -, hvalue'⟩ := d'.exists_plain
  obtain ⟨hwhole, hfraction⟩ := List.forall_mem_append.mp hdigits
  rw [htext, htext', List.append_cons_inj_of_notMem (point_notMem_of_isDigit hwhole)
    (point_notMem_of_isDigit hfraction)] at hpoint
  obtain ⟨rfl, -, rfl⟩ := hpoint
  rw [hvalue, hvalue']

theorem isPointed_of_mem_plain {c : Char} (h : c ∈ d.plain pointZero) : isPointed c = true := by
  have hmem : c ∈ d.plain true := by
    cases pointZero with
    | true => exact h
    | false =>
      rw [plain_true]
      exact List.mem_append_left _ h
  obtain ⟨whole, fraction, htext, hdigits, -⟩ := d.exists_plain
  obtain ⟨hwhole, hfraction⟩ := List.forall_mem_append.mp hdigits
  rw [htext, List.mem_append, List.mem_cons] at hmem
  rcases hmem with h | rfl | h
  · exact isPointed_of_isDigit (hwhole c h)
  · rfl
  · exact isPointed_of_isDigit (hfraction c h)

/-! ### With an exponent -/

/-- The text is the digits with a point among them and the exponent. -/
theorem exists_withExponent (d : Scientific) : ∃ mantissa : List Char,
    d.withExponent = mantissa ++ 'e' :: (if d.leadingPlace < 0 then '-' else '+')
      :: digitChars d.leadingPlace.natAbs ∧
    (∀ c ∈ mantissa, isPointed c = true) ∧ mantissa.filter (· ≠ '.') = digitChars d.digits := by
  have hdigits : ∀ c ∈ digitChars d.digits, c.isDigit = true := fun _ => isDigit_of_mem_digitChars
  have hkept : (digitChars d.digits).filter (· ≠ '.') = digitChars d.digits :=
    List.filter_eq_self.mpr fun c hc => decide_eq_true fun heq =>
      point_notMem_of_isDigit hdigits (heq ▸ hc)
  rw [withExponent]
  refine ⟨_, rfl, ?_⟩
  split
  · rename_i hnil
    rw [hnil]
    exact ⟨fun _ hc => absurd hc List.not_mem_nil, rfl⟩
  · rename_i c hone
    rw [hone] at hdigits hkept ⊢
    exact ⟨fun c hc => isPointed_of_isDigit (hdigits c hc), hkept⟩
  · rename_i c rest _ hmore
    rw [hmore] at hdigits hkept ⊢
    obtain ⟨hfirst, hrest⟩ := List.forall_mem_cons.mp hdigits
    refine ⟨?_, by rw [← hkept]; simp [List.filter_cons]⟩
    rw [List.forall_mem_cons, List.forall_mem_cons]
    exact ⟨isPointed_of_isDigit hfirst, rfl, fun c' hc' => isPointed_of_isDigit (hrest c' hc')⟩

/-- The text with an exponent shows the decimal. -/
theorem eq_of_withExponent (h : d.withExponent = d'.withExponent) : d = d' := by
  obtain ⟨mantissa, htext, hpointed, hfilter⟩ := d.exists_withExponent
  obtain ⟨mantissa', htext', -, hfilter'⟩ := d'.exists_withExponent
  rw [htext, htext', List.append_cons_inj_of_notMem ?_ ?_] at h
  · obtain ⟨rfl, -, h⟩ := h
    obtain ⟨hsign, hplace⟩ := List.cons.inj h
    have hdigits : digitChars d.digits = digitChars d'.digits := hfilter.symm.trans hfilter'
    have hplace := digitChars_inj hplace
    have hleading : d.leadingPlace = d'.leadingPlace := by
      split at hsign <;> split at hsign <;> first | omega | cases hsign
    rw [leadingPlace, leadingPlace, hdigits] at hleading
    cases d
    cases d'
    congr 1
    · exact digitChars_inj hdigits
    · dsimp only at hleading
      omega
  · exact fun hmem => absurd (hpointed _ hmem) (by decide)
  · intro hmem
    rcases List.mem_cons.mp hmem with h | h
    · split at h <;> cases h
    · exact absurd (isDigit_of_mem_digitChars h) (by decide)

theorem isNumeral_of_mem_withExponent {c : Char} (h : c ∈ d.withExponent) :
    isNumeral c = true := by
  obtain ⟨mantissa, htext, hpointed, -⟩ := d.exists_withExponent
  rw [htext, List.mem_append, List.mem_cons, List.mem_cons] at h
  rcases h with h | rfl | rfl | h
  · exact isNumeral_of_isPointed (hpointed c h)
  · rfl
  · split <;> rfl
  · exact isNumeral_of_isPointed (isPointed_of_isDigit (isDigit_of_mem_digitChars h))

theorem e_mem_withExponent (d : Scientific) : 'e' ∈ d.withExponent := by
  obtain ⟨mantissa, htext, -, -⟩ := d.exists_withExponent
  rw [htext]
  exact List.mem_append_right _ List.mem_cons_self

end Scientific

/-! ### Doubles -/

/-- The text of a decimal in a style. -/
def Style.unsigned (style : Style) (d : Scientific) : List Char :=
  if style.isPlain d.leadingPlace then d.plain style.pointZero else d.withExponent

/-- The decimal that is written for a double. -/
def Style.decimal (style : Style) (x : Float) : Scientific :=
  if (Binary.ofBits x.toBits).mantissa = 0 then ⟨0, 0⟩
  else (Binary.ofBits x.toBits).shortest style.tie

namespace Style

variable {style : Style} {x y : Float}

theorem render_of_isFinite (style : Style) (h : x.isFinite = true) : style.render x =
    String.ofList (if x.toBits >>> 63 = 1 then '-' :: style.unsigned (style.decimal x)
      else style.unsigned (style.decimal x)) := by
  have hnan : x.isNaN = false ∧ x.isInf = false := by
    change UnpackedFloat.isNaN x.toModel.unpack = false ∧
      UnpackedFloat.isInf x.toModel.unpack = false
    change UnpackedFloat.isFinite x.toModel.unpack = true at h
    cases hx : x.toModel.unpack <;>
      simp_all [UnpackedFloat.isFinite, UnpackedFloat.isNaN, UnpackedFloat.isInf]
  rw [render, hnan.1, hnan.2]
  simp only [Bool.false_eq_true, if_false]
  rfl

/-- A text without a sign does not begin with one. -/
theorem unsigned_ne_cons (style : Style) (d : Scientific) (cs : List Char) :
    style.unsigned d ≠ '-' :: cs := by
  intro h
  rw [unsigned] at h
  split at h
  · have hmem : '-' ∈ d.plain style.pointZero := h ▸ List.mem_cons_self
    exact absurd (Scientific.isPointed_of_mem_plain hmem) (by decide)
  · obtain ⟨mantissa, htext, hpointed, hfilter⟩ := d.exists_withExponent
    cases mantissa with
    | nil => exact Nat.toDigits_ne_nil hfilter.symm
    | cons c mantissa =>
      obtain rfl : c = '-' := (List.cons.inj (htext.symm.trans h)).1
      exact absurd (hpointed _ List.mem_cons_self) (by decide)

/-- The text of a decimal shows its value. -/
theorem value_eq_of_unsigned {d d' : Scientific} (h : style.unsigned d = style.unsigned d') :
    d.value = d'.value := by
  rw [unsigned, unsigned] at h
  split at h <;> split at h
  · exact Scientific.value_eq_of_plain h
  · have he := h ▸ d'.e_mem_withExponent
    exact absurd (Scientific.isPointed_of_mem_plain he) (by decide)
  · have he := h ▸ d.e_mem_withExponent
    exact absurd (Scientific.isPointed_of_mem_plain he) (by decide)
  · rw [Scientific.eq_of_withExponent h]

theorem value_decimal_of_zero (style : Style) (h : (Binary.ofBits x.toBits).mantissa = 0) :
    (style.decimal x).value = 0 := by
  rw [decimal, if_pos h, Scientific.value, Nat.cast_zero, zero_mul]

theorem rounds_decimal (style : Style) (h : (Binary.ofBits x.toBits).mantissa ≠ 0) :
    (Binary.ofBits x.toBits).Rounds (style.decimal x).value := by
  rw [decimal, if_neg h]
  exact Binary.rounds_shortest (Nat.pos_of_ne_zero h) style.tie

/-- Doubles whose decimals have one value have one magnitude. -/
theorem ofBits_eq_of_value (h : (style.decimal x).value = (style.decimal y).value) :
    Binary.ofBits x.toBits = Binary.ofBits y.toBits := by
  by_cases hx : (Binary.ofBits x.toBits).mantissa = 0 <;>
    by_cases hy : (Binary.ofBits y.toBits).mantissa = 0
  · rw [Binary.ofBits_of_mantissa_eq_zero hx, Binary.ofBits_of_mantissa_eq_zero hy]
  · have hpos := (rounds_decimal style hy).pos (Nat.pos_of_ne_zero hy)
    exact absurd (value_decimal_of_zero style hx) (h ▸ hpos.ne')
  · have hpos := (rounds_decimal style hx).pos (Nat.pos_of_ne_zero hx)
    exact absurd (value_decimal_of_zero style hy) (h ▸ hpos.ne')
  · exact (rounds_decimal style hx).unique (h ▸ rounds_decimal style hy) (Binary.regular_ofBits hx)
      (Binary.regular_ofBits hy)

/-- A text belongs to one finite double only. -/
theorem render_inj (hx : x.isFinite = true) (hy : y.isFinite = true)
    (h : style.render x = style.render y) : x = y := by
  rw [render_of_isFinite style hx, render_of_isFinite style hy] at h
  have h := String.ofList_injective h
  have hsame : (x.toBits >>> 63 = 1 ↔ y.toBits >>> 63 = 1) ∧
      style.unsigned (style.decimal x) = style.unsigned (style.decimal y) := by
    split at h <;> split at h
    · rename_i hx' hy'
      exact ⟨iff_of_true hx' hy', (List.cons.inj h).2⟩
    · exact absurd h.symm (unsigned_ne_cons style _ _)
    · exact absurd h (unsigned_ne_cons style _ _)
    · rename_i hx' hy'
      exact ⟨iff_of_false hx' hy', h⟩
  exact Float.toBits_inj.mp
    (Binary.ofBits_inj hsame.1 (ofBits_eq_of_value (value_eq_of_unsigned hsame.2)))

theorem isNumeral_of_mem_render (hx : x.isFinite = true) {c : Char}
    (hc : c ∈ (style.render x).toList) : isNumeral c = true := by
  have hunsigned : ∀ d, c ∈ style.unsigned d → isNumeral c = true := fun d hmem => by
    rw [unsigned] at hmem
    split at hmem
    · exact isNumeral_of_isPointed (Scientific.isPointed_of_mem_plain hmem)
    · exact Scientific.isNumeral_of_mem_withExponent hmem
  rw [render_of_isFinite style hx, String.toList_ofList] at hc
  split at hc
  · rcases List.mem_cons.mp hc with rfl | hc
    · rfl
    · exact hunsigned _ hc
  · exact hunsigned _ hc

/-- The text of a double is not that of an integer: it has a point or an exponent. -/
theorem exists_mem_render (hpoint : style.pointZero = true) (hx : x.isFinite = true) :
    ∃ c ∈ (style.render x).toList, c = '.' ∨ c = 'e' := by
  have hunsigned : ∃ c ∈ style.unsigned (style.decimal x), c = '.' ∨ c = 'e' := by
    rw [unsigned, hpoint]
    split
    · exact ⟨'.', Scientific.point_mem_plain _, .inl rfl⟩
    · exact ⟨'e', Scientific.e_mem_withExponent _, .inr rfl⟩
  obtain ⟨c, hc, hmark⟩ := hunsigned
  refine ⟨c, ?_, hmark⟩
  rw [render_of_isFinite style hx, String.toList_ofList]
  split
  · exact List.mem_cons_of_mem _ hc
  · exact hc

end Style

end SceneFlow.Decimal
