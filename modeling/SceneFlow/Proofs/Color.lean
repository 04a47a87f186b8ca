import Mathlib
import SceneFlow.Color
import SceneFlow.Proofs.Except
import SceneFlow.Proofs.Text.Hex

/-!
# Colours that are written

A colour can be spelled in many ways, and is written in one: a number sign and lower-case digits,
without the alpha channel if that is opaque. What is written is read back as the same colour, so
writing it once more changes nothing, and two spellings are of one colour exactly if the same is
written for both.

## Main definitions

* `Color.IsCanonical`: the form in which colours are written.
* `Color.normalize`: the text that is written for the colour of a text.
* `Color.Writes`: a text is how the colour of another one is written.

## Main results

* `Color.parse_text`: what is written is read back.
* `Color.isCanonical_text`: it has the canonical form.
* `Color.writes_iff`: normalizing a text gives how its colour is written.
* `Color.Writes.parse_eq_iff`: two texts are of one colour if the same is written for them.
-/

namespace SceneFlow.Color

/-- The form in which colours are written: a number sign and six lower-case hexadecimal digits, or
eight of which the last two are not `ff`. -/
def IsCanonical (text : String) : Prop :=
  ∃ digits : List Char, text.toList = '#' :: digits ∧ (∀ c ∈ digits, Text.isLowerHex c = true) ∧
    (digits.length = 6 ∨ digits.length = 8 ∧ digits.drop 6 ≠ ['f', 'f'])

/-- The text that is written for the colour of a text. -/
def normalize (text : String) : Except ColorError String :=
  (parse text).map Color.text

/-- A text is how the colour of another text is written. -/
structure Writes (input output : String) : Prop where
  /-- It has the form in which colours are written. -/
  canonical : IsCanonical output
  /-- Both texts are of one colour. -/
  denotes : ∃ color, parse input = .ok color ∧ parse output = .ok color
  /-- The same is written for it once more. -/
  stable : normalize output = .ok output

/-! ### Pairs of digits -/

/-- Two digits that are written for a byte are read back. -/
theorem exists_pairText (byte : UInt8) :
    ∃ high low, pairText byte = [high, low] ∧ readPair high low = .ok byte := by
  have hlt := byte.toNat_lt
  have hhigh := Text.hexValue?_hexDigit (byte.toNat / 16 % 16) (Nat.mod_lt _ (by decide))
  have hlow := Text.hexValue?_hexDigit (byte.toNat % 16) (Nat.mod_lt _ (by decide))
  have hplus : ∀ n < 16, Text.hexDigit n ≠ '+' := by decide
  refine ⟨_, _, rfl, ?_⟩
  rw [readPair, if_neg (hplus _ (Nat.mod_lt _ (by decide))), hhigh, hlow]
  refine congrArg Except.ok (UInt8.toNat_inj.mp ?_)
  simp only [Nat.toUInt8, UInt8.toNat_ofNat']
  omega

theorem isLowerHex_of_mem_pairText {byte : UInt8} {c : Char} (h : c ∈ pairText byte) :
    Text.isLowerHex c = true :=
  Text.isLowerHex_of_mem_hexDigits h

theorem length_pairText (byte : UInt8) : (pairText byte).length = 2 :=
  Text.hexDigits_length _ _

/-- The pair `ff` is written for the largest byte only. -/
theorem pairText_ne {byte : UInt8} (h : byte ≠ 255) : pairText byte ≠ ['f', 'f'] := by
  intro hpair
  obtain ⟨high, low, htext, hread⟩ := exists_pairText byte
  obtain ⟨rfl, rfl⟩ : high = 'f' ∧ low = 'f' := by simpa [htext] using hpair
  exact h (Except.ok.inj (hread.symm.trans (by rfl)))

/-! ### Colours -/

/-- The digits of a colour: those of the alpha channel only if it is not opaque. -/
def digits (c : Color) : List Char :=
  pairText c.red ++ pairText c.green ++ pairText c.blue ++
    if c.alpha = 255 then [] else pairText c.alpha

theorem toList_text (c : Color) : c.text.toList = '#' :: c.digits := by
  rw [text, String.toList_ofList, digits]
  split <;> simp

theorem isLowerHex_of_mem_digits {c : Color} {d : Char} (h : d ∈ c.digits) :
    Text.isLowerHex d = true := by
  simp only [digits, List.mem_append] at h
  rcases h with ((h | h) | h) | h
  · exact isLowerHex_of_mem_pairText h
  · exact isLowerHex_of_mem_pairText h
  · exact isLowerHex_of_mem_pairText h
  · split at h
    · cases h
    · exact isLowerHex_of_mem_pairText h

/-- The digits are all that is read. -/
theorem digitsOf_text (c : Color) : digitsOf c.text = c.digits := by
  have hblank : ∀ d ∈ c.text.toList, Text.isBlank d = false := by
    rw [toList_text, List.forall_mem_cons]
    exact ⟨by decide, fun d hd => Text.isBlank_of_isLowerHex (isLowerHex_of_mem_digits hd)⟩
  rw [digitsOf, Text.trim_eq_self hblank, toList_text]
  rfl

/-- What is written is read back. -/
theorem parse_text (c : Color) : parse c.text = .ok c := by
  obtain ⟨r, r', hred, hreadRed⟩ := exists_pairText c.red
  obtain ⟨g, g', hgreen, hreadGreen⟩ := exists_pairText c.green
  obtain ⟨b, b', hblue, hreadBlue⟩ := exists_pairText c.blue
  obtain ⟨a, a', halpha, hreadAlpha⟩ := exists_pairText c.alpha
  have hascii : (c.digits.all fun d => d.toNat < 128) = true := by
    refine List.all_eq_true.mpr fun d hd => decide_eq_true ?_
    have hcode := Text.toNat_of_isLowerHex (isLowerHex_of_mem_digits hd)
    omega
  rw [parse, digitsOf_text, hascii]
  simp only [digits, hred, hgreen, hblue, halpha]
  by_cases hsolid : c.alpha = 255
  · obtain ⟨red, green, blue, alpha⟩ := c
    obtain rfl : alpha = 255 := hsolid
    simp [hreadRed, hreadGreen, hreadBlue, bind, Except.bind]
  · simp [hsolid, hreadRed, hreadGreen, hreadBlue, hreadAlpha, bind, Except.bind]

/-- It has the canonical form. -/
theorem isCanonical_text (c : Color) : IsCanonical c.text := by
  refine ⟨c.digits, c.toList_text, fun d hd => isLowerHex_of_mem_digits hd, ?_⟩
  by_cases hsolid : c.alpha = 255
  · exact .inl (by simp [digits, hsolid, length_pairText])
  · have hlength : (pairText c.red ++ pairText c.green ++ pairText c.blue).length = 6 := by
      simp [length_pairText]
    refine .inr ⟨by simp [digits, hsolid, length_pairText], ?_⟩
    rw [digits, if_neg hsolid, List.drop_left' hlength]
    exact pairText_ne hsolid

/-! ### Texts -/

/-- Normalizing a text gives how its colour is written. -/
theorem writes_iff {input output : String} :
    Writes input output ↔ normalize input = .ok output := by
  rw [normalize, map_eq_ok_iff]
  constructor
  · rintro ⟨-, ⟨color, hinput, houtput⟩, hstable⟩
    obtain ⟨color', houtput', htext⟩ := map_eq_ok_iff.mp hstable
    obtain rfl := Except.ok.inj (houtput.symm.trans houtput')
    exact ⟨color, hinput, htext⟩
  · rintro ⟨color, hinput, rfl⟩
    exact ⟨color.isCanonical_text, ⟨color, hinput, color.parse_text⟩,
      map_eq_ok_iff.mpr ⟨color, color.parse_text, rfl⟩⟩

/-- Two texts are of one colour exactly if the same is written for them. -/
theorem Writes.parse_eq_iff {input output input' output' : String} (h : Writes input output)
    (h' : Writes input' output') : parse input = parse input' ↔ output = output' := by
  obtain ⟨color, hinput, houtput⟩ := h.denotes
  obtain ⟨color', hinput', houtput'⟩ := h'.denotes
  constructor
  · intro hsame
    have hnormal := writes_iff.mp h
    rw [normalize, hsame] at hnormal
    exact Except.ok.inj (hnormal.symm.trans (writes_iff.mp h'))
  · rintro rfl
    rw [hinput, hinput', houtput.symm.trans houtput']

end SceneFlow.Color
