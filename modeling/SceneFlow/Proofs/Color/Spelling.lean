import SceneFlow.Proofs.Color

/-!
# Spellings of colours

A text is read as a colour if there are six or eight characters between white space at its ends,
perhaps with a number sign in front, of which each two are read as a byte. Two hexadecimal digits
are read as the byte that they write, in either case. A plus sign and a digit are read too, as the
byte of the digit. So the texts that are read are those of digits alone, and those that have such a
sign in a pair.

## Main definitions

* `Color.Frames`: a text is some characters between white space, perhaps with a number sign.
* `Color.DigitPair`, `Color.SignedPair`, `Color.ReadPair`: the bytes that two characters write.
* `Color.Spells`: the pairs of some characters are the channels of a colour.

## Main results

* `Color.readPair_eq_ok_iff`: which two characters are read, and as which byte.
* `Color.parse_eq_ok_iff`: what is read is what the digits of a text spell.
* `Color.parse_iff_spells`: which texts are read, and as which colours.
-/

namespace SceneFlow.Color

variable {text : String} {chars : List Char} {color : Color} {first second : Char} {byte : UInt8}

/-- A text is some characters between white space, perhaps with a number sign in front. -/
def Frames (text : String) (chars : List Char) : Prop :=
  ∃ before sign behind, text.toList = before ++ (sign ++ chars) ++ behind ∧
    (∀ c ∈ before ++ behind, Text.isBlank c = true) ∧ (sign = [] ∨ sign = ['#'])

/-- Two hexadecimal digits write a byte, the first one for its upper half. -/
def DigitPair (first second : Char) (byte : UInt8) : Prop :=
  Text.IsHexDigit first (byte.toNat / 16) ∧ Text.IsHexDigit second (byte.toNat % 16)

/-- A plus sign and a hexadecimal digit write a byte below sixteen. -/
def SignedPair (first second : Char) (byte : UInt8) : Prop :=
  first = '+' ∧ Text.IsHexDigit second byte.toNat

/-- Two characters write a byte in one of these ways. -/
def ReadPair (first second : Char) (byte : UInt8) : Prop :=
  DigitPair first second byte ∨ SignedPair first second byte

/-- Pairs of characters spell a colour, one pair for each channel; without one for the alpha channel
the colour is opaque. -/
inductive Spells (pair : Char → Char → UInt8 → Prop) : List Char → Color → Prop
  | solid {r r' g g' b b' : Char} {red green blue : UInt8} (hred : pair r r' red)
      (hgreen : pair g g' green) (hblue : pair b b' blue) :
      Spells pair [r, r', g, g', b, b'] ⟨red, green, blue, 255⟩
  | blended {r r' g g' b b' a a' : Char} {red green blue alpha : UInt8} (hred : pair r r' red)
      (hgreen : pair g g' green) (hblue : pair b b' blue) (halpha : pair a a' alpha) :
      Spells pair [r, r', g, g', b, b', a, a'] ⟨red, green, blue, alpha⟩

/-! ### Pairs -/

theorem not_isHexDigit_plus (n : ℕ) : ¬ Text.IsHexDigit '+' n := fun h => by
  have hplus : Text.isHex '+' = true := Text.isHex_iff.mpr ⟨n, h⟩
  revert hplus
  decide

/-- Two values of digits are the halves of a byte. -/
theorem toUInt8_eq_iff {high low : ℕ} (hhigh : high < 16) (hlow : low < 16) :
    (high * 16 + low).toUInt8 = byte ↔ byte.toNat / 16 = high ∧ byte.toNat % 16 = low := by
  rw [← UInt8.toNat_inj, Nat.toUInt8, UInt8.toNat_ofNat']
  have hbyte := byte.toNat_lt
  omega

/-- Two characters are read as the byte that they write as digits, or as the one that the second
writes behind a plus sign. -/
theorem readPair_eq_ok_iff : readPair first second = .ok byte ↔ ReadPair first second byte := by
  have hread : readPair first second = .ok byte ↔
      ∃ high low, (if first = '+' then some 0 else Text.hexValue? first) = some high ∧
        Text.hexValue? second = some low ∧ (high * 16 + low).toUInt8 = byte := by
    rw [readPair]
    split
    · simp [*]
    · rename_i hnot
      refine iff_of_false (by simp) ?_
      rintro ⟨high, low, hhigh, hlow, -⟩
      exact hnot high low hhigh hlow
  rw [hread, ReadPair]
  by_cases hplus : first = '+'
  · subst hplus
    simp only [if_true, Option.some.injEq, Text.hexValue?_eq_some_iff, DigitPair, SignedPair,
      not_isHexDigit_plus, false_and, true_and, false_or]
    constructor
    · rintro ⟨high, low, rfl, hlow, hbyte⟩
      have hhalves := (toUInt8_eq_iff (by decide) hlow.1).mp hbyte
      obtain rfl : low = byte.toNat := by omega
      exact hlow
    · intro hlow
      have hsmall := hlow.1
      exact ⟨0, byte.toNat, rfl, hlow, (toUInt8_eq_iff (by decide) hsmall).mpr (by omega)⟩
  · rw [if_neg hplus]
    simp only [Text.hexValue?_eq_some_iff, DigitPair, SignedPair, hplus, false_and, or_false]
    constructor
    · rintro ⟨high, low, hhigh, hlow, hbyte⟩
      obtain ⟨rfl, rfl⟩ := (toUInt8_eq_iff hhigh.1 hlow.1).mp hbyte
      exact ⟨hhigh, hlow⟩
    · rintro ⟨hhigh, hlow⟩
      exact ⟨_, _, hhigh, hlow, (toUInt8_eq_iff hhigh.1 hlow.1).mpr ⟨rfl, rfl⟩⟩

/-- Every two digits write a byte. -/
theorem exists_digitPair (hfirst : Text.isHex first = true) (hsecond : Text.isHex second = true) :
    ∃ byte, DigitPair first second byte := by
  obtain ⟨high, hhigh⟩ := Text.isHex_iff.mp hfirst
  obtain ⟨low, hlow⟩ := Text.isHex_iff.mp hsecond
  obtain ⟨hupper, hlower⟩ := (toUInt8_eq_iff hhigh.1 hlow.1).mp rfl
  refine ⟨(high * 16 + low).toUInt8, ?_, ?_⟩
  · rwa [hupper]
  · rwa [hlower]

/-! ### Channels -/

section Spells

variable {pair other : Char → Char → UInt8 → Prop}

/-- What holds of the characters of every pair holds of all. -/
theorem Spells.forall_mem {p : Char → Prop} (h : Spells pair chars color)
    (hpair : ∀ a b byte, pair a b byte → p a ∧ p b) : ∀ c ∈ chars, p c := by
  cases h with
  | solid hred hgreen hblue =>
    simp [hpair _ _ _ hred, hpair _ _ _ hgreen, hpair _ _ _ hblue]
  | blended hred hgreen hblue halpha =>
    simp [hpair _ _ _ hred, hpair _ _ _ hgreen, hpair _ _ _ hblue, hpair _ _ _ halpha]

/-- Pairs of characters that spell a colour spell it also when they are read in another way that
agrees on them. -/
theorem Spells.mono (h : Spells pair chars color)
    (hpair : ∀ a ∈ chars, ∀ b byte, pair a b byte → other a b byte) :
    Spells other chars color := by
  cases h with
  | solid hred hgreen hblue =>
    exact .solid (hpair _ (by simp) _ _ hred) (hpair _ (by simp) _ _ hgreen)
      (hpair _ (by simp) _ _ hblue)
  | blended hred hgreen hblue halpha =>
    exact .blended (hpair _ (by simp) _ _ hred) (hpair _ (by simp) _ _ hgreen)
      (hpair _ (by simp) _ _ hblue) (hpair _ (by simp) _ _ halpha)

end Spells

theorem isHex_of_digitPair (h : DigitPair first second byte) :
    Text.isHex first = true ∧ Text.isHex second = true :=
  ⟨Text.isHex_iff.mpr ⟨_, h.1⟩, Text.isHex_iff.mpr ⟨_, h.2⟩⟩

/-- What is read are digits and plus signs. -/
theorem isHex_or_eq_plus (h : Spells ReadPair chars color) :
    ∀ c ∈ chars, Text.isHex c = true ∨ c = '+' := by
  refine h.forall_mem fun a b byte hpair => ?_
  rcases hpair with hpair | ⟨hplus, hdigit⟩
  · exact (isHex_of_digitPair hpair).imp .inl .inl
  · exact ⟨.inr hplus, .inl (Text.isHex_iff.mpr ⟨_, hdigit⟩)⟩

/-- Digits are read without plus signs. -/
theorem spells_digitPair_iff :
    Spells DigitPair chars color ↔ Spells ReadPair chars color ∧ '+' ∉ chars := by
  constructor
  · intro h
    refine ⟨h.mono fun _ _ _ _ => .inl, fun hplus => ?_⟩
    have hhex := h.forall_mem (fun _ _ _ => isHex_of_digitPair) '+' hplus
    revert hhex
    decide
  · rintro ⟨h, hplus⟩
    refine h.mono fun a ha b byte hpair => hpair.resolve_right fun hsigned => hplus ?_
    rwa [← hsigned.1]

/-- Six and eight digits spell colours. -/
theorem exists_spells_digitPair_iff : (∃ color, Spells DigitPair chars color) ↔
    (chars.length = 6 ∨ chars.length = 8) ∧ ∀ c ∈ chars, Text.isHex c = true := by
  constructor
  · rintro ⟨color, h⟩
    refine ⟨?_, h.forall_mem fun _ _ _ => isHex_of_digitPair⟩
    cases h with
    | solid => exact .inl rfl
    | blended => exact .inr rfl
  · rintro ⟨hlength, hhex⟩
    match chars with
    | [r, r', g, g', b, b'] =>
      simp only [List.forall_mem_cons] at hhex
      obtain ⟨hr, hr', hg, hg', hb, hb', -⟩ := hhex
      obtain ⟨red, hred⟩ := exists_digitPair hr hr'
      obtain ⟨green, hgreen⟩ := exists_digitPair hg hg'
      obtain ⟨blue, hblue⟩ := exists_digitPair hb hb'
      exact ⟨_, .solid hred hgreen hblue⟩
    | [r, r', g, g', b, b', a, a'] =>
      simp only [List.forall_mem_cons] at hhex
      obtain ⟨hr, hr', hg, hg', hb, hb', ha, ha', -⟩ := hhex
      obtain ⟨red, hred⟩ := exists_digitPair hr hr'
      obtain ⟨green, hgreen⟩ := exists_digitPair hg hg'
      obtain ⟨blue, hblue⟩ := exists_digitPair hb hb'
      obtain ⟨alpha, halpha⟩ := exists_digitPair ha ha'
      exact ⟨_, .blended hred hgreen hblue halpha⟩
    | [] | [_] | [_, _] | [_, _, _] | [_, _, _, _] | [_, _, _, _, _] | [_, _, _, _, _, _, _] =>
      simp at hlength
    | _ :: _ :: _ :: _ :: _ :: _ :: _ :: _ :: _ :: _ => simp at hlength

/-! ### Reading -/

/-- What is read is what the pairs of a text spell. -/
theorem parse_eq_ok_iff : parse text = .ok color ↔ Spells ReadPair (digitsOf text) color := by
  constructor
  · intro h
    simp only [parse] at h
    split at h
    · cases h
    · split at h
      · rename_i r r' g g' b b' hchars
        obtain ⟨red, hred, green, hgreen, blue, hblue, hcolor⟩ := by
          simpa only [bind_eq_ok_iff] using h
        rw [hchars, ← Except.ok.inj hcolor]
        exact .solid (readPair_eq_ok_iff.mp hred) (readPair_eq_ok_iff.mp hgreen)
          (readPair_eq_ok_iff.mp hblue)
      · rename_i r r' g g' b b' a a' hchars
        obtain ⟨red, hred, green, hgreen, blue, hblue, alpha, halpha, hcolor⟩ := by
          simpa only [bind_eq_ok_iff] using h
        rw [hchars, ← Except.ok.inj hcolor]
        exact .blended (readPair_eq_ok_iff.mp hred) (readPair_eq_ok_iff.mp hgreen)
          (readPair_eq_ok_iff.mp hblue) (readPair_eq_ok_iff.mp halpha)
      · cases h
  · intro h
    have hascii : ((digitsOf text).all fun c => c.toNat < 128) = true := by
      refine List.all_eq_true.mpr fun c hc => decide_eq_true ?_
      rcases isHex_or_eq_plus h c hc with hhex | rfl
      · have hcode := Text.isHex_iff_toNat.mp hhex
        omega
      · decide
    simp only [parse, hascii]
    generalize digitsOf text = digits at h
    cases h with
    | solid hred hgreen hblue =>
      rw [← readPair_eq_ok_iff] at hred hgreen hblue
      simp [hred, hgreen, hblue, bind, Except.bind]
    | blended hred hgreen hblue halpha =>
      rw [← readPair_eq_ok_iff] at hred hgreen hblue halpha
      simp [hred, hgreen, hblue, halpha, bind, Except.bind]

/-! ### Texts -/

/-- A text is its characters between white space, perhaps with a number sign in front. -/
theorem frames_digitsOf (text : String) : Frames text (digitsOf text) := by
  obtain ⟨before, behind, htext, hblank⟩ := Text.exists_trim text.toList
  rw [digitsOf]
  split
  · rename_i rest hrest
    exact ⟨before, ['#'], behind, by rw [List.singleton_append, ← hrest, ← htext], hblank,
      .inr rfl⟩
  · exact ⟨before, [], behind, htext, hblank, .inl rfl⟩

/-- Characters that are neither white space nor a number sign are those of one text at most. -/
theorem digitsOf_eq (h : Frames text chars)
    (hchars : ∀ c ∈ chars, Text.isBlank c = false ∧ c ≠ '#') : digitsOf text = chars := by
  obtain ⟨before, sign, behind, htext, hblank, hsign⟩ := h
  have hbody : ∀ c ∈ sign ++ chars, Text.isBlank c = false := by
    rw [List.forall_mem_append]
    refine ⟨fun c hc => ?_, fun c hc => (hchars c hc).1⟩
    rcases hsign with rfl | rfl
    · cases hc
    · obtain rfl := List.mem_singleton.mp hc
      decide
  rw [digitsOf, htext, Text.trim_append hblank hbody]
  rcases hsign with rfl | rfl
  · split
    · rename_i rest heq
      exact absurd rfl (hchars '#' (by rw [← List.nil_append chars, heq]; simp)).2
    · rfl
  · rfl

theorem isBlank_and_ne_of_mem (h : Spells ReadPair chars color) :
    ∀ c ∈ chars, Text.isBlank c = false ∧ c ≠ '#' := by
  intro c hc
  rcases isHex_or_eq_plus h c hc with hhex | rfl
  · refine ⟨Text.isBlank_of_isHex hhex, ?_⟩
    rintro rfl
    revert hhex
    decide
  · decide

/-- What is read is what some characters of a text spell. -/
theorem parse_eq_ok_iff_frames :
    parse text = .ok color ↔ ∃ chars, Frames text chars ∧ Spells ReadPair chars color := by
  rw [parse_eq_ok_iff]
  constructor
  · exact fun h => ⟨_, frames_digitsOf text, h⟩
  · rintro ⟨chars, hframes, h⟩
    rwa [digitsOf_eq hframes (isBlank_and_ne_of_mem h)]

/-- A plus sign in a text is one of its characters. -/
theorem plus_mem_iff (h : Frames text chars) : '+' ∈ text.toList ↔ '+' ∈ chars := by
  obtain ⟨before, sign, behind, htext, hblank, hsign⟩ := h
  have hplus : Text.isBlank '+' = false := by decide
  have hnot : '+' ∉ before ++ behind := fun hmem => by simp [hblank '+' hmem] at hplus
  have hnotSign : '+' ∉ sign := by
    rcases hsign with rfl | rfl <;> decide
  rw [List.mem_append, not_or] at hnot
  simp [htext, hnot.1, hnot.2, hnotSign]

/-- Texts of digits are the texts without plus signs that are read. -/
theorem exists_spells_digitPair_iff_parse :
    (∃ chars, Frames text chars ∧ Spells DigitPair chars color) ↔
      parse text = .ok color ∧ '+' ∉ text.toList := by
  rw [parse_eq_ok_iff_frames]
  simp only [spells_digitPair_iff]
  constructor
  · rintro ⟨chars, hframes, h, hplus⟩
    exact ⟨⟨chars, hframes, h⟩, fun hmem => hplus ((plus_mem_iff hframes).mp hmem)⟩
  · rintro ⟨⟨chars, hframes, h⟩, hplus⟩
    exact ⟨chars, hframes, h, fun hmem => hplus ((plus_mem_iff hframes).mpr hmem)⟩

/-- A text is read as a colour if pairs of its characters spell it, and pairs may have a plus sign
for their first digit. Those without plus signs are the texts of six or eight digits, and their
colours are those that the digits write. -/
theorem parse_iff_spells (text : String) :
    (∀ color, parse text = .ok color ↔
        ∃ chars, Frames text chars ∧ Spells ReadPair chars color) ∧
      (∀ color, (∃ chars, Frames text chars ∧ Spells DigitPair chars color) ↔
        parse text = .ok color ∧ '+' ∉ text.toList) ∧
      ((∃ chars, Frames text chars ∧ (chars.length = 6 ∨ chars.length = 8) ∧
          ∀ c ∈ chars, Text.isHex c = true) ↔
        (∃ color, parse text = .ok color) ∧ '+' ∉ text.toList) := by
  refine ⟨fun _ => parse_eq_ok_iff_frames, fun _ => exists_spells_digitPair_iff_parse, ?_⟩
  simp only [← exists_spells_digitPair_iff, ← exists_and_right,
    ← exists_spells_digitPair_iff_parse]
  constructor
  · rintro ⟨chars, hframes, color, h⟩
    exact ⟨color, chars, hframes, h⟩
  · rintro ⟨color, chars, hframes, h⟩
    exact ⟨chars, hframes, color, h⟩

/-- Three plus signs with a digit each are read, although plus signs are no digits. -/
theorem exists_parse_eq_ok_signed : ∃ text color, parse text = .ok color ∧
    ¬ ∃ chars, Frames text chars ∧ (chars.length = 6 ∨ chars.length = 8) ∧
      ∀ c ∈ chars, Text.isHex c = true := by
  refine ⟨"#+f+f+f", ⟨15, 15, 15, 255⟩, by rfl, ?_⟩
  rintro ⟨chars, hframes, -, hhex⟩
  have hplus := hhex '+' ((plus_mem_iff hframes).mp (by decide))
  revert hplus
  decide

end SceneFlow.Color
