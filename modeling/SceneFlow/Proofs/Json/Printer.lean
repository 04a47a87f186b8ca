import Mathlib
import SceneFlow.Json.Printer
import SceneFlow.Json.Scanner
import SceneFlow.Proofs.Decimal.Style
import SceneFlow.Proofs.Text.Hex

/-!
# The text of a value

A value is all that its compact text can have been written for. Every piece of the text shows where
it ends: a text at its closing quote, a list and an object at their closing brackets, a number where
a character follows that no number has. In a text over several lines, too, the first character tells
a list from an object.

## Main results

* `Json.scanText_escaped`: a quoted text is read back.
* `Number.text_injective`: a text belongs to one number.
* `Json.compact_injective`: a compact text belongs to one value.
* `Json.head?_pretty_arr`, `Json.head?_pretty_obj`: how texts over several lines begin.
-/

namespace SceneFlow

namespace Json

/-! ### Quoted texts -/

theorem scanUnit_hexDigits {n : ℕ} (hn : n < 16 ^ 4) (rest : List Char) :
    scanUnit (Text.hexDigits 4 n ++ rest) = .ok (n, rest) := by
  have hdigit : ∀ m, Text.hexValue? (Text.hexDigit (m % 16)) = some (m % 16) := fun m =>
    Text.hexValue?_hexDigit _ (Nat.mod_lt _ (by decide))
  simp only [Text.hexDigits, List.nil_append, List.cons_append, scanUnit, List.take_succ_cons,
    List.take_zero, List.drop_succ_cons, List.drop_zero, hdigit]
  congr 2
  omega

/-- A character of a text is read back from what is written for it. -/
theorem scanText_escaped_append (fuel : ℕ) (read : List Char) (c : Char) (rest : List Char) :
    scanText (fuel + 1) read (escaped c ++ rest) = scanText fuel (c :: read) rest := by
  rw [escaped]
  split_ifs with hquote hbackslash hplain hnewline htab hreturn hback hfeed
  · subst hquote
    rfl
  · subst hbackslash
    rfl
  · rw [List.singleton_append, scanText, if_neg (by omega)]
    · exact hquote
    · exact hbackslash
  · subst hnewline
    rfl
  · subst htab
    rfl
  · subst hreturn
    rfl
  · obtain rfl : c = Char.ofNat 8 := by rw [← hback, Char.ofNat_toNat]
    rfl
  · obtain rfl : c = Char.ofNat 12 := by rw [← hfeed, Char.ofNat_toNat]
    rfl
  · have hcode : scanEscape ('u' :: (Text.hexDigits 4 c.toNat ++ rest)) = .ok (c, rest) := by
      rw [scanEscape, scanCodePoint, scanUnit_hexDigits (by omega)]
      dsimp only [bind, Except.bind]
      rw [if_neg (by omega), if_pos (by omega), Char.ofNat_toNat]
    rw [List.cons_append, List.cons_append, scanText, hcode]
    rfl

/-- A quoted text is read back. -/
theorem scanText_escaped {fuel : ℕ} {cs : List Char} (hfuel : cs.length < fuel)
    (read rest : List Char) : scanText fuel read (cs.flatMap escaped ++ '"' :: rest)
      = .ok (String.ofList (read.reverse ++ cs), rest) := by
  induction cs generalizing fuel read with
  | nil =>
    obtain ⟨fuel, rfl⟩ := Nat.exists_eq_add_one_of_ne_zero (Nat.ne_zero_of_lt hfuel)
    simp [scanText]
  | cons c cs ih =>
    obtain ⟨fuel, rfl⟩ := Nat.exists_eq_add_one_of_ne_zero (Nat.ne_zero_of_lt hfuel)
    rw [List.flatMap_cons, List.append_assoc, scanText_escaped_append,
      ih (by simpa using hfuel), List.reverse_cons, List.append_assoc, List.singleton_append]

theorem quoted_toList (s : String) :
    (quoted s).toList = '"' :: (s.toList.flatMap escaped ++ ['"']) :=
  String.toList_ofList

/-- A quoted text shows the text and where it ends. -/
theorem quoted_append_inj {s t : String} {rest rest' : List Char}
    (h : (quoted s).toList ++ rest = (quoted t).toList ++ rest') : s = t ∧ rest = rest' := by
  have hread : ∀ (u : String) (tail : List Char), u.length ≤ max s.length t.length →
      scanText (max s.length t.length + 1) [] (((quoted u).toList ++ tail).drop 1)
        = .ok (u, tail) := fun u tail hlength => by
    rw [quoted_toList, List.cons_append, List.drop_one, List.tail_cons, List.append_assoc,
      List.singleton_append, scanText_escaped (by rw [String.length_toList]; omega)]
    simp
  have hs := hread s rest (le_max_left _ _)
  have ht := hread t rest' (le_max_right _ _)
  rw [← h, hs] at ht
  exact Prod.mk.inj (Except.ok.inj ht)

end Json

/-! ### Numbers -/

namespace Number

theorem sign_or_isDigit_of_mem {value : ℤ} {c : Char} (hc : c ∈ (toString value).toList) :
    c = '-' ∨ c.isDigit = true := by
  have hnat : ∀ n : ℕ, c ∈ (Nat.repr n).toList → c.isDigit = true := fun n hmem => by
    rw [Nat.repr_eq_ofList_toDigits, String.toList_ofList] at hmem
    exact Decimal.isDigit_of_mem_digitChars hmem
  cases value with
  | ofNat n => exact .inr (hnat n hc)
  | negSucc n =>
    have hc : c ∈ ("-" ++ Nat.repr (n + 1)).toList := hc
    rw [String.toList_append, List.mem_append] at hc
    rcases hc with hc | hc
    · exact .inl (by simpa using hc)
    · exact .inr (hnat _ hc)

/-- What tells the text of a double from that of an integer. -/
theorem exists_mark {x : Float} (hfinite : x.isFinite = true) :
    ∃ c ∈ (Json.numberStyle.render x).toList, c = '.' ∨ c = 'e' :=
  Decimal.Style.exists_mem_render rfl hfinite

/-- A text is written for one number only. -/
theorem text_injective : Function.Injective text := by
  intro a b h
  have hkind : ∀ {value : ℤ} {x : Float}, x.isFinite = true →
      toString value ≠ Json.numberStyle.render x := fun {value x} hfinite heq => by
    obtain ⟨c, hc, hmark⟩ := exists_mark hfinite
    rw [← heq] at hc
    rcases sign_or_isDigit_of_mem hc with rfl | hdigit
    · exact absurd hmark (by decide)
    · rcases hmark with rfl | rfl <;> exact absurd hdigit (by decide)
  cases a with
  | int a hfits =>
    cases b with
    | int b hfits' =>
      obtain rfl := Int.repr_inj.mp h
      rfl
    | real y hfinite => exact absurd h (hkind hfinite)
  | real x hfinite =>
    cases b with
    | int b hfits => exact absurd h.symm (hkind hfinite)
    | real y hfinite' =>
      obtain rfl := Decimal.Style.render_inj hfinite hfinite' h
      rfl

theorem isNumeral_of_mem_text {n : Number} {c : Char} (hc : c ∈ n.text.toList) :
    Decimal.isNumeral c = true := by
  cases n with
  | int value hfits =>
    rcases sign_or_isDigit_of_mem hc with rfl | hdigit
    · rfl
    · exact Decimal.isNumeral_of_isPointed (Decimal.isPointed_of_isDigit hdigit)
  | real x hfinite => exact Decimal.Style.isNumeral_of_mem_render hfinite hc

theorem exists_mem_text (n : Number) : ∃ c, c ∈ n.text.toList := by
  have hnat : ∀ n : ℕ, ∃ c, c ∈ (Nat.repr n).toList := fun n => by
    rw [Nat.repr_eq_ofList_toDigits, String.toList_ofList]
    exact List.exists_mem_of_ne_nil _ Nat.toDigits_ne_nil
  cases n with
  | int value hfits =>
    cases value with
    | ofNat n => exact hnat n
    | negSucc n => exact ⟨'-', by simp [text, Int.repr, toString]⟩
  | real x hfinite =>
    obtain ⟨c, hc, -⟩ := exists_mark hfinite
    exact ⟨c, hc⟩

end Number

namespace Json

/-- No number goes on in what follows. -/
def Stops (rest : List Char) : Prop :=
  ∀ c ∈ rest.head?, Decimal.isNumeral c = false

theorem stops_nil : Stops [] :=
  fun _ hc => nomatch hc

theorem stops_cons {c : Char} (hc : Decimal.isNumeral c = false) (cs : List Char) :
    Stops (c :: cs) := by
  rintro _ ⟨⟩
  exact hc

theorem takeWhile_isNumeral (n : Number) {rest : List Char} (hrest : Stops rest) :
    (n.text.toList ++ rest).takeWhile Decimal.isNumeral = n.text.toList := by
  rw [List.takeWhile_append_of_pos fun c => Number.isNumeral_of_mem_text]
  cases rest with
  | nil => simp
  | cons c rest => simp [hrest c rfl]

/-- The text of a number shows the number and where it ends. -/
theorem text_append_inj {m n : Number} {rest rest' : List Char} (hrest : Stops rest)
    (hrest' : Stops rest') (h : m.text.toList ++ rest = n.text.toList ++ rest') :
    m = n ∧ rest = rest' := by
  have htext : m.text.toList = n.text.toList := by
    rw [← takeWhile_isNumeral m hrest, h, takeWhile_isNumeral n hrest']
  rw [htext] at h
  exact ⟨Number.text_injective (String.toList_injective htext), List.append_cancel_left h⟩

/-! ### Values -/

mutual

theorem writeCompact_eq (out : String) (value : Json) :
    writeCompact out value = out ++ writeCompact "" value := by
  cases value with
  | null | bool _ | num _ | str _ => simp [writeCompact]
  | arr items =>
    cases items with
    | nil => simp [writeCompact]
    | cons item rest =>
      rw [writeCompact, writeCompact, writeCompact_eq, writeCompactItems_eq,
        writeCompact_eq ("" ++ "["), writeCompactItems_eq ("" ++ "[" ++ _)]
      simp only [String.append_assoc, String.empty_append]
  | obj fields =>
    cases fields with
    | nil => simp [writeCompact]
    | cons field rest =>
      rw [writeCompact, writeCompact, writeCompact_eq, writeCompactFields_eq,
        writeCompact_eq ("" ++ "\x7b" ++ _ ++ ":"), writeCompactFields_eq (_ ++ _ ++ _ ++ _ ++ _)]
      simp only [String.append_assoc, String.empty_append]

theorem writeCompactItems_eq (out : String) (items : List Json) :
    writeCompactItems out items = out ++ writeCompactItems "" items := by
  cases items with
  | nil => simp [writeCompactItems]
  | cons item rest =>
    rw [writeCompactItems, writeCompactItems, writeCompact_eq, writeCompactItems_eq,
      writeCompact_eq ("" ++ ","), writeCompactItems_eq ("" ++ "," ++ _)]
    simp only [String.append_assoc, String.empty_append]

theorem writeCompactFields_eq (out : String) (fields : List (String × Json)) :
    writeCompactFields out fields = out ++ writeCompactFields "" fields := by
  cases fields with
  | nil => simp [writeCompactFields]
  | cons field rest =>
    rw [writeCompactFields, writeCompactFields, writeCompact_eq, writeCompactFields_eq,
      writeCompact_eq ("" ++ "," ++ _ ++ ":"), writeCompactFields_eq (_ ++ _ ++ _ ++ _ ++ _)]
    simp only [String.append_assoc, String.empty_append]

end

/-- The characters of a compact text. -/
def chars (value : Json) : List Char :=
  (compact value).toList

/-- The characters behind the first item of a list. -/
def itemsChars (items : List Json) : List Char :=
  (writeCompactItems "" items).toList

/-- The characters behind the first field of an object. -/
def fieldsChars (fields : List (String × Json)) : List Char :=
  (writeCompactFields "" fields).toList

theorem chars_num (n : Number) : chars (.num n) = n.text.toList := by
  simp [chars, compact, writeCompact]

theorem chars_str (s : String) : chars (.str s) = (quoted s).toList := by
  simp [chars, compact, writeCompact]

theorem chars_arr_cons (item : Json) (rest : List Json) :
    chars (.arr (item :: rest)) = '[' :: (chars item ++ itemsChars rest) := by
  rw [chars, compact, writeCompact, writeCompact_eq, writeCompactItems_eq]
  simp [chars, compact, itemsChars]

theorem chars_obj_cons (key : String) (value : Json) (rest : List (String × Json)) :
    chars (.obj ((key, value) :: rest))
      = '\x7b' :: ((quoted key).toList ++ ':' :: (chars value ++ fieldsChars rest)) := by
  rw [chars, compact, writeCompact, writeCompact_eq, writeCompactFields_eq]
  simp [chars, compact, fieldsChars]

theorem itemsChars_cons (item : Json) (rest : List Json) :
    itemsChars (item :: rest) = ',' :: (chars item ++ itemsChars rest) := by
  rw [itemsChars, writeCompactItems, writeCompact_eq, writeCompactItems_eq]
  simp [chars, compact, itemsChars]

theorem fieldsChars_cons (key : String) (value : Json) (rest : List (String × Json)) :
    fieldsChars ((key, value) :: rest)
      = ',' :: ((quoted key).toList ++ ':' :: (chars value ++ fieldsChars rest)) := by
  rw [fieldsChars, writeCompactFields, writeCompact_eq, writeCompactFields_eq]
  simp [chars, compact, fieldsChars]

theorem stops_itemsChars (items : List Json) (rest : List Char) :
    Stops (itemsChars items ++ rest) := by
  cases items with
  | nil => exact stops_cons (by decide) _
  | cons item items =>
    rw [itemsChars_cons]
    exact stops_cons (by decide) _

theorem stops_fieldsChars (fields : List (String × Json)) (rest : List Char) :
    Stops (fieldsChars fields ++ rest) := by
  cases fields with
  | nil => exact stops_cons (by decide) _
  | cons field fields =>
    rw [fieldsChars_cons]
    exact stops_cons (by decide) _

/-- The character that the text of a value begins with, one for all numbers and one for the two
truth values. -/
def lead : Json → Char
  | .null => 'n'
  | .bool _ => 't'
  | .num _ => '0'
  | .str _ => '"'
  | .arr _ => '['
  | .obj _ => '\x7b'

/-- A character, or what stands for all of its kind. -/
def leadOf (c : Char) : Char :=
  if Decimal.isNumeral c then '0' else if c = 'f' then 't' else c

/-- The first character of a text shows what kind of value it is for. -/
theorem exists_chars (value : Json) : ∃ c cs, chars value = c :: cs ∧ leadOf c = value.lead := by
  cases value with
  | null => exact ⟨'n', _, rfl, rfl⟩
  | bool b => cases b with
    | false => exact ⟨'f', _, rfl, rfl⟩
    | true => exact ⟨'t', _, rfl, rfl⟩
  | num n =>
    obtain ⟨c, hc⟩ := n.exists_mem_text
    cases htext : n.text.toList with
    | nil => exact absurd (htext ▸ hc) List.not_mem_nil
    | cons c cs =>
      refine ⟨c, cs, (chars_num n).trans htext, ?_⟩
      rw [leadOf, if_pos (Number.isNumeral_of_mem_text (htext ▸ List.mem_cons_self)), lead]
  | str s => exact ⟨'"', _, (chars_str s).trans (quoted_toList s), rfl⟩
  | arr items =>
    cases items with
    | nil => exact ⟨'[', _, rfl, rfl⟩
    | cons item rest => exact ⟨'[', _, chars_arr_cons item rest, rfl⟩
  | obj fields =>
    cases fields with
    | nil => exact ⟨'\x7b', _, rfl, rfl⟩
    | cons field rest => exact ⟨'\x7b', _, chars_obj_cons field.1 field.2 rest, rfl⟩

theorem lead_eq_of_append {v w : Json} {rest rest' : List Char}
    (h : chars v ++ rest = chars w ++ rest') : v.lead = w.lead := by
  obtain ⟨c, cs, hv, hlead⟩ := v.exists_chars
  obtain ⟨c', cs', hw, hlead'⟩ := w.exists_chars
  rw [hv, hw] at h
  obtain ⟨rfl, -⟩ := List.cons.inj h
  rw [← hlead, ← hlead']

/-- No value begins like the end of a list. -/
theorem chars_append_ne (value : Json) (rest cs : List Char) : chars value ++ rest ≠ ']' :: cs := by
  intro h
  obtain ⟨c, cs', hvalue, hlead⟩ := value.exists_chars
  rw [hvalue] at h
  obtain ⟨rfl, -⟩ := List.cons.inj h
  have hbracket : leadOf ']' = ']' := rfl
  cases value <;> simp [hbracket, lead] at hlead

/-- Where the texts of two lists are the same, so are the texts of their items. -/
theorem itemsChars_append_eq {vs ws : List Json} {rest rest' : List Char}
    (h : chars (.arr vs) ++ rest = chars (.arr ws) ++ rest') :
    itemsChars vs ++ rest = itemsChars ws ++ rest' := by
  cases vs with
  | nil =>
    cases ws with
    | nil => exact (List.cons.inj h).2
    | cons w ws =>
      rw [chars_arr_cons, List.cons_append, List.append_assoc] at h
      exact absurd (List.cons.inj h).2.symm (chars_append_ne w _ _)
  | cons v vs =>
    cases ws with
    | nil =>
      rw [chars_arr_cons, List.cons_append, List.append_assoc] at h
      exact absurd (List.cons.inj h).2 (chars_append_ne v _ _)
    | cons w ws =>
      rw [chars_arr_cons, chars_arr_cons] at h
      rw [itemsChars_cons, itemsChars_cons]
      exact congrArg (',' :: ·) (List.cons.inj h).2

/-- Where the texts of two objects are the same, so are the texts of their fields. -/
theorem fieldsChars_append_eq {vs ws : List (String × Json)} {rest rest' : List Char}
    (h : chars (.obj vs) ++ rest = chars (.obj ws) ++ rest') :
    fieldsChars vs ++ rest = fieldsChars ws ++ rest' := by
  cases vs with
  | nil =>
    cases ws with
    | nil => exact (List.cons.inj h).2
    | cons w ws =>
      rw [chars_obj_cons, quoted_toList] at h
      exact absurd (List.cons.inj (List.cons.inj h).2).1 (by decide)
  | cons v vs =>
    cases ws with
    | nil =>
      rw [chars_obj_cons, quoted_toList] at h
      exact absurd (List.cons.inj (List.cons.inj h).2).1 (by decide)
    | cons w ws =>
      rw [chars_obj_cons, chars_obj_cons] at h
      rw [fieldsChars_cons, fieldsChars_cons]
      exact congrArg (',' :: ·) (List.cons.inj h).2

mutual

/-- The compact text of a value shows the value and where it ends. -/
theorem chars_append_inj (v w : Json) {rest rest' : List Char} (hrest : Stops rest)
    (hrest' : Stops rest') (h : chars v ++ rest = chars w ++ rest') : v = w ∧ rest = rest' := by
  have hlead := lead_eq_of_append h
  cases v with
  | null =>
    cases w with
    | null => exact ⟨rfl, List.append_cancel_left h⟩
    | _ => simp [lead] at hlead
  | bool b =>
    cases w with
    | bool b' => cases b <;> cases b' <;> simp_all [chars, compact, writeCompact]
    | _ => simp [lead] at hlead
  | num n =>
    cases w with
    | num n' =>
      rw [chars_num, chars_num] at h
      obtain ⟨rfl, hend⟩ := text_append_inj hrest hrest' h
      exact ⟨rfl, hend⟩
    | _ => simp [lead] at hlead
  | str s =>
    cases w with
    | str s' =>
      rw [chars_str, chars_str] at h
      obtain ⟨rfl, hend⟩ := quoted_append_inj h
      exact ⟨rfl, hend⟩
    | _ => simp [lead] at hlead
  | arr items =>
    cases w with
    | arr items' =>
      obtain ⟨rfl, hend⟩ := itemsChars_append_inj items items' (itemsChars_append_eq h)
      exact ⟨rfl, hend⟩
    | _ => simp [lead] at hlead
  | obj fields =>
    cases w with
    | obj fields' =>
      obtain ⟨rfl, hend⟩ := fieldsChars_append_inj fields fields' (fieldsChars_append_eq h)
      exact ⟨rfl, hend⟩
    | _ => simp [lead] at hlead

theorem itemsChars_append_inj (vs ws : List Json) {rest rest' : List Char}
    (h : itemsChars vs ++ rest = itemsChars ws ++ rest') : vs = ws ∧ rest = rest' := by
  cases vs with
  | nil =>
    cases ws with
    | nil => exact ⟨rfl, List.append_cancel_left h⟩
    | cons w ws =>
      rw [itemsChars_cons] at h
      simp [itemsChars, writeCompactItems] at h
  | cons v vs =>
    cases ws with
    | nil =>
      rw [itemsChars_cons] at h
      simp [itemsChars, writeCompactItems] at h
    | cons w ws =>
      rw [itemsChars_cons, itemsChars_cons, List.cons_append, List.cons_append, List.append_assoc,
        List.append_assoc] at h
      obtain ⟨rfl, hrest⟩ := chars_append_inj v w (stops_itemsChars vs rest)
        (stops_itemsChars ws rest') (List.cons.inj h).2
      obtain ⟨rfl, hend⟩ := itemsChars_append_inj vs ws hrest
      exact ⟨rfl, hend⟩

theorem fieldsChars_append_inj (vs ws : List (String × Json)) {rest rest' : List Char}
    (h : fieldsChars vs ++ rest = fieldsChars ws ++ rest') : vs = ws ∧ rest = rest' := by
  cases vs with
  | nil =>
    cases ws with
    | nil => exact ⟨rfl, List.append_cancel_left h⟩
    | cons w ws =>
      rw [fieldsChars_cons] at h
      simp [fieldsChars, writeCompactFields] at h
  | cons v vs =>
    cases ws with
    | nil =>
      rw [fieldsChars_cons] at h
      simp [fieldsChars, writeCompactFields] at h
    | cons w ws =>
      obtain ⟨key, v⟩ := v
      obtain ⟨key', w⟩ := w
      rw [fieldsChars_cons, fieldsChars_cons, List.cons_append, List.cons_append, List.append_assoc,
        List.append_assoc] at h
      obtain ⟨rfl, hvalue⟩ := quoted_append_inj (List.cons.inj h).2
      rw [List.cons_append, List.cons_append, List.append_assoc, List.append_assoc] at hvalue
      obtain ⟨rfl, hrest⟩ := chars_append_inj v w (stops_fieldsChars vs rest)
        (stops_fieldsChars ws rest') (List.cons.inj hvalue).2
      obtain ⟨rfl, hend⟩ := fieldsChars_append_inj vs ws hrest
      exact ⟨rfl, hend⟩

end

/-- A compact text belongs to one value only. -/
theorem compact_injective : Function.Injective compact := by
  intro v w h
  refine (chars_append_inj v w stops_nil stops_nil ?_).1
  rw [chars, chars, h]

/-! ### Several lines -/

/-- A text is the beginning of itself with more behind it. -/
theorem prefix_append (out more : String) : out.toList <+: (out ++ more).toList := by
  rw [String.toList_append]
  exact List.prefix_append _ _

mutual

/-- What is written of a value stands behind what has been written before it. -/
theorem prefix_writeIndented (level : ℕ) (out : String) (value : Json) :
    out.toList <+: (writeIndented level out value).toList := by
  cases value with
  | null | bool _ | num _ | str _ => exact prefix_append _ _
  | arr items =>
    cases items with
    | nil => exact prefix_append _ _
    | cons item rest =>
      exact (prefix_append _ _).trans <| (prefix_append _ _).trans <|
        (prefix_writeIndented _ _ item).trans (prefix_writeIndentedItems _ _ rest)
  | obj fields =>
    cases fields with
    | nil => exact prefix_append _ _
    | cons field rest =>
      exact (prefix_append _ _).trans <| (prefix_append _ _).trans <| (prefix_append _ _).trans <|
        (prefix_append _ _).trans <|
          (prefix_writeIndented _ _ field.2).trans (prefix_writeIndentedFields _ _ rest)

theorem prefix_writeIndentedItems (level : ℕ) (out : String) (items : List Json) :
    out.toList <+: (writeIndentedItems level out items).toList := by
  cases items with
  | nil => exact (prefix_append _ _).trans (prefix_append _ _)
  | cons item rest =>
    exact (prefix_append _ _).trans <| (prefix_append _ _).trans <|
      (prefix_writeIndented _ _ item).trans (prefix_writeIndentedItems _ _ rest)

theorem prefix_writeIndentedFields (level : ℕ) (out : String) (fields : List (String × Json)) :
    out.toList <+: (writeIndentedFields level out fields).toList := by
  cases fields with
  | nil => exact (prefix_append _ _).trans (prefix_append _ _)
  | cons field rest =>
    exact (prefix_append _ _).trans <| (prefix_append _ _).trans <| (prefix_append _ _).trans <|
      (prefix_append _ _).trans <|
        (prefix_writeIndented _ _ field.2).trans (prefix_writeIndentedFields _ _ rest)

end

/-- The text of a list over several lines begins with a bracket. -/
theorem head?_pretty_arr (items : List Json) : (pretty (.arr items)).toList.head? = some '[' := by
  have hbefore : "[".toList <+: (pretty (.arr items)).toList := by
    cases items with
    | nil => exact prefix_append "[" "]"
    | cons item rest =>
      exact (prefix_append "[" _).trans <|
        (prefix_writeIndented _ _ item).trans (prefix_writeIndentedItems _ _ rest)
  obtain ⟨more, hmore⟩ := hbefore
  rw [← hmore]
  rfl

/-- That of an object begins with a brace. -/
theorem head?_pretty_obj (fields : List (String × Json)) :
    (pretty (.obj fields)).toList.head? = some '\x7b' := by
  have hbefore : "\x7b".toList <+: (pretty (.obj fields)).toList := by
    cases fields with
    | nil => exact prefix_append "\x7b" "\x7d"
    | cons field rest =>
      exact (prefix_append "\x7b" _).trans <| (prefix_append _ _).trans <|
        (prefix_append _ _).trans <|
          (prefix_writeIndented _ _ field.2).trans (prefix_writeIndentedFields _ _ rest)
  obtain ⟨more, hmore⟩ := hbefore
  rw [← hmore]
  rfl

end Json

end SceneFlow
