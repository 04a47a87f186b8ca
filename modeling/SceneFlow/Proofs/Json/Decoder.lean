import Mathlib
import SceneFlow.Json.Decoder
import SceneFlow.Proofs.Json.Number
import SceneFlow.Proofs.Json.Spelling

/-!
# Reading what has been written

What a decoder has read can be written and read again. The decoders are put together from a few
combinators, and so are the proofs of this: for each combinator there is a lemma that what it reads
is restored if what its parts read is restored. Everything is said of any spelling of the document
that is written.

## Main definitions

* `Decoder.Gives`: what is read from values of a kind has a property.
* `Decoder.Restored`: a result is read again from what is written for it.
* `Decoder.Fields.Finds`: the fields of a record find their contents in an object.

## Main results

* `Decoder.gives_record`, `Decoder.gives_list`, …: what is read by a combinator.
* `Decoder.Restored.record`: a record is restored if its fields are.
-/

namespace SceneFlow

namespace Decoder

variable {α β : Type} {V : Json → Prop} {spell : Json → Json} {decode : Decoder α}
  {encode : α → Json} {P : α → Prop}

/-! ### What is read -/

/-- What is read from values with the property `V` has the property `P`. -/
def Gives (V : Json → Prop) (decode : Decoder α) (P : α → Prop) : Prop :=
  ∀ value a, V value → decode value = .ok a → P a

theorem gives_any : Gives V any V := by
  rintro value _ hvalue ⟨⟩
  exact hvalue

theorem gives_object : Gives V object fun fields => V (.obj fields) := by
  intro value fields hvalue h
  cases value with
  | obj found =>
    cases h
    exact hvalue
  | _ => cases h

theorem gives_double : Gives V double fun x => x.isFinite = true := by
  intro value x _ h
  cases value with
  | num n =>
    cases h
    exact n.isFinite_toFloat
  | _ => cases h

theorem gives_items (h : Gives V decode P) {values : List Json} {as : List α}
    (hvalues : ∀ value ∈ values, V value) (has : items decode values = .ok as) :
    ∀ a ∈ as, P a := by
  induction values generalizing as with
  | nil =>
    cases has
    exact fun _ ha => absurd ha List.not_mem_nil
  | cons value values ih =>
    obtain ⟨hvalue, hvalues⟩ := List.forall_mem_cons.mp hvalues
    obtain ⟨a, ha, has⟩ := bind_eq_ok_iff.mp has
    obtain ⟨as', has', has⟩ := bind_eq_ok_iff.mp has
    cases has
    exact List.forall_mem_cons.mpr ⟨h _ _ hvalue ha, ih hvalues has'⟩

theorem gives_list (hV : Json.Inherited V) (h : Gives V decode P) :
    Gives V (list decode) fun as => ∀ a ∈ as, P a := by
  intro value as hvalue has
  cases value with
  | arr values => exact gives_items h (hV.items hvalue) has
  | _ => cases has

theorem gives_nullable {Q : Option α → Prop} (hnone : Q none)
    (hsome : ∀ value a, value ≠ .null → V value → decode value = .ok a → Q (some a)) :
    Gives V (nullable decode) Q := by
  intro value result hvalue h
  by_cases hnull : value = .null
  · subst hnull
    cases h
    exact hnone
  · have hread : nullable decode value = (decode value).map some := by
      rw [nullable]
      exact hnull
    obtain ⟨a, ha, rfl⟩ := map_eq_ok_iff.mp (hread.symm.trans h)
    exact hsome value a hnull hvalue ha

theorem gives_values (h : Gives V decode P) {fields : List (String × Json)}
    {entries : List (String × α)} (hfields : ∀ e ∈ fields, V e.2)
    (hentries : values decode fields = .ok entries) : ∀ e ∈ entries, P e.2 := by
  induction fields generalizing entries with
  | nil =>
    cases hentries
    exact fun _ he => absurd he List.not_mem_nil
  | cons field fields ih =>
    obtain ⟨hfield, hfields⟩ := List.forall_mem_cons.mp hfields
    obtain ⟨a, ha, hentries⟩ := bind_eq_ok_iff.mp hentries
    obtain ⟨entries', hentries', hentries⟩ := bind_eq_ok_iff.mp hentries
    cases hentries
    exact List.forall_mem_cons.mpr ⟨h _ _ hfield ha, ih hfields hentries'⟩

theorem gives_table (hV : Json.Inherited V) (h : Gives V decode P) :
    Gives V (table decode) fun table => ∀ e ∈ table.entries, P e.2 := by
  intro value result hvalue hresult
  cases value with
  | obj fields =>
    obtain ⟨entries, hentries, rfl⟩ := map_eq_ok_iff.mp hresult
    intro e he
    have hmem := (Entries.mem_of_mem_overlay he).resolve_left List.not_mem_nil
    exact gives_values h (hV.values hvalue) hentries e hmem
  | _ => cases hresult

theorem gives_firstOf {type : String} {forms : List (Decoder α)}
    (h : ∀ form ∈ forms, Gives V form P) : Gives V (firstOf type forms) P := by
  intro value a hvalue ha
  dsimp only [firstOf] at ha
  split at ha
  · rename_i found hfound
    cases ha
    split at hfound
    · obtain ⟨form, hform, hread⟩ := List.exists_of_findSome?_eq_some hfound
      cases hresult : form _ with
      | ok result =>
        rw [hresult] at hread
        cases hread
        exact h form hform _ _ hvalue hresult
      | error cause =>
        rw [hresult] at hread
        cases hread
    · cases hfound
  · cases ha

/-! ### What is read from records -/

/-- What a record is read from, if the value can be read as one. -/
def parts? : Json → Option Parts
  | .obj entries => some (.fields entries)
  | .arr values => some (.items values)
  | _ => none

/-- The value from which the field with an index and a name is read. -/
def Parts.get? (parts : Parts) (index : ℕ) (name : String) : Option Json :=
  match parts with
  | .fields entries => Entries.get? entries name
  | .items values => values[index]?

/-- The values that a record is read from have a property. -/
def Parts.All (V : Json → Prop) : Parts → Prop
  | .fields entries => ∀ e ∈ entries, V e.2
  | .items values => ∀ value ∈ values, V value

theorem Parts.All.get? {parts : Parts} {index : ℕ} {name : String} {value : Json}
    (h : parts.All V) (hget : parts.get? index name = some value) : V value := by
  cases parts with
  | fields entries => exact h _ (Entries.mem_of_get? hget)
  | items values => exact h _ (List.mem_of_getElem? hget)

theorem all_of_parts? (hV : Json.Inherited V) {value : Json} {parts : Parts} (hvalue : V value)
    (h : parts? value = some parts) : parts.All V := by
  cases value with
  | obj entries =>
    cases h
    exact hV.values hvalue
  | arr values =>
    cases h
    exact hV.items hvalue
  | _ => cases h

namespace Fields

/-- What is read from the fields of records with the property `V` has the property `P`. -/
def Gives (V : Json → Prop) (fields : Fields α) (P : α → Prop) : Prop :=
  ∀ record index parts a, parts.All V → fields.read record index parts = .ok a → P a

theorem gives_true (fields : Fields α) : Gives V fields fun _ => True :=
  fun _ _ _ _ _ _ => trivial

theorem both_eq_ok_iff {first : Except Fault (α → β)} {second : Except Fault α} {b : β} :
    both first second = .ok b ↔ ∃ f a, first = .ok f ∧ second = .ok a ∧ f a = b := by
  constructor
  · intro h
    cases first with
    | ok f =>
      cases second with
      | ok a => exact ⟨f, a, rfl, rfl, Except.ok.inj h⟩
      | error fault => cases h
    | error fault => cases second <;> cases h
  · rintro ⟨f, a, rfl, rfl, rfl⟩
    rfl

theorem Gives.seq {f : Fields (α → β)} {x : Fields α} {Q : β → Prop}
    (hf : Gives V f fun g => ∀ a, P a → Q (g a)) (hx : Gives V x P) : Gives V (f <*> x) Q := by
  intro record index parts b hparts h
  obtain ⟨g, a, hg, ha, rfl⟩ := both_eq_ok_iff.mp h
  exact hf _ _ _ _ hparts hg a (hx _ _ _ _ hparts ha)

theorem Gives.map {f : α → β} {x : Fields α} {Q : β → Prop} (hf : ∀ a, P a → Q (f a))
    (hx : Gives V x P) : Gives V (f <$> x) Q := by
  intro record index parts b hparts h
  obtain ⟨g, a, hg, ha, rfl⟩ := both_eq_ok_iff.mp h
  cases hg
  exact hf a (hx _ _ _ _ hparts ha)

theorem map_snd_locate (name : String) (position : ℕ) (entries : List (String × Json)) :
    (locate name position entries).map Prod.snd = Entries.get? entries name := by
  induction entries generalizing position with
  | nil => rfl
  | cons e entries ih =>
    obtain ⟨key, value⟩ := e
    rw [locate, Entries.get?_cons]
    split
    · rfl
    · exact ih (position + 1)

/-- A field is read from its value, or stands for what it does when it is absent. -/
theorem field_eq_ok_iff {name : String} {absent : Option α} {record : RecordName} {index : ℕ}
    {parts : Parts} {a : α} :
    (field name decode absent).read record index parts = .ok a ↔
      (∃ value, parts.get? index name = some value ∧ decode value = .ok a) ∨
        parts.get? index name = none ∧ absent = some a := by
  have hsome : ∀ value, decode value = .ok a ↔
      (∃ value', some value = some value' ∧ decode value' = .ok a) ∨
        some value = none ∧ absent = some a := by simp
  have hnone : ∀ fault : Fault, absent.elim (.error fault) Except.ok = .ok a ↔
      (∃ value, none = some value ∧ decode value = .ok a) ∨
        (none : Option Json) = none ∧ absent = some a := by
    cases absent <;> simp
  cases parts with
  | fields entries =>
    rw [Parts.get?, ← map_snd_locate name 0 entries]
    dsimp only [field]
    cases locate name 0 entries with
    | some found => exact mapError_eq_ok_iff.trans (hsome found.2)
    | none =>
      refine Iff.trans ?_ (hnone ⟨entries.length + index, .missing name⟩)
      cases absent <;> rfl
  | items values =>
    dsimp only [field, Parts.get?]
    cases values[index]? with
    | some value => exact mapError_eq_ok_iff.trans (hsome value)
    | none =>
      refine Iff.trans ?_ (hnone ⟨index, .tooShort index record.name record.size⟩)
      cases absent <;> rfl

theorem gives_field {name : String} {absent : Option α} (h : Decoder.Gives V decode P)
    (habsent : ∀ a, absent = some a → P a) : Gives V (field name decode absent) P := by
  intro record index parts a hparts hread
  rcases field_eq_ok_iff.mp hread with ⟨value, hvalue, ha⟩ | ⟨-, ha⟩
  · exact h value a (hparts.get? hvalue) ha
  · exact habsent a ha

theorem gives_required {name : String} (h : Decoder.Gives V decode P) :
    Gives V (required name decode) P :=
  gives_field h fun _ ha => by cases ha

theorem gives_optional {name : String} {Q : Option α → Prop}
    (h : Decoder.Gives V (nullable decode) Q) (hnone : Q none) : Gives V (optional name decode) Q :=
  gives_field h fun _ ha => Option.some.inj ha ▸ hnone

theorem gives_defaulted {name : String} {absent : α} (h : Decoder.Gives V decode P)
    (habsent : P absent) : Gives V (defaulted name decode absent) P :=
  gives_field h fun _ ha => Option.some.inj ha ▸ habsent

end Fields

theorem read_of_record {name : String} {fields : Fields α} {value : Json} {a : α}
    (h : record name fields value = .ok a) :
    ∃ parts, parts? value = some parts ∧ fields.read ⟨name, fields.count⟩ 0 parts = .ok a := by
  cases value with
  | obj entries => exact ⟨_, rfl, mapError_eq_ok_iff.mp h⟩
  | arr values =>
    obtain ⟨a', ha', h⟩ := bind_eq_ok_iff.mp h
    split at h
    · cases h
    · cases h
      exact ⟨_, rfl, mapError_eq_ok_iff.mp ha'⟩
  | _ => cases h

theorem gives_record (hV : Json.Inherited V) {name : String} {fields : Fields α}
    (h : fields.Gives V P) : Gives V (record name fields) P := by
  intro value a hvalue hread
  obtain ⟨parts, hparts, hread⟩ := read_of_record hread
  exact h _ _ parts a (all_of_parts? hV hvalue hparts) hread

/-! ### What is restored -/

/-- The result is read again from what is written for it. -/
def Restored (spell : Json → Json) (decode : Decoder α) (encode : α → Json) (a : α) : Prop :=
  decode (spell (encode a)) = .ok a

theorem restored_iff {a : α} :
    Restored spell decode encode a ↔ decode (spell (encode a)) = .ok a :=
  Iff.rfl

namespace Fields

/-- What is looked up in the first object is what is looked up in the second, spelled. -/
def Spelled (spell : Json → Json) (found entries : List (String × Json)) : Prop :=
  ∀ key, Entries.get? found key = (Entries.get? entries key).map spell

/-- The fields are read as `a` from an object with the given entries, however it is spelled. -/
def Finds (spell : Json → Json) (fields : Fields α) (entries : List (String × Json)) (a : α) :
    Prop :=
  ∀ found, Spelled spell found entries →
    ∀ record index, fields.read record index (.fields found) = .ok a

/-- The fields are not to be read from an object with the given entries, however it is spelled. -/
def Misses (spell : Json → Json) (fields : Fields α) (entries : List (String × Json)) : Prop :=
  ∀ found, Spelled spell found entries →
    ∀ record index a, fields.read record index (.fields found) ≠ .ok a

variable {entries found : List (String × Json)} {name : String} {value : Json} {absent : Option α}
  {a : α}

theorem Finds.seq {f : Fields (α → β)} {x : Fields α} {g : α → β} (hf : Finds spell f entries g)
    (hx : Finds spell x entries a) : Finds spell (f <*> x) entries (g a) := by
  intro found hfound record index
  exact both_eq_ok_iff.mpr ⟨g, a, hf found hfound record _, hx found hfound record _, rfl⟩

theorem Finds.map {f : α → β} {x : Fields α} (hx : Finds spell x entries a) :
    Finds spell (f <$> x) entries (f a) := by
  intro found hfound record index
  exact both_eq_ok_iff.mpr ⟨f, a, rfl, hx found hfound record _, rfl⟩

theorem finds_present (hget : Entries.get? entries name = some value)
    (hvalue : decode (spell value) = .ok a) : Finds spell (field name decode absent) entries a := by
  intro found hfound record index
  have hspelled : Entries.get? found name = some (spell value) := by
    rw [hfound, hget, Option.map_some]
  exact field_eq_ok_iff.mpr (.inl ⟨spell value, hspelled, hvalue⟩)

theorem finds_absent (hget : Entries.get? entries name = none) :
    Finds spell (field name decode (some a)) entries a := by
  intro found hfound record index
  have hspelled : Entries.get? found name = none := by rw [hfound, hget, Option.map_none]
  exact field_eq_ok_iff.mpr (.inr ⟨hspelled, rfl⟩)

theorem finds_optional {found : Option α} (hget : Entries.get? entries name = found.map encode)
    (hfound : ∀ a, found = some a → nullable decode (spell (encode a)) = .ok (some a)) :
    Finds spell (optional name decode) entries found := by
  cases found with
  | none => exact finds_absent hget
  | some a => exact finds_present hget (hfound a rfl)

theorem Misses.seq_left {f : Fields (α → β)} {x : Fields α} (hf : Misses spell f entries) :
    Misses spell (f <*> x) entries := by
  intro found hfound record index b h
  obtain ⟨g, -, hg, -⟩ := both_eq_ok_iff.mp h
  exact hf found hfound record _ g hg

theorem Misses.seq_right {f : Fields (α → β)} {x : Fields α} (hx : Misses spell x entries) :
    Misses spell (f <*> x) entries := by
  intro found hfound record index b h
  obtain ⟨-, a, -, ha, -⟩ := both_eq_ok_iff.mp h
  exact hx found hfound record _ a ha

theorem Misses.map {f : α → β} {x : Fields α} (hx : Misses spell x entries) :
    Misses spell (f <$> x) entries :=
  hx.seq_right (f := pure f)

theorem misses_missing (hget : Entries.get? entries name = none) :
    Misses spell (required name decode) entries := by
  intro found hfound record index a h
  have hspelled : Entries.get? found name = none := by rw [hfound, hget, Option.map_none]
  rcases field_eq_ok_iff.mp h with ⟨value, hvalue, -⟩ | ⟨-, ha⟩
  · cases hvalue.symm.trans hspelled
  · cases ha

theorem misses_mismatch (hget : Entries.get? entries name = some value)
    (hvalue : ∀ a, decode (spell value) ≠ .ok a) :
    Misses spell (field name decode absent) entries := by
  intro found hfound record index a h
  have hspelled : Entries.get? found name = some (spell value) := by
    rw [hfound, hget, Option.map_some]
  rcases field_eq_ok_iff.mp h with ⟨found', hfound', ha⟩ | ⟨hnone, -⟩
  · cases hfound'.symm.trans hspelled
    exact hvalue a ha
  · cases hnone.symm.trans hspelled

end Fields

theorem firstOf_cons_of_ne_ok {type : String} {form : Decoder α} {forms : List (Decoder α)}
    {value : Json} (h : ∀ a, form value ≠ .ok a) :
    firstOf type (form :: forms) value = firstOf type forms value := by
  cases value with
  | obj fields =>
    cases hform : form (.obj fields) with
    | ok a => exact absurd hform (h a)
    | error cause => simp [firstOf, hform, Except.toOption]
  | _ => rfl

theorem values_mapValues {entries : Entries α}
    (hentries : ∀ e ∈ entries, Restored spell decode encode e.2) :
    values decode (Entries.mapValues spell (Entries.mapValues encode entries)) = .ok entries := by
  induction entries with
  | nil => rfl
  | cons e entries ih =>
    obtain ⟨he, hentries⟩ := List.forall_mem_cons.mp hentries
    exact bind_eq_ok_iff.mpr ⟨e.2, he, bind_eq_ok_iff.mpr ⟨entries, ih hentries, rfl⟩⟩

/-- Fields in another order are read in that order. -/
theorem values_perm {fields fields' : List (String × Json)} {entries : Entries α}
    (hperm : fields.Perm fields') (h : values decode fields = .ok entries) :
    ∃ entries', values decode fields' = .ok entries' ∧ entries.Perm entries' := by
  induction hperm generalizing entries with
  | nil => exact ⟨entries, h, .refl _⟩
  | cons field _ ih =>
    obtain ⟨a, ha, h⟩ := bind_eq_ok_iff.mp h
    obtain ⟨rest, hrest, h⟩ := bind_eq_ok_iff.mp h
    obtain ⟨rest', hrest', hperm'⟩ := ih hrest
    cases h
    exact ⟨_, bind_eq_ok_iff.mpr ⟨a, ha, bind_eq_ok_iff.mpr ⟨rest', hrest', rfl⟩⟩, hperm'.cons _⟩
  | swap field field' fields =>
    obtain ⟨a', ha', h⟩ := bind_eq_ok_iff.mp h
    obtain ⟨_, h', h⟩ := bind_eq_ok_iff.mp h
    obtain ⟨a, ha, h'⟩ := bind_eq_ok_iff.mp h'
    obtain ⟨rest, hrest, h'⟩ := bind_eq_ok_iff.mp h'
    cases h'
    cases h
    have hlast : values decode (field' :: fields) = .ok ((field'.1, a') :: rest) :=
      bind_eq_ok_iff.mpr ⟨a', ha', bind_eq_ok_iff.mpr ⟨rest, hrest, rfl⟩⟩
    exact ⟨_, bind_eq_ok_iff.mpr ⟨a, ha, bind_eq_ok_iff.mpr ⟨_, hlast, rfl⟩⟩, .swap _ _ _⟩
  | trans _ _ ih ih' =>
    obtain ⟨entries', h', hperm'⟩ := ih h
    obtain ⟨entries'', h'', hperm''⟩ := ih' h'
    exact ⟨entries'', h'', hperm'.trans hperm''⟩

section Restored

variable {a : α} (h : Json.Spelling V spell)

include h

theorem gives_restored_any : Gives V any (Restored spell any fun value => value) := by
  rintro value _ hvalue ⟨⟩
  rw [restored_iff, h.kept hvalue]
  rfl

theorem gives_restored_object : Gives V object (Restored spell object .obj) := by
  intro value fields hvalue hread
  rw [restored_iff, h.kept (gives_object value fields hvalue hread)]
  rfl

theorem restored_text {f : String → α} {g : α → String} (ha : f (g a) = a) :
    Restored spell (fun value => (text value).map f) (fun a => .str (g a)) a := by
  rw [restored_iff, h.spell_str]
  exact congrArg Except.ok ha

theorem restored_choice {choices : List (String × α)} {g : α → String}
    (ha : Entries.get? choices (g a) = some a) :
    Restored spell (choice choices) (fun a => .str (g a)) a := by
  rw [restored_iff, h.spell_str, choice, choice.chosen, ha]

theorem restored_double {x : Float} (hx : x.isFinite = true) :
    Restored spell double .ofFloat x := by
  rw [restored_iff, Json.ofFloat, dif_pos hx, h.spell_num]
  rfl

theorem restored_word (n : UInt32) : Restored spell word (fun n => .ofNat n.toNat) n := by
  have hlt : n.toNat < 0x100000000 := n.toNat_lt
  have hfits : n.toNat < 0x10000000000000000 := by omega
  rw [restored_iff, Json.ofNat, dif_pos hfits, h.spell_num, word, if_pos (by omega),
    Int.toNat_natCast]
  exact congrArg Except.ok UInt32.ofNat_toNat

theorem restored_list {as : List α} (has : ∀ a ∈ as, Restored spell decode encode a) :
    Restored spell (list decode) (fun as => .arr (as.map encode)) as := by
  rw [restored_iff, h.arr]
  change items decode ((as.map encode).map spell) = .ok as
  induction as with
  | nil => rfl
  | cons a as ih =>
    obtain ⟨ha, has⟩ := List.forall_mem_cons.mp has
    exact bind_eq_ok_iff.mpr ⟨a, ha, bind_eq_ok_iff.mpr ⟨as, ih has, rfl⟩⟩

/-- A record is read again if its fields are found among those that are written. -/
theorem restored_record {name : String} {fields : Fields α} {entries : List (String × Json)}
    (hkeys : (Entries.keys entries).Nodup) (hfields : fields.Finds spell entries a) :
    record name fields (spell (.obj entries)) = .ok a := by
  obtain ⟨found, hspell, hfound⟩ := h.get?_obj hkeys
  rw [hspell]
  exact mapError_eq_ok_iff.mpr (hfields found hfound _ 0)

theorem record_misses {name : String} {fields : Fields α} {entries : List (String × Json)}
    (hkeys : (Entries.keys entries).Nodup) (hfields : fields.Misses spell entries) (a : α) :
    record name fields (spell (.obj entries)) ≠ .ok a := by
  obtain ⟨found, hspell, hfound⟩ := h.get?_obj hkeys
  rw [hspell]
  exact fun hread => hfields found hfound _ 0 a (mapError_eq_ok_iff.mp hread)

theorem firstOf_cons_of_ok {type : String} {form : Decoder α} {forms : List (Decoder α)}
    {entries : List (String × Json)} (hkeys : (Entries.keys entries).Nodup)
    (ha : form (spell (.obj entries)) = .ok a) :
    firstOf type (form :: forms) (spell (.obj entries)) = .ok a := by
  obtain ⟨found, hspell, -⟩ := h.obj entries hkeys
  rw [hspell] at ha ⊢
  simp [firstOf, ha, Except.toOption]

/-- A table is read again from entries with its keys. -/
theorem table_spell_obj {entries : List (String × α)} (hkeys : (Entries.keys entries).Nodup)
    (hentries : ∀ e ∈ entries, Restored spell decode encode e.2) :
    table decode (spell (.obj (Entries.mapValues encode entries)))
      = .ok (Table.ofList entries) := by
  obtain ⟨fields, hspell, hperm⟩ := h.obj (Entries.mapValues encode entries) <| by
    rw [Entries.keys_mapValues]
    exact hkeys
  obtain ⟨entries', hread, hperm'⟩ := values_perm hperm.symm (values_mapValues hentries)
  rw [hspell]
  refine map_eq_ok_iff.mpr ⟨entries', hread, Table.ext_get? fun key => ?_⟩
  exact congrArg (Entries.get? · key) (Entries.ofList_eq_of_perm hkeys hperm').symm

end Restored

/-! ### What is written as it was read -/

/-- What is written for what is read from a value is the value. -/
def Faithful (decode : Decoder α) (encode : α → Json) : Prop :=
  ∀ value a, value.Ordered → decode value = .ok a → (encode a).sorted = value

theorem faithful_any : Faithful any fun value => value := by
  rintro value _ hvalue ⟨⟩
  exact hvalue.sorted_eq

theorem faithful_text {f : String → α} {g : α → String} (hfg : ∀ s, g (f s) = s) :
    Faithful (fun value => (text value).map f) fun a => .str (g a) := by
  intro value a _ hread
  obtain ⟨s, hs, rfl⟩ := map_eq_ok_iff.mp hread
  cases value with
  | str s' =>
    cases hs
    change (Json.str (g (f s))).sorted = _
    rw [hfg, Json.sorted]
  | _ => cases hs

theorem Faithful.values (h : Faithful decode encode) {fields : List (String × Json)}
    {entries : List (String × α)} (hfields : ∀ e ∈ fields, e.2.Ordered)
    (hentries : values decode fields = .ok entries) :
    Entries.mapValues Json.sorted (Entries.mapValues encode entries) = fields := by
  induction fields generalizing entries with
  | nil =>
    cases hentries
    rfl
  | cons field fields ih =>
    obtain ⟨hfield, hfields⟩ := List.forall_mem_cons.mp hfields
    obtain ⟨a, ha, hentries⟩ := bind_eq_ok_iff.mp hentries
    obtain ⟨entries', hentries', hentries⟩ := bind_eq_ok_iff.mp hentries
    cases hentries
    exact congrArg₂ List.cons (Prod.ext rfl (h _ _ hfield ha)) (ih hfields hentries')

theorem faithful_table (h : Faithful decode encode) :
    Faithful (table decode) fun table => .obj (table.entries.mapValues encode) := by
  intro value result hvalue hread
  cases value with
  | obj fields =>
    obtain ⟨entries, hentries, rfl⟩ := map_eq_ok_iff.mp hread
    have hsame := h.values hvalue.values hentries
    have hkeys : Entries.keys entries = Entries.keys fields := by
      rw [← hsame, Entries.keys_mapValues, Entries.keys_mapValues]
    have hsorted : Entries.Sorted entries := by
      rw [Entries.sorted_iff_pairwise_keys, hkeys, ← Entries.sorted_iff_pairwise_keys]
      exact hvalue.sorted
    have hentries' : (Table.ofList entries).entries = entries := hsorted.ofList_eq
    rw [Json.sorted_obj, hentries', hsame, Json.ofFields, hvalue.sorted.ofList_eq]
  | _ => cases hread

end Decoder

end SceneFlow
