import Mathlib
import SceneFlow.Proofs.Json.Ordered

/-!
# Values in ascending order

A record is written with its fields in the order of their declaration, as a text shows them. Where
the document is held as a value, the fields of every object ascend. Both are spellings of what is
written: they differ in the order in which objects list their fields and in nothing else.

## Main definitions

* `Json.sorted`: a value with the fields of all its objects in ascending order.
* `Json.Spelling`: a way to spell values that keeps values of a certain kind as they are.

## Main results

* `Json.ordered_sorted`, `Json.Ordered.sorted_eq`: a sorted value is ordered, and an ordered one is
  sorted already.
* `Json.Spelling.declared`, `Json.Spelling.ascending`: the two spellings of documents.
-/

namespace SceneFlow

namespace Json

mutual

/-- The value with the fields of all its objects in ascending order of the keys. -/
def sorted : Json → Json
  | .null => .null
  | .bool b => .bool b
  | .num n => .num n
  | .str s => .str s
  | .arr items => .arr (sortedItems items)
  | .obj fields => ofFields (sortedFields fields)

/-- The items of a list, each with its fields in order. -/
def sortedItems : List Json → List Json
  | [] => []
  | item :: rest => sorted item :: sortedItems rest

/-- The fields of an object, each with its own fields in order. -/
def sortedFields : List (String × Json) → List (String × Json)
  | [] => []
  | (key, value) :: rest => (key, sorted value) :: sortedFields rest

end

theorem sortedItems_eq_map (items : List Json) : sortedItems items = items.map sorted := by
  induction items with
  | nil => rw [sortedItems, List.map_nil]
  | cons item rest ih => rw [sortedItems, ih, List.map_cons]

theorem sortedFields_eq_mapValues (fields : List (String × Json)) :
    sortedFields fields = Entries.mapValues sorted fields := by
  induction fields with
  | nil =>
    rw [sortedFields]
    rfl
  | cons field rest ih =>
    obtain ⟨key, value⟩ := field
    rw [sortedFields, ih]
    rfl

@[simp]
theorem sorted_arr (items : List Json) : sorted (.arr items) = .arr (items.map sorted) := by
  rw [sorted, sortedItems_eq_map]

@[simp]
theorem sorted_obj (fields : List (String × Json)) :
    sorted (.obj fields) = ofFields (Entries.mapValues sorted fields) := by
  rw [sorted, sortedFields_eq_mapValues]

mutual

/-- A sorted value is ordered. -/
theorem ordered_sorted (value : Json) : value.sorted.Ordered := by
  cases value with
  | null | bool _ | num _ | str _ =>
    rw [sorted]
    constructor
  | arr items =>
    rw [sorted]
    exact .arr (ordered_sortedItems items)
  | obj fields =>
    rw [sorted]
    exact ordered_ofFields (ordered_sortedFields fields)

theorem ordered_sortedItems (items : List Json) : ∀ item ∈ sortedItems items, item.Ordered := by
  cases items with
  | nil => simp [sortedItems]
  | cons item rest =>
    rw [sortedItems, List.forall_mem_cons]
    exact ⟨ordered_sorted item, ordered_sortedItems rest⟩

theorem ordered_sortedFields (fields : List (String × Json)) :
    ∀ e ∈ sortedFields fields, e.2.Ordered := by
  cases fields with
  | nil => simp [sortedFields]
  | cons field rest =>
    obtain ⟨key, value⟩ := field
    rw [sortedFields, List.forall_mem_cons]
    exact ⟨ordered_sorted value, ordered_sortedFields rest⟩

end

/-- A value whose keys ascend is sorted already. -/
theorem Ordered.sorted_eq {value : Json} (h : value.Ordered) : value.sorted = value := by
  induction h with
  | null | bool _ | num _ | str _ => rw [Json.sorted]
  | arr _ ih =>
    rw [sorted_arr, List.map_congr_left ih, List.map_id']
  | @obj fields hsorted _ ih =>
    have hsame : Entries.mapValues Json.sorted fields = fields := by
      refine (List.map_congr_left fun e he => ?_).trans (List.map_id' fields)
      rw [ih e he]
    rw [sorted_obj, hsame, ofFields, hsorted.ofList_eq]

/-! ### Fields -/

/-- The value of a field of an object. -/
def member? (value : Json) (key : String) : Option Json :=
  match value with
  | .obj fields => Entries.get? fields key
  | _ => none

theorem member?_sorted {fields : List (String × Json)} (hkeys : (Entries.keys fields).Nodup)
    (key : String) :
    (Json.obj fields).sorted.member? key = (Entries.get? fields key).map sorted := by
  have hkeys' : (Entries.keys (Entries.mapValues sorted fields)).Nodup := by
    rw [Entries.keys_mapValues]
    exact hkeys
  rw [sorted_obj]
  exact (Entries.get?_ofList hkeys' key).trans (Entries.get?_mapValues _ _ _)

/-! ### Spellings -/

/-- A property that a value shares with its items and fields. -/
structure Inherited (V : Json → Prop) : Prop where
  /-- Items have it. -/
  items : ∀ {items : List Json}, V (.arr items) → ∀ item ∈ items, V item
  /-- The values of fields have it. -/
  values : ∀ {fields : List (String × Json)}, V (.obj fields) → ∀ e ∈ fields, V e.2

theorem Inherited.true : Inherited fun _ => True :=
  ⟨fun _ _ _ => trivial, fun _ _ _ => trivial⟩

theorem Inherited.ordered : Inherited Ordered :=
  ⟨Ordered.items, Ordered.values⟩

/-- A way to spell values. Objects may list their fields in another order; all else is spelled part
by part, and values that have the property `V` are spelled as they are. -/
structure Spelling (V : Json → Prop) (spell : Json → Json) : Prop extends Inherited V where
  /-- The null value has the property. -/
  null : V .null
  /-- Numbers have the property. -/
  num : ∀ n, V (.num n)
  /-- Texts have the property. -/
  str : ∀ s, V (.str s)
  /-- Values with the property are spelled as they are. -/
  kept : ∀ {value}, V value → spell value = value
  /-- Lists are spelled item by item. -/
  arr : ∀ items, spell (.arr items) = .arr (items.map spell)
  /-- Objects are spelled field by field, in some order. -/
  obj : ∀ fields, (Entries.keys fields).Nodup →
    ∃ fields', spell (.obj fields) = .obj fields' ∧ fields'.Perm (Entries.mapValues spell fields)

/-- A document as it is written, with the fields of records in the order of their declaration. -/
theorem Spelling.declared : Spelling (fun _ => True) fun value => value where
  toInherited := .true
  null := trivial
  num _ := trivial
  str _ := trivial
  kept _ := rfl
  arr items := by rw [List.map_id']
  obj fields _ := ⟨fields, rfl, by rw [Entries.mapValues, List.map_id']⟩

/-- A document with all fields in ascending order. -/
theorem Spelling.ascending : Spelling Ordered sorted where
  toInherited := .ordered
  null := .null
  num := .num
  str := .str
  kept := Ordered.sorted_eq
  arr := sorted_arr
  obj fields hkeys := by
    refine ⟨_, sorted_obj fields, Entries.ofList_perm ?_⟩
    rw [Entries.keys_mapValues]
    exact hkeys

namespace Spelling

variable {V : Json → Prop} {spell : Json → Json} (h : Spelling V spell)

include h

theorem spell_num (n : Number) : spell (.num n) = .num n :=
  h.kept (h.num n)

theorem spell_str (s : String) : spell (.str s) = .str s :=
  h.kept (h.str s)

/-- What is looked up in an object as it is spelled is what is looked up in the object, spelled. -/
theorem get?_obj {fields : List (String × Json)} (hkeys : (Entries.keys fields).Nodup) :
    ∃ fields', spell (.obj fields) = .obj fields' ∧
      ∀ key, Entries.get? fields' key = (Entries.get? fields key).map spell := by
  obtain ⟨fields', hspell, hperm⟩ := h.obj fields hkeys
  refine ⟨fields', hspell, fun key => ?_⟩
  have hkeys' : (Entries.keys (Entries.mapValues spell fields)).Nodup := by
    rw [Entries.keys_mapValues]
    exact hkeys
  rw [← Entries.get?_eq_of_perm hkeys' hperm.symm, Entries.get?_mapValues]

end Spelling

end Json

end SceneFlow
