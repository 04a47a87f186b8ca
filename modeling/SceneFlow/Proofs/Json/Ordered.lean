import Mathlib
import SceneFlow.Json.Reader
import SceneFlow.Proofs.Entries
import SceneFlow.Proofs.Except

/-!
# Values with ascending keys

The keys of every object that is read ascend, also of those that lie deep inside other values. This
makes a value the only one with its contents.

## Main definitions

* `Json.Ordered`: the keys of all objects in a value ascend.

## Main results

* `Json.Ordered.overlay`, `Json.Ordered.erase`: changing fields keeps them in order.
* `Json.ordered_of_read`: what is read from a text is ordered.
-/

namespace SceneFlow

namespace Json

/-- The keys of all objects in a value ascend. -/
inductive Ordered : Json → Prop where
  /-- The null value. -/
  | null : Ordered .null
  /-- A truth value. -/
  | bool (value : Bool) : Ordered (.bool value)
  /-- A number. -/
  | num (value : Number) : Ordered (.num value)
  /-- A text. -/
  | str (value : String) : Ordered (.str value)
  /-- A list of such values. -/
  | arr {items : List Json} (hitems : ∀ item ∈ items, Ordered item) : Ordered (.arr items)
  /-- An object of such values with ascending keys. -/
  | obj {fields : Entries Json} (hsorted : fields.Sorted)
    (hvalues : ∀ e ∈ fields, Ordered e.2) : Ordered (.obj fields)

namespace Ordered

variable {fields upper : Entries Json} {value : Json} {key : String}

theorem sorted (h : (Json.obj fields).Ordered) : fields.Sorted := by
  cases h with
  | obj hsorted _ => exact hsorted

theorem values (h : (Json.obj fields).Ordered) : ∀ e ∈ fields, e.2.Ordered := by
  cases h with
  | obj _ hvalues => exact hvalues

theorem items {items : List Json} (h : (Json.arr items).Ordered) :
    ∀ item ∈ items, item.Ordered := by
  cases h with
  | arr hitems => exact hitems

theorem empty : (Json.obj []).Ordered :=
  .obj Entries.sorted_nil fun _ he => absurd he List.not_mem_nil

theorem get? (h : (Json.obj fields).Ordered) (hget : fields.get? key = some value) :
    value.Ordered :=
  h.values _ ((h.sorted.get?_eq_some_iff key value).mp hget)

theorem insert (h : (Json.obj fields).Ordered) (hvalue : value.Ordered) (key : String) :
    (Json.obj (fields.insert key value)).Ordered := by
  refine .obj (h.sorted.insert key value) fun e he => ?_
  rcases Entries.mem_insert he with rfl | he
  · exact hvalue
  · exact h.values e he

theorem overlay (h : (Json.obj fields).Ordered) (hupper : ∀ e ∈ upper, e.2.Ordered) :
    (Json.obj (fields.overlay upper)).Ordered := by
  rw [Entries.overlay]
  induction upper generalizing fields with
  | nil => exact h
  | cons e rest ih =>
    obtain ⟨he, hrest⟩ := List.forall_mem_cons.mp hupper
    exact ih (h.insert he e.1) hrest

theorem erase (h : (Json.obj fields).Ordered) (key : String) :
    (Json.obj (fields.erase key)).Ordered :=
  .obj (h.sorted.erase key) fun e he => h.values e (List.mem_of_mem_filter he)

end Ordered

theorem ordered_ofFields {list : List (String × Json)} (h : ∀ e ∈ list, e.2.Ordered) :
    (ofFields list).Ordered :=
  Ordered.empty.overlay h

/-! ### What is read from a text -/

theorem ordered_of_scanScalar {limit : Nat} {cs rest : List Char} {value : Json}
    (h : scanScalar limit cs = .ok (value, rest)) : value.Ordered := by
  unfold scanScalar at h
  split at h
  · cases h
  · obtain ⟨_, -, heq⟩ := map_eq_ok_iff.mp h
    exact (Prod.mk.inj heq).1 ▸ .null
  · obtain ⟨_, -, heq⟩ := map_eq_ok_iff.mp h
    exact (Prod.mk.inj heq).1 ▸ .bool true
  · obtain ⟨_, -, heq⟩ := map_eq_ok_iff.mp h
    exact (Prod.mk.inj heq).1 ▸ .bool false
  · obtain ⟨_, -, heq⟩ := map_eq_ok_iff.mp h
    exact (Prod.mk.inj heq).1 ▸ .str _
  · split at h
    · obtain ⟨_, -, heq⟩ := map_eq_ok_iff.mp h
      exact (Prod.mk.inj heq).1 ▸ .num _
    · cases h

theorem unwanted_ne_ok {α : Type} (limit : Nat) (wanted : Wanted) (cs : List Char) (a : α) :
    unwanted limit wanted cs ≠ .ok a := by
  intro h
  unfold unwanted at h
  split at h
  all_goals
    obtain ⟨_, -, h⟩ := bind_eq_ok_iff.mp h
    cases h

/-- All that is read in some number of steps is ordered. -/
structure ReadsOrdered (limit fuel : Nat) : Prop where
  /-- Values. -/
  value : ∀ room shape cs value rest,
    readValue limit fuel room shape cs = .ok (value, rest) → value.Ordered
  /-- Items of lists. -/
  items : ∀ room shape first cs items rest,
    readItems limit fuel room shape first cs = .ok (items, rest) → ∀ item ∈ items, item.Ordered
  /-- Fields of objects. -/
  entries : ∀ room shape first cs entries rest,
    readEntries limit fuel room shape first cs = .ok (entries, rest) → ∀ e ∈ entries, e.2.Ordered
  /-- Fields of records that are written as lists. -/
  positional : ∀ room name size index fields cs found rest,
    readPositional limit fuel room name size index fields cs = .ok (found, rest) →
      ∀ e ∈ found, e.2.Ordered
  /-- Fields of records that are written as objects. -/
  named : ∀ room fields seen first cs found rest,
    readNamed limit fuel room fields seen first cs = .ok (found, rest) → ∀ e ∈ found, e.2.Ordered

variable {limit fuel : Nat}

theorem ordered_of_readValue (h : ReadsOrdered limit fuel) {room : Nat} {shape : Shape}
    {cs rest : List Char} {value : Json}
    (hread : readValue limit (fuel + 1) room shape cs = .ok (value, rest)) : value.Ordered := by
  rw [readValue] at hread
  split at hread
  · cases hread
  · split at hread
    · cases hread
    · cases hread
    · cases hread
    · obtain ⟨⟨items, rest'⟩, hitems, hread⟩ := bind_eq_ok_iff.mp hread
      cases hread
      exact .arr (h.items _ _ _ _ _ _ hitems)
    · obtain ⟨⟨items, rest'⟩, hitems, hread⟩ := bind_eq_ok_iff.mp hread
      cases hread
      exact .arr (h.items _ _ _ _ _ _ hitems)
    · obtain ⟨⟨found, rest'⟩, hfound, hread⟩ := bind_eq_ok_iff.mp hread
      cases hread
      exact ordered_ofFields (h.positional _ _ _ _ _ _ _ _ hfound)
  · split at hread
    · cases hread
    · cases hread
    · cases hread
    · obtain ⟨⟨found, rest'⟩, hfound, hread⟩ := bind_eq_ok_iff.mp hread
      cases hread
      exact ordered_ofFields (h.entries _ _ _ _ _ _ hfound)
    · obtain ⟨⟨found, rest'⟩, hfound, hread⟩ := bind_eq_ok_iff.mp hread
      cases hread
      exact ordered_ofFields (h.entries _ _ _ _ _ _ hfound)
    · obtain ⟨⟨found, rest'⟩, hfound, hread⟩ := bind_eq_ok_iff.mp hread
      cases hread
      exact ordered_ofFields (h.named _ _ _ _ _ _ _ hfound)
  · split at hread
    · exact ordered_of_scanScalar (mapError_eq_ok_iff.mp hread)
    · split at hread
      · exact ordered_of_scanScalar (mapError_eq_ok_iff.mp hread)
      · exact absurd hread (unwanted_ne_ok _ _ _ _)
    · exact absurd hread (unwanted_ne_ok _ _ _ _)
    · exact absurd hread (unwanted_ne_ok _ _ _ _)
    · exact absurd hread (unwanted_ne_ok _ _ _ _)

theorem ordered_of_readItems (h : ReadsOrdered limit fuel) {room : Nat} {shape : Shape}
    {first : Bool} {cs rest : List Char} {items : List Json}
    (hread : readItems limit (fuel + 1) room shape first cs = .ok (items, rest)) :
    ∀ item ∈ items, item.Ordered := by
  rw [readItems] at hread
  obtain ⟨⟨more, rest'⟩, -, hread⟩ := bind_eq_ok_iff.mp hread
  dsimp only at hread
  split at hread
  · obtain ⟨⟨item, rest'⟩, hitem, hread⟩ := bind_eq_ok_iff.mp hread
    obtain ⟨⟨items', rest''⟩, hitems, hread⟩ := bind_eq_ok_iff.mp hread
    cases hread
    exact List.forall_mem_cons.mpr ⟨h.value _ _ _ _ _ hitem, h.items _ _ _ _ _ _ hitems⟩
  · cases hread
    exact fun _ hitem => absurd hitem List.not_mem_nil

theorem ordered_of_readEntries (h : ReadsOrdered limit fuel) {room : Nat} {shape : Shape}
    {first : Bool} {cs rest : List Char} {entries : List (String × Json)}
    (hread : readEntries limit (fuel + 1) room shape first cs = .ok (entries, rest)) :
    ∀ e ∈ entries, e.2.Ordered := by
  rw [readEntries] at hread
  obtain ⟨⟨more, rest'⟩, -, hread⟩ := bind_eq_ok_iff.mp hread
  dsimp only at hread
  split at hread
  · obtain ⟨⟨key, rest'⟩, -, hread⟩ := bind_eq_ok_iff.mp hread
    obtain ⟨rest', -, hread⟩ := bind_eq_ok_iff.mp hread
    obtain ⟨⟨value, rest'⟩, hvalue, hread⟩ := bind_eq_ok_iff.mp hread
    obtain ⟨⟨entries', rest''⟩, hentries, hread⟩ := bind_eq_ok_iff.mp hread
    cases hread
    exact List.forall_mem_cons.mpr ⟨h.value _ _ _ _ _ hvalue, h.entries _ _ _ _ _ _ hentries⟩
  · cases hread
    exact fun _ he => absurd he List.not_mem_nil

theorem ordered_of_readPositional (h : ReadsOrdered limit fuel) {room size index : Nat}
    {name : String} {fields : List (String × Bool × Shape)} {cs rest : List Char}
    {found : List (String × Json)}
    (hread : readPositional limit (fuel + 1) room name size index fields cs = .ok (found, rest)) :
    ∀ e ∈ found, e.2.Ordered := by
  cases fields with
  | nil =>
    rw [readPositional] at hread
    obtain ⟨rest', -, hread⟩ := bind_eq_ok_iff.mp hread
    cases hread
    exact fun _ he => absurd he List.not_mem_nil
  | cons field fields =>
    obtain ⟨field, needed, shape⟩ := field
    rw [readPositional] at hread
    obtain ⟨⟨more, rest'⟩, -, hread⟩ := bind_eq_ok_iff.mp hread
    dsimp only at hread
    split at hread
    · obtain ⟨⟨value, rest'⟩, hvalue, hread⟩ := bind_eq_ok_iff.mp hread
      obtain ⟨⟨found', rest''⟩, hfound, hread⟩ := bind_eq_ok_iff.mp hread
      cases hread
      exact List.forall_mem_cons.mpr
        ⟨h.value _ _ _ _ _ hvalue, h.positional _ _ _ _ _ _ _ _ hfound⟩
    · split at hread
      · cases hread
      · cases hread
        exact fun _ he => absurd he List.not_mem_nil

theorem ordered_of_readNamed (h : ReadsOrdered limit fuel) {room : Nat}
    {fields : List (String × Bool × Shape)} {seen : List String} {first : Bool}
    {cs rest : List Char} {found : List (String × Json)}
    (hread : readNamed limit (fuel + 1) room fields seen first cs = .ok (found, rest)) :
    ∀ e ∈ found, e.2.Ordered := by
  rw [readNamed] at hread
  obtain ⟨⟨more, rest'⟩, -, hread⟩ := bind_eq_ok_iff.mp hread
  dsimp only at hread
  split at hread
  · obtain ⟨⟨key, rest'⟩, -, hread⟩ := bind_eq_ok_iff.mp hread
    dsimp only at hread
    split at hread
    · split at hread
      · cases hread
      · obtain ⟨rest', -, hread⟩ := bind_eq_ok_iff.mp hread
        obtain ⟨⟨value, rest'⟩, hvalue, hread⟩ := bind_eq_ok_iff.mp hread
        obtain ⟨⟨found', rest''⟩, hfound, hread⟩ := bind_eq_ok_iff.mp hread
        cases hread
        exact List.forall_mem_cons.mpr
          ⟨h.value _ _ _ _ _ hvalue, h.named _ _ _ _ _ _ _ hfound⟩
    · obtain ⟨rest', -, hread⟩ := bind_eq_ok_iff.mp hread
      obtain ⟨rest'', -, hread⟩ := bind_eq_ok_iff.mp hread
      exact h.named _ _ _ _ _ _ _ hread
  · split at hread
    · cases hread
    · cases hread
      exact fun _ he => absurd he List.not_mem_nil

/-- All that is read is ordered, however many steps it takes. -/
theorem readsOrdered (limit fuel : Nat) : ReadsOrdered limit fuel := by
  induction fuel with
  | zero =>
    refine ⟨fun _ _ _ _ _ h => ?_, fun _ _ _ _ _ _ h => ?_, fun _ _ _ _ _ _ h => ?_,
      fun _ _ _ _ _ _ _ _ h => ?_, fun _ _ _ _ _ _ _ h => ?_⟩
    · rw [readValue] at h
      cases h
    · rw [readItems] at h
      cases h
    · rw [readEntries] at h
      cases h
    · rw [readPositional] at h
      cases h
    · rw [readNamed] at h
      cases h
  | succ fuel ih =>
    exact ⟨fun _ _ _ _ _ => ordered_of_readValue ih, fun _ _ _ _ _ _ => ordered_of_readItems ih,
      fun _ _ _ _ _ _ => ordered_of_readEntries ih,
      fun _ _ _ _ _ _ _ _ => ordered_of_readPositional ih,
      fun _ _ _ _ _ _ _ => ordered_of_readNamed ih⟩

/-- What is read from a text is ordered. -/
theorem ordered_of_read {shape : Shape} {text : String} {value : Json}
    (h : read shape text = .ok value) : value.Ordered := by
  obtain ⟨⟨value', rest⟩, hvalue, h⟩ := bind_eq_ok_iff.mp h
  dsimp only at h
  split at h
  · cases h
    exact (readsOrdered _ _).value _ _ _ _ _ hvalue
  · cases h

end Json

end SceneFlow
