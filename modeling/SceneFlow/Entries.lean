/-!
# Tables sorted by key

A list of keyed entries in ascending order of the keys, which are compared by code point. The
order is also that of the UTF-8 bytes of the keys. `Entries` are the plain lists, for use inside
recursive types; a `Table` carries the proof that its entries ascend, so two tables with the same
contents are equal.
-/

namespace SceneFlow

/-- Keyed entries, in ascending order of the keys wherever this library builds them. -/
abbrev Entries (α : Type) := List (String × α)

namespace Entries

variable {α β : Type}

/-- The keys ascend strictly. -/
def Sorted (entries : Entries α) : Prop :=
  entries.Pairwise fun a b => a.1 < b.1

instance (entries : Entries α) : Decidable (Sorted entries) :=
  inferInstanceAs (Decidable (List.Pairwise _ _))

/-- The keys, in the order of the entries. -/
def keys (entries : Entries α) : List String :=
  entries.map Prod.fst

/-- The value under a key. -/
def get? (entries : Entries α) (key : String) : Option α :=
  match entries with
  | [] => none
  | (k, v) :: rest => if k = key then some v else get? rest key

/-- Whether there is an entry with the key. -/
def hasKey (entries : Entries α) (key : String) : Bool :=
  (get? entries key).isSome

/-- Put a value under a key, in place of the value that was there. -/
def insert (entries : Entries α) (key : String) (value : α) : Entries α :=
  match entries with
  | [] => [(key, value)]
  | (k, v) :: rest =>
    if key < k then (key, value) :: (k, v) :: rest
    else if k = key then (key, value) :: rest
    else (k, v) :: insert rest key value

/-- The entries without the one under the key. -/
def erase (entries : Entries α) (key : String) : Entries α :=
  entries.filter fun e => e.1 ≠ key

/-- The entries of a list in any order; of two entries with one key the later counts. -/
def ofList (list : List (String × α)) : Entries α :=
  list.foldl (fun entries e => insert entries e.1 e.2) []

/-- Put every entry of the second list into the first. -/
def overlay (entries upper : Entries α) : Entries α :=
  upper.foldl (fun entries e => insert entries e.1 e.2) entries

/-- Change every value and keep the keys. -/
def mapValues (f : α → β) (entries : Entries α) : Entries β :=
  entries.map fun e => (e.1, f e.2)

theorem sorted_nil : Sorted ([] : Entries α) :=
  List.Pairwise.nil

theorem mem_insert {entries : Entries α} {key : String} {value : α} {e : String × α}
    (h : e ∈ insert entries key value) : e = (key, value) ∨ e ∈ entries := by
  induction entries with
  | nil => simpa [insert] using h
  | cons head rest ih =>
    obtain ⟨k, v⟩ := head
    unfold insert at h
    split at h
    · simpa using h
    · split at h
      · rcases List.mem_cons.mp h with h | h
        · exact .inl h
        · exact .inr (List.mem_cons_of_mem _ h)
      · rcases List.mem_cons.mp h with h | h
        · exact .inr (h ▸ List.mem_cons_self)
        · exact (ih h).imp_right (List.mem_cons_of_mem _)

theorem Sorted.insert {entries : Entries α} (h : Sorted entries) (key : String) (value : α) :
    Sorted (entries.insert key value) := by
  induction entries with
  | nil => simp [Entries.insert, Sorted]
  | cons head rest ih =>
    obtain ⟨k, v⟩ := head
    obtain ⟨hhead, hrest⟩ := List.pairwise_cons.mp h
    unfold Entries.insert
    split
    · rename_i hlt
      refine List.pairwise_cons.mpr ⟨fun e he => ?_, h⟩
      rcases List.mem_cons.mp he with rfl | he
      · exact hlt
      · exact String.lt_trans hlt (hhead e he)
    · split
      · rename_i heq
        exact List.pairwise_cons.mpr ⟨fun e he => heq ▸ hhead e he, hrest⟩
      · rename_i hle hne
        refine List.pairwise_cons.mpr ⟨fun e he => ?_, ih hrest⟩
        rcases mem_insert he with rfl | he
        · refine Decidable.byContradiction fun hlt => hne ?_
          exact String.le_antisymm (String.not_lt.mp hle) (String.not_lt.mp hlt)
        · exact hhead e he

theorem Sorted.erase {entries : Entries α} (h : Sorted entries) (key : String) :
    Sorted (entries.erase key) :=
  List.Pairwise.filter _ h

theorem Sorted.overlay {entries : Entries α} (h : Sorted entries) (upper : Entries α) :
    Sorted (entries.overlay upper) := by
  unfold Entries.overlay
  induction upper generalizing entries with
  | nil => exact h
  | cons e rest ih => exact ih (h.insert e.1 e.2)

theorem sorted_ofList (list : List (String × α)) : Sorted (ofList list) :=
  sorted_nil.overlay list

theorem Sorted.mapValues {entries : Entries α} (h : Sorted entries) (f : α → β) :
    Sorted (entries.mapValues f) :=
  List.pairwise_map.mpr h

end Entries

/-- The texts of a list, ascending and each once. -/
def sortedTexts (texts : List String) : List String :=
  Entries.keys (Entries.ofList (texts.map fun text => (text, ())))

/-- Entries in ascending order of their keys. -/
structure Table (α : Type) where
  /-- The entries. -/
  entries : Entries α
  /-- The keys ascend strictly. -/
  sorted : entries.Sorted

namespace Table

variable {α β : Type}

instance : EmptyCollection (Table α) :=
  ⟨⟨[], Entries.sorted_nil⟩⟩

instance : Inhabited (Table α) :=
  ⟨∅⟩

/-- The entries of a list in any order; of two entries with one key the later counts. -/
def ofList (list : List (String × α)) : Table α :=
  ⟨Entries.ofList list, Entries.sorted_ofList list⟩

/-- The value under a key. -/
def get? (table : Table α) (key : String) : Option α :=
  Entries.get? table.entries key

/-- The keys, ascending. -/
def keys (table : Table α) : List String :=
  Entries.keys table.entries

/-- Put a value under a key, in place of the value that was there. -/
def insert (table : Table α) (key : String) (value : α) : Table α :=
  ⟨Entries.insert table.entries key value, table.sorted.insert key value⟩

/-- The table without the entry under the key. -/
def erase (table : Table α) (key : String) : Table α :=
  ⟨Entries.erase table.entries key, table.sorted.erase key⟩

/-- Change every value and keep the keys. -/
def mapValues (f : α → β) (table : Table α) : Table β :=
  ⟨Entries.mapValues f table.entries, table.sorted.mapValues f⟩

end Table

end SceneFlow
