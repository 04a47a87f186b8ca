import Mathlib
import SceneFlow.Entries

/-!
# Looking up sorted entries

Putting a value under a key changes what is looked up under this key and under no other. Entries in
order are determined by what is looked up in them, so two ways of putting them together give the
same entries if they give the same values.

## Main results

* `Entries.get?_insert`, `Entries.get?_overlay`: what is looked up behind a change.
* `Entries.Sorted.ext`: sorted entries with the same values are equal.
* `Entries.get?_ofList`, `Entries.ofList_eq_of_perm`: entries that are put in order.
* `mem_sortedTexts`, `pairwise_sortedTexts`: the texts of a list, ascending and each once.
-/

namespace SceneFlow

namespace Entries

variable {α : Type} {entries other : Entries α}

@[simp]
theorem get?_nil (key : String) : get? ([] : Entries α) key = none :=
  rfl

theorem get?_cons (k key : String) (value : α) (rest : Entries α) :
    get? ((k, value) :: rest) key = if k = key then some value else get? rest key :=
  rfl

theorem get?_insert (entries : Entries α) (k key : String) (value : α) :
    (entries.insert k value).get? key = if k = key then some value else entries.get? key := by
  induction entries with
  | nil => rfl
  | cons head rest ih =>
    obtain ⟨first, v⟩ := head
    rw [insert]
    split
    · rfl
    · split
      · rename_i heq
        simp only [get?_cons, heq]
        split <;> rfl
      · rename_i hne
        rw [get?_cons, ih, get?_cons]
        by_cases hkey : k = key
        · subst hkey
          simp [hne]
        · simp [hkey]

theorem mem_of_get? {key : String} {value : α} (h : entries.get? key = some value) :
    (key, value) ∈ entries := by
  induction entries with
  | nil => cases h
  | cons head rest ih =>
    obtain ⟨k, v⟩ := head
    rw [get?_cons] at h
    split at h
    · rename_i heq
      rw [heq, Option.some.inj h]
      exact List.mem_cons_self
    · exact List.mem_cons_of_mem _ (ih h)

theorem get?_eq_none_iff (key : String) : entries.get? key = none ↔ key ∉ entries.keys := by
  induction entries with
  | nil => simp [keys]
  | cons head rest ih =>
    obtain ⟨k, v⟩ := head
    rw [get?_cons]
    simp only [keys, List.map_cons, List.mem_cons, not_or] at ih ⊢
    split
    · rename_i heq
      simp [heq]
    · rename_i hne
      rw [ih]
      exact ⟨fun h => ⟨fun heq => hne heq.symm, h⟩, And.right⟩

theorem mem_keys_iff (key : String) : key ∈ entries.keys ↔ (entries.get? key).isSome := by
  rw [← Option.ne_none_iff_isSome, ne_eq, get?_eq_none_iff, not_not]

/-- Only the keys of the upper entries change what is looked up. -/
theorem get?_overlay (hupper : other.keys.Nodup) (key : String) :
    (entries.overlay other).get? key = (other.get? key).or (entries.get? key) := by
  rw [overlay]
  induction other generalizing entries with
  | nil => simp
  | cons head rest ih =>
    obtain ⟨k, v⟩ := head
    obtain ⟨hnot, hrest⟩ := List.nodup_cons.mp hupper
    rw [List.foldl_cons, ih hrest, get?_insert, get?_cons]
    by_cases hkey : k = key
    · subst hkey
      rw [if_pos rfl, if_pos rfl, (get?_eq_none_iff k).mpr hnot]
      rfl
    · rw [if_neg hkey, if_neg hkey]

theorem get?_overlay_of_eq_some (hupper : other.keys.Nodup) {key : String} {value : α}
    (h : other.get? key = some value) : (entries.overlay other).get? key = some value := by
  rw [get?_overlay hupper, h, Option.some_or]

theorem get?_overlay_of_notMem {key : String} (h : key ∉ other.keys) :
    (entries.overlay other).get? key = entries.get? key := by
  rw [overlay]
  induction other generalizing entries with
  | nil => rfl
  | cons head rest ih =>
    obtain ⟨hhead, hrest⟩ := not_or.mp fun hkey => h (List.mem_cons.mpr hkey)
    rw [List.foldl_cons, ih hrest, get?_insert, if_neg (Ne.symm hhead)]

theorem sorted_iff_pairwise_keys : entries.Sorted ↔ entries.keys.Pairwise (· < ·) :=
  List.pairwise_map.symm

theorem Sorted.nodup_keys (h : entries.Sorted) : entries.keys.Nodup :=
  List.pairwise_map.mpr (h.imp fun hlt => String.ne_of_lt hlt)

/-- What is looked up under a key of sorted entries. -/
theorem Sorted.get?_eq_some_iff (h : entries.Sorted) (key : String) (value : α) :
    entries.get? key = some value ↔ (key, value) ∈ entries := by
  induction entries with
  | nil => simp
  | cons head rest ih =>
    obtain ⟨k, v⟩ := head
    obtain ⟨hfirst, hrest⟩ := List.pairwise_cons.mp h
    rw [get?_cons, List.mem_cons]
    by_cases hkey : k = key
    · subst hkey
      have hnot : (k, value) ∉ rest := fun hmem => String.lt_irrefl k (hfirst _ hmem)
      rw [if_pos rfl, or_iff_left hnot]
      constructor
      · intro heq
        rw [Option.some.inj heq]
      · intro heq
        rw [(Prod.mk.inj heq).2]
    · rw [if_neg hkey, ih hrest, or_iff_right fun heq => hkey (Prod.mk.inj heq).1.symm]

/-- Sorted entries with the same values are equal. -/
theorem Sorted.ext (h : entries.Sorted) (hother : other.Sorted)
    (hget : ∀ key, entries.get? key = other.get? key) : entries = other := by
  have hmem : ∀ e, e ∈ entries ↔ e ∈ other := fun ⟨key, value⟩ => by
    rw [← h.get?_eq_some_iff, hget, hother.get?_eq_some_iff]
  have hnodup : ∀ {list : Entries α}, list.Sorted → list.Nodup := fun hlist =>
    hlist.nodup_keys.of_map _
  exact ((List.perm_ext_iff_of_nodup (hnodup h) (hnodup hother)).mpr hmem).eq_of_pairwise
    (fun a b _ _ hab hba => absurd (String.lt_trans hab hba) (String.lt_irrefl _)) h hother

theorem mem_keys_overlay (key : String) :
    key ∈ (entries.overlay other).keys ↔ key ∈ entries.keys ∨ key ∈ other.keys := by
  rw [overlay]
  induction other generalizing entries with
  | nil => simp [keys]
  | cons head rest ih =>
    obtain ⟨k, v⟩ := head
    have hentries : key ∈ entries.keys ↔ (entries.get? key).isSome := mem_keys_iff key
    rw [List.foldl_cons, ih, mem_keys_iff, get?_insert, hentries]
    simp only [keys, List.map_cons, List.mem_cons]
    by_cases hkey : k = key
    · simp [hkey]
    · simp [hkey, Ne.symm hkey]

theorem get?_erase (entries : Entries α) (k key : String) :
    (entries.erase k).get? key = if k = key then none else entries.get? key := by
  induction entries with
  | nil => simp [erase]
  | cons head rest ih =>
    obtain ⟨first, v⟩ := head
    rw [erase] at ih ⊢
    by_cases hfirst : first = k
    · rw [List.filter_cons_of_neg (by simpa using hfirst), ih, get?_cons, hfirst]
      split <;> rfl
    · rw [List.filter_cons_of_pos (by simpa using hfirst), get?_cons, ih, get?_cons]
      by_cases hkey : k = key
      · simp [← hkey, hfirst]
      · simp [hkey]

theorem get?_foldl_erase (entries : Entries α) (names : List String) (key : String) :
    (names.foldl erase entries).get? key = if key ∈ names then none else entries.get? key := by
  induction names generalizing entries with
  | nil => simp
  | cons name names ih =>
    rw [List.foldl_cons, ih, get?_erase]
    by_cases hname : name = key
    · simp [hname]
    · simp [hname, Ne.symm hname]

theorem Sorted.foldl_erase (h : entries.Sorted) (names : List String) :
    Sorted (names.foldl Entries.erase entries) := by
  induction names generalizing entries with
  | nil => exact h
  | cons name names ih => exact ih (h.erase name)

/-- Of entries whose keys are taken out again nothing is left. -/
theorem Sorted.foldl_erase_overlay (h : entries.Sorted) (hupper : other.keys.Nodup) :
    other.keys.foldl Entries.erase (entries.overlay other) =
      other.keys.foldl Entries.erase entries := by
  refine ((h.overlay other).foldl_erase _).ext (h.foldl_erase _) fun key => ?_
  rw [get?_foldl_erase, get?_foldl_erase, get?_overlay hupper]
  split
  · rfl
  · rename_i hkey
    rw [(get?_eq_none_iff key).mpr hkey, Option.none_or]

theorem mem_of_mem_overlay {e : String × α} (h : e ∈ entries.overlay other) :
    e ∈ entries ∨ e ∈ other := by
  rw [overlay] at h
  induction other generalizing entries with
  | nil => exact .inl h
  | cons head rest ih =>
    rcases ih h with h | h
    · rcases mem_insert h with rfl | h
      · exact .inr List.mem_cons_self
      · exact .inl h
    · exact .inr (List.mem_cons_of_mem _ h)

theorem mem_of_get?_ofList {list : List (String × α)} {key : String} {value : α}
    (h : (ofList list).get? key = some value) : (key, value) ∈ list :=
  (mem_of_mem_overlay (mem_of_get? h)).resolve_left List.not_mem_nil

/-- A list that has at most one value under a key has it when its entries are in order, too. -/
theorem get?_ofList_eq_some_iff {list : List (String × α)} {key : String} {value : α}
    (hunique : ∀ v v', (key, v) ∈ list → (key, v') ∈ list → v = v') :
    (ofList list).get? key = some value ↔ (key, value) ∈ list := by
  refine ⟨mem_of_get?_ofList, fun hmem => ?_⟩
  induction list using List.reverseRecOn with
  | nil => exact absurd hmem List.not_mem_nil
  | append_singleton list e ih =>
    obtain ⟨k, w⟩ := e
    rw [ofList, List.foldl_append]
    change ((ofList list).insert k w).get? key = some value
    rw [get?_insert]
    by_cases hk : k = key
    · subst hk
      rw [if_pos rfl, hunique w value (by simp) hmem]
    · rw [if_neg hk]
      refine ih (fun v v' h h' => hunique v v' ?_ ?_) (by simpa [Ne.symm hk] using hmem)
      · exact List.mem_append_left _ h
      · exact List.mem_append_left _ h'

theorem eq_of_mem_of_nodup_keys {list : List (String × α)} (hkeys : (keys list).Nodup)
    {key : String} {value value' : α} (h : (key, value) ∈ list) (h' : (key, value') ∈ list) :
    value = value' :=
  (Prod.mk.inj (List.inj_on_of_nodup_map hkeys h h' rfl)).2

theorem get?_eq_some_iff_of_nodup_keys {list : List (String × α)} (hkeys : (keys list).Nodup)
    {key : String} {value : α} : get? list key = some value ↔ (key, value) ∈ list := by
  refine ⟨mem_of_get?, fun hmem => ?_⟩
  have hsome := (mem_keys_iff key).mp (List.mem_map_of_mem hmem)
  obtain ⟨value', hvalue'⟩ := Option.isSome_iff_exists.mp hsome
  rw [hvalue', eq_of_mem_of_nodup_keys hkeys hmem (mem_of_get? hvalue')]

/-- In whatever order entries with different keys are listed, the same is looked up. -/
theorem get?_eq_of_perm {list list' : List (String × α)} (hkeys : (keys list).Nodup)
    (h : list.Perm list') (key : String) : get? list key = get? list' key := by
  have hkeys' : (keys list').Nodup := (h.map Prod.fst).nodup_iff.mp hkeys
  refine Option.ext fun value => ?_
  rw [get?_eq_some_iff_of_nodup_keys hkeys, get?_eq_some_iff_of_nodup_keys hkeys', h.mem_iff]

/-- Of entries with different keys none is lost when they are put in order. -/
theorem get?_ofList {list : List (String × α)} (hkeys : (keys list).Nodup) (key : String) :
    (ofList list).get? key = get? list key := by
  refine Option.ext fun value => ?_
  rw [get?_ofList_eq_some_iff fun _ _ => eq_of_mem_of_nodup_keys hkeys,
    get?_eq_some_iff_of_nodup_keys hkeys]

theorem ofList_perm {list : List (String × α)} (hkeys : (keys list).Nodup) :
    (ofList list).Perm list := by
  have hsorted := (sorted_ofList list).nodup_keys
  refine (List.perm_ext_iff_of_nodup (hsorted.of_map _) (hkeys.of_map _)).mpr fun ⟨key, value⟩ => ?_
  rw [← get?_eq_some_iff_of_nodup_keys hsorted, get?_ofList hkeys,
    get?_eq_some_iff_of_nodup_keys hkeys]

theorem ofList_eq_of_get? {list list' : List (String × α)} (hkeys : (keys list).Nodup)
    (hkeys' : (keys list').Nodup) (h : ∀ key, get? list key = get? list' key) :
    ofList list = ofList list' := by
  refine (sorted_ofList list).ext (sorted_ofList list') fun key => ?_
  rw [get?_ofList hkeys, get?_ofList hkeys', h]

/-- Entries with different keys come into the same order from any. -/
theorem ofList_eq_of_perm {list list' : List (String × α)} (hkeys : (keys list).Nodup)
    (h : list.Perm list') : ofList list = ofList list' :=
  ofList_eq_of_get? hkeys ((h.map Prod.fst).nodup_iff.mp hkeys) (get?_eq_of_perm hkeys h)

theorem Sorted.ofList_eq (h : entries.Sorted) : ofList entries = entries :=
  (sorted_ofList entries).ext h (get?_ofList h.nodup_keys)

theorem get?_mapValues {β : Type} (f : α → β) (entries : Entries α) (key : String) :
    (entries.mapValues f).get? key = (entries.get? key).map f := by
  induction entries with
  | nil => rfl
  | cons head rest ih =>
    obtain ⟨k, v⟩ := head
    change (if k = key then some (f v) else get? (mapValues f rest) key) = _
    rw [ih, get?_cons, apply_ite (Option.map f)]
    rfl

@[simp]
theorem keys_mapValues {β : Type} (f : α → β) (entries : Entries α) :
    (entries.mapValues f).keys = entries.keys :=
  List.map_map

end Entries

namespace Table

variable {α : Type} {table : Table α}

theorem mem_keys_of_get? {key : String} {value : α} (h : table.get? key = some value) :
    key ∈ table.keys :=
  (Entries.mem_keys_iff key).mpr (Option.isSome_of_eq_some h)

/-- Tables with the same values are equal. -/
theorem ext_get? {other : Table α} (h : ∀ key, table.get? key = other.get? key) :
    table = other := by
  obtain ⟨entries, sorted⟩ := table
  obtain ⟨entries', sorted'⟩ := other
  cases Entries.Sorted.ext sorted sorted' h
  rfl

end Table

/-! ### Sorted texts -/

theorem mem_sortedTexts {texts : List String} {text : String} :
    text ∈ sortedTexts texts ↔ text ∈ texts := by
  rw [sortedTexts, Entries.ofList]
  change text ∈ Entries.keys (Entries.overlay [] _) ↔ _
  rw [Entries.mem_keys_overlay]
  simp [Entries.keys]

theorem pairwise_sortedTexts (texts : List String) : (sortedTexts texts).Pairwise (· < ·) :=
  List.pairwise_map.mpr (Entries.sorted_ofList _)

end SceneFlow
