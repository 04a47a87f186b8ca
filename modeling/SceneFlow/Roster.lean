import Std.Data.TreeMap.Lemmas

/-!
# Rosters

A roster holds items of different names in the order in which they came, and finds the place of a
name without going through the items. `Roster.gather` joins the items of a list that have one
name, and `distinct` keeps each item of a list once. Both are stated a second time by plain
recursion on lists: `gather_eq_foldl` and `distinct_eq_eraseDups`.
-/

namespace SceneFlow

/-- Items of different names in the order in which they came. -/
structure Roster (α : Type) where
  /-- The items. -/
  items : Array α
  /-- Where the item of a name stands. -/
  places : Std.TreeMap String Nat

namespace Roster

variable {α : Type}

/-- The roster without items. -/
def empty : Roster α :=
  ⟨#[], ∅⟩

/-- Add an item. If there is one of its name, `join` puts the two together in its place. -/
def add (name : α → String) (join : α → α → α) (roster : Roster α) (item : α) : Roster α :=
  let ⟨items, places⟩ := roster
  match places[name item]? with
  | some place => ⟨items.modify place fun kept => join kept item, places⟩
  | none =>
    let place := items.size
    ⟨items.push item, places.insert (name item) place⟩

/-- One item for every name in a list, in the order in which the names came first. Items of one
name are joined in their order. -/
def gather (name : α → String) (join : α → α → α) (list : List α) : List α :=
  (list.foldl (add name join) empty).items.toList

/-! ### The same on lists -/

/-- Add an item to a list, at its end or to the first item of its name. -/
def joinInto (name : α → String) (join : α → α → α) (item : α) : List α → List α
  | [] => [item]
  | kept :: rest =>
    if name kept = name item then join kept item :: rest
    else kept :: joinInto name join item rest

theorem joinInto_eq_append {name : α → String} {join : α → α → α} {item : α} {list : List α}
    (h : ∀ kept ∈ list, name kept ≠ name item) : joinInto name join item list = list ++ [item] := by
  induction list with
  | nil => rfl
  | cons kept rest ih =>
    rw [joinInto, if_neg (h kept List.mem_cons_self), List.cons_append,
      ih fun k hk => h k (List.mem_cons_of_mem _ hk)]

theorem joinInto_eq_modify {name : α → String} {join : α → α → α} {item : α} {list : List α}
    {place : Nat} (h : ∀ i, (list[i]?).map name = some (name item) ↔ i = place) :
    joinInto name join item list = list.modify place fun kept => join kept item := by
  induction list generalizing place with
  | nil => simpa using (h place).mpr rfl
  | cons kept rest ih =>
    rw [joinInto]
    cases place with
    | zero => rw [if_pos (by simpa using (h 0).mpr rfl), List.modify_zero_cons]
    | succ place =>
      have hne : name kept ≠ name item := fun heq => by
        have := (h 0).mp (by simpa using heq)
        omega
      rw [if_neg hne, List.modify_succ_cons]
      rw [ih fun i => by simpa using h (i + 1)]

/-- The places of a roster tell where the names stand. -/
def Indexed (name : α → String) (roster : Roster α) : Prop :=
  ∀ key place, roster.places[key]? = some place ↔ (roster.items[place]?).map name = some key

theorem indexed_empty (name : α → String) : Indexed name (empty : Roster α) := by
  simp [Indexed, empty]

theorem Indexed.add {name : α → String} {join : α → α → α}
    (hjoin : ∀ a b, name (join a b) = name a) {roster : Roster α} (h : Indexed name roster)
    (item : α) : Indexed name (roster.add name join item) := by
  obtain ⟨items, places⟩ := roster
  intro key i
  have hi := h key i
  unfold Roster.add
  dsimp only at hi ⊢
  split
  · rename_i place _
    rw [hi, Array.getElem?_modify]
    by_cases heq : place = i
    · rw [if_pos heq]
      cases items[i]? <;> simp [hjoin]
    · rw [if_neg heq]
  · rename_i hnone
    rw [Std.TreeMap.getElem?_insert, Array.getElem?_push]
    by_cases hkey : name item = key
    · subst hkey
      rw [if_pos Std.ReflCmp.compare_self]
      by_cases hlast : i = items.size
      · simp [hlast]
      · rw [if_neg hlast, ← hi, hnone]
        simpa using Ne.symm hlast
    · rw [if_neg fun heq => hkey (Std.LawfulEqCmp.eq_of_compare heq), hi]
      by_cases hlast : i = items.size
      · simp [hlast, hkey]
      · rw [if_neg hlast]

theorem toList_items_add {name : α → String} {join : α → α → α} {roster : Roster α}
    (h : Indexed name roster) (item : α) :
    (roster.add name join item).items.toList = joinInto name join item roster.items.toList := by
  obtain ⟨items, places⟩ := roster
  have hi := h (name item)
  unfold Roster.add
  dsimp only at hi ⊢
  split
  · rename_i place hplace
    rw [Array.toList_modify, joinInto_eq_modify]
    intro i
    rw [Array.getElem?_toList, ← hi, hplace]
    exact ⟨fun heq => (Option.some.inj heq).symm, fun heq => congrArg some heq.symm⟩
  · rename_i hnone
    rw [Array.toList_push, joinInto_eq_append]
    intro kept hkept heq
    obtain ⟨i, hlt, rfl⟩ := List.getElem_of_mem hkept
    have hfree := hi i
    rw [hnone, ← Array.getElem?_toList, List.getElem?_eq_getElem hlt, Option.map_some, heq] at hfree
    cases hfree.mpr rfl

theorem gather_eq_foldl {name : α → String} {join : α → α → α}
    (hjoin : ∀ a b, name (join a b) = name a) (list : List α) :
    gather name join list = list.foldl (fun kept item => joinInto name join item kept) [] := by
  suffices h : ∀ roster : Roster α, Indexed name roster →
      (list.foldl (add name join) roster).items.toList
        = list.foldl (fun kept item => joinInto name join item kept) roster.items.toList by
    exact h empty (indexed_empty name)
  induction list with
  | nil => exact fun _ _ => rfl
  | cons item rest ih =>
    intro roster h
    rw [List.foldl_cons, List.foldl_cons, ih _ (h.add hjoin item), toList_items_add h]

end Roster

/-! ### Each item once -/

section Distinct

variable {α : Type} [DecidableEq α]

/-- Keep an item unless it has come before. The items that have come before are held under their
labels and, last first, in a list. -/
def keepNew (label : α → String) (state : Std.TreeMap String (List α) × List α) (item : α) :
    Std.TreeMap String (List α) × List α :=
  let (seen, kept) := state
  let same := seen.getD (label item) []
  if item ∈ same then (seen, kept) else (seen.insert (label item) (item :: same), item :: kept)

/-- Each item of a list once, in the order in which they came first. Only items of one label are
compared, so the label may be any text that tells most items apart. -/
def distinct (label : α → String) (list : List α) : List α :=
  (list.foldl (keepNew label) (∅, [])).2.reverse

theorem foldl_keepNew (label : α → String) (list : List α)
    (seen : Std.TreeMap String (List α)) (kept : List α)
    (h : ∀ item, item ∈ seen.getD (label item) [] ↔ item ∈ kept) :
    (list.foldl (keepNew label) (seen, kept)).2.reverse
      = kept.reverse ++ (list.filter fun item => item ∉ kept).eraseDups := by
  induction list generalizing seen kept with
  | nil => simp
  | cons item rest ih =>
    rw [List.foldl_cons]
    by_cases hitem : item ∈ kept
    · have hstep : keepNew label (seen, kept) item = (seen, kept) := by
        simp [keepNew, (h item).mpr hitem]
      rw [hstep, ih seen kept h, List.filter_cons_of_neg (by simpa using hitem)]
    · have hstep : keepNew label (seen, kept) item =
          (seen.insert (label item) (item :: seen.getD (label item) []), item :: kept) := by
        simp [keepNew, mt (h item).mp hitem]
      rw [hstep, ih, List.filter_cons_of_pos (by simpa using hitem), List.eraseDups_cons,
        List.filter_filter, List.reverse_cons, List.append_assoc, List.singleton_append]
      · simp [Bool.beq_eq_decide_eq]
      · intro other
        rw [Std.TreeMap.getD_insert, List.mem_cons]
        by_cases hlabel : label item = label other
        · have heq : compare (label item) (label other) = .eq := hlabel ▸ Std.ReflCmp.compare_self
          rw [if_pos heq, List.mem_cons, hlabel, h other]
        · rw [if_neg fun heq => hlabel (Std.LawfulEqCmp.eq_of_compare heq), h other]
          exact ⟨.inr, fun hmem => hmem.resolve_left fun heq => hlabel (heq ▸ rfl)⟩

theorem distinct_eq_eraseDups (label : α → String) (list : List α) :
    distinct label list = list.eraseDups := by
  rw [distinct, foldl_keepNew label list ∅ [] (by simp), List.filter_eq_self.mpr (by simp)]
  rfl

end Distinct

end SceneFlow
