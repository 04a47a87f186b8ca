import Mathlib
import SceneFlow.Roster

/-!
# What a roster gathers

Gathering a list leaves one item for every name, which is made of all items of this name in their
order. So what is gathered is known if for every name the items of this name are.

## Main definitions

* `Roster.fuse`: the items of a list joined into one.

## Main results

* `Roster.rel_of_fuse_eq_some`: how what some items make is related to them.
* `Roster.map_name_gather`: every name is there once, in the order in which the names come first.
* `Roster.find?_gather`, `Roster.mem_gather_iff`: the item of a name is made of the items of this
  name.
* `Roster.forall₂_gather`: lists that are related item by item gather into such lists.
* `Roster.gather_map`: a function that keeps names and joins may be applied before or after.
* `eraseDups_concat`, `eraseDups_filter`: keeping each item once, in the order in which the items
  come first.
* `nodup_distinct`, `mem_distinct`: every item of a list is kept, and none twice.
-/

/-! ### Each item once -/

namespace SceneFlow

section EraseDups

variable {α : Type} [DecidableEq α]

/-- One item more is kept if it has not come before. -/
theorem eraseDups_concat (list : List α) (item : α) : (list ++ [item]).eraseDups =
    if item ∈ list then list.eraseDups else list.eraseDups ++ [item] := by
  rw [List.eraseDups_append, List.removeAll]
  split
  · rename_i hmem
    rw [List.filter_cons_of_neg (by simpa using hmem), List.filter_nil, List.eraseDups_nil,
      List.append_nil]
  · rename_i hmem
    rw [List.filter_cons_of_pos (by simpa using hmem)]
    rfl

theorem nodup_eraseDups (list : List α) : list.eraseDups.Nodup := by
  induction list using List.reverseRecOn with
  | nil => exact List.nodup_nil
  | append_singleton list item ih =>
    rw [eraseDups_concat]
    split
    · exact ih
    · rename_i hmem
      rw [← List.concat_eq_append]
      exact ih.concat (by rwa [List.mem_eraseDups])

theorem eraseDups_of_nodup {list : List α} (h : list.Nodup) : list.eraseDups = list := by
  induction list using List.reverseRecOn with
  | nil => rfl
  | append_singleton list item ih =>
    obtain ⟨hlist, -, hapart⟩ := List.nodup_append.mp h
    have hmem : item ∉ list := fun hitem => hapart item hitem item (List.mem_singleton_self _) rfl
    rw [eraseDups_concat, if_neg hmem, ih hlist]

/-- Items can be taken out before or after each is kept once. -/
theorem eraseDups_filter (p : α → Bool) (list : List α) :
    (list.filter p).eraseDups = list.eraseDups.filter p := by
  induction list using List.reverseRecOn with
  | nil => rfl
  | append_singleton list item ih =>
    rw [List.filter_append, eraseDups_concat, apply_ite (List.filter p), List.filter_append]
    by_cases hitem : p item
    · have hmem : item ∈ list.filter p ↔ item ∈ list := by
        rw [List.mem_filter, and_iff_left hitem]
      rw [List.filter_cons_of_pos hitem, List.filter_nil, eraseDups_concat, ih]
      simp only [hmem]
    · rw [List.filter_cons_of_neg hitem, List.filter_nil, List.append_nil, List.append_nil,
        ite_self, ih]

/-- Whether the second part of a list has its items once makes no difference. -/
theorem eraseDups_append_eraseDups (list more : List α) :
    (list ++ more.eraseDups).eraseDups = (list ++ more).eraseDups := by
  rw [List.eraseDups_append, List.eraseDups_append, List.removeAll, List.removeAll,
    eraseDups_filter _ more, eraseDups_of_nodup ((nodup_eraseDups more).filter _)]

/-- Nor does it make one for the first part. -/
theorem eraseDups_eraseDups_append (list more : List α) :
    (list.eraseDups ++ more).eraseDups = (list ++ more).eraseDups := by
  rw [List.eraseDups_append, List.eraseDups_append, eraseDups_of_nodup (nodup_eraseDups list)]
  simp only [List.removeAll, List.elem_eq_mem, List.mem_eraseDups]

end EraseDups

end SceneFlow

/-! ### Gathering -/

namespace SceneFlow.Roster

variable {α : Type} {name : α → String} {join : α → α → α}

/-- The items of a list joined into one, if there are any. -/
def fuse (join : α → α → α) : List α → Option α
  | [] => none
  | item :: rest => some (rest.foldl join item)

theorem fuse_eq_none_iff (list : List α) : fuse join list = none ↔ list = [] := by
  cases list <;> simp [fuse]

theorem fuse_concat (list : List α) (item : α) :
    fuse join (list ++ [item]) =
      some (((fuse join list).map fun kept => join kept item).getD item) := by
  cases list with
  | nil => rfl
  | cons first rest => simp [fuse]

/-- What relates a single item to itself, and is kept when one item more is joined, relates the
items of a list to what they make together. -/
theorem rel_of_fuse_eq_some (rel : List α → α → Prop) {holds : α → Prop}
    (hone : ∀ a, holds a → rel [a] a)
    (hmore : ∀ list kept a, (∀ b ∈ list, holds b) → holds a → rel list kept →
      rel (list ++ [a]) (join kept a))
    {list : List α} (h : ∀ a ∈ list, holds a) {a : α} (hfuse : fuse join list = some a) :
    rel list a := by
  induction list using List.reverseRecOn generalizing a with
  | nil => cases hfuse
  | append_singleton list item ih =>
    obtain ⟨hlist, hitem⟩ := List.forall_mem_append.mp h
    rw [List.forall_mem_singleton] at hitem
    rw [fuse_concat, Option.some.injEq] at hfuse
    rw [← hfuse]
    cases hkept : fuse join list with
    | none =>
      rw [(fuse_eq_none_iff list).mp hkept]
      exact hone item hitem
    | some kept => exact hmore list kept item hlist hitem (ih hlist hkept)

/-- Joining the items of a list keeps what joining two of them keeps. -/
theorem of_fuse_eq_some {holds : α → Prop} (hjoin : ∀ a b, holds a → holds b → holds (join a b))
    {list : List α} (h : ∀ a ∈ list, holds a) {a : α} (hfuse : fuse join list = some a) :
    holds a :=
  rel_of_fuse_eq_some (fun _ a => holds a) (fun _ => id)
    (fun _ kept item _ hitem hkept => hjoin kept item hkept hitem) h hfuse

section Gather

variable (hjoin : ∀ a b, name (join a b) = name a)
include hjoin

/-- The names of a list behind which an item is added. -/
theorem map_joinInto (item : α) (list : List α) :
    (joinInto name join item list).map name =
      if name item ∈ list.map name then list.map name else list.map name ++ [name item] := by
  induction list with
  | nil => rfl
  | cons kept rest ih =>
    rw [joinInto]
    by_cases hname : name kept = name item
    · rw [if_pos hname]
      simp [hjoin, hname]
    · rw [if_neg hname, List.map_cons, ih]
      have hne : name item ≠ name kept := fun heq => hname heq.symm
      by_cases hmem : name item ∈ rest.map name
      · rw [if_pos hmem, if_pos (by simpa [hne] using hmem), List.map_cons]
      · rw [if_neg hmem, if_neg (by simpa [hne] using hmem), List.map_cons, List.cons_append]

/-- The item of a name in a list behind which an item is added. -/
theorem find?_joinInto (item : α) (list : List α) (n : String) :
    (joinInto name join item list).find? (fun a => name a = n) =
      if name item = n then
        some (((list.find? fun a => name a = n).map fun kept => join kept item).getD item)
      else list.find? fun a => name a = n := by
  induction list with
  | nil => by_cases hn : name item = n <;> simp [joinInto, hn]
  | cons kept rest ih =>
    rw [joinInto]
    by_cases hname : name kept = name item
    · rw [if_pos hname]
      by_cases hn : name item = n
      · simp [hjoin, hname, hn]
      · simp [hjoin, hname, hn]
    · rw [if_neg hname]
      by_cases hkept : name kept = n
      · have hitem : name item ≠ n := fun heq => hname (hkept.trans heq.symm)
        simp [hkept, hitem]
      · simpa [hkept] using ih

theorem gather_concat (list : List α) (item : α) :
    gather name join (list ++ [item]) = joinInto name join item (gather name join list) := by
  rw [gather_eq_foldl hjoin, gather_eq_foldl hjoin, List.foldl_append, List.foldl_cons,
    List.foldl_nil]

/-- The names come in the order in which they come first. -/
theorem map_name_gather (list : List α) :
    (gather name join list).map name = (list.map name).eraseDups := by
  induction list using List.reverseRecOn with
  | nil => rfl
  | append_singleton list item ih =>
    rw [gather_concat hjoin, map_joinInto hjoin, ih, List.map_append, List.map_singleton,
      eraseDups_concat]
    simp only [List.mem_eraseDups]

theorem nodup_gather (list : List α) : ((gather name join list).map name).Nodup := by
  rw [map_name_gather hjoin]
  exact nodup_eraseDups _

/-- Exactly the names of the list are there. -/
theorem mem_map_gather (list : List α) (n : String) :
    n ∈ (gather name join list).map name ↔ n ∈ list.map name := by
  rw [map_name_gather hjoin, List.mem_eraseDups]

/-- The item of a name is made of the items of this name, in their order. -/
theorem find?_gather (list : List α) (n : String) :
    (gather name join list).find? (fun a => name a = n) =
      fuse join (list.filter fun a => name a = n) := by
  induction list using List.reverseRecOn with
  | nil => rfl
  | append_singleton list item ih =>
    rw [gather_concat hjoin, find?_joinInto hjoin, List.filter_append, ih]
    by_cases hn : name item = n
    · rw [if_pos hn, List.filter_cons_of_pos (by simpa using hn), List.filter_nil, fuse_concat]
    · rw [if_neg hn, List.filter_cons_of_neg (by simpa using hn), List.filter_nil,
        List.append_nil]

theorem mem_gather_iff (list : List α) (a : α) :
    a ∈ gather name join list ↔ fuse join (list.filter fun b => name b = name a) = some a := by
  rw [← find?_gather hjoin]
  constructor
  · intro hmem
    match hfind : (gather name join list).find? fun b => name b = name a with
    | none => simpa using List.find?_eq_none.mp hfind a hmem
    | some b =>
      have hname : name b = name a := by simpa using List.find?_some hfind
      rw [List.inj_on_of_nodup_map (nodup_gather hjoin list) (List.mem_of_find?_eq_some hfind)
        hmem hname]
  · exact List.mem_of_find?_eq_some

/-! ### Related lists -/

variable {related : α → α → Prop} (hname : ∀ a b, related a b → name a = name b)
  (hrelated : ∀ a a' b b', related a a' → related b b' → name a = name b →
    related (join a b) (join a' b'))
include hname hrelated

omit hjoin in
/-- Related items that are added to related lists. -/
theorem forall₂_joinInto {item item' : α} (hitem : related item item') {list list' : List α}
    (h : List.Forall₂ related list list') :
    List.Forall₂ related (joinInto name join item list) (joinInto name join item' list') := by
  induction h with
  | nil => exact .cons hitem .nil
  | @cons kept kept' rest rest' hkept hrest ih =>
    rw [joinInto, joinInto, ← hname kept kept' hkept, ← hname item item' hitem]
    split
    · rename_i heq
      exact .cons (hrelated kept kept' item item' hkept hitem heq) hrest
    · exact .cons hkept ih

/-- Related lists gather into related lists. -/
theorem forall₂_gather {list list' : List α} (h : List.Forall₂ related list list') :
    List.Forall₂ related (gather name join list) (gather name join list') := by
  rw [gather_eq_foldl hjoin, gather_eq_foldl hjoin]
  have hstep : ∀ kept kept', List.Forall₂ related kept kept' → ∀ item item', related item item' →
      List.Forall₂ related (joinInto name join item kept) (joinInto name join item' kept') :=
    fun _ _ hkept _ _ hitem => forall₂_joinInto hname hrelated hitem hkept
  exact List.rel_foldl (P := List.Forall₂ related)
    (fun kept kept' hkept item item' hitem => hstep kept kept' hkept item item' hitem) .nil h

end Gather

/-! ### Other items with the same names -/

section Map

variable {β : Type} {name' : β → String} {join' : β → β → β} {f : α → β}
  (hname : ∀ a, name' (f a) = name a)
  (hjoin : ∀ a b, name a = name b → join' (f a) (f b) = f (join a b))
include hname hjoin

theorem joinInto_map (item : α) (list : List α) :
    joinInto name' join' (f item) (list.map f) = (joinInto name join item list).map f := by
  induction list with
  | nil => rfl
  | cons kept rest ih =>
    rw [List.map_cons, joinInto, joinInto, hname, hname]
    split
    · rename_i heq
      rw [hjoin kept item heq, List.map_cons]
    · rw [ih, List.map_cons]

/-- A function that keeps names and joins may be applied before or after gathering. -/
theorem gather_map (hkeep : ∀ a b, name (join a b) = name a)
    (hkeep' : ∀ a b, name' (join' a b) = name' a) (list : List α) :
    gather name' join' (list.map f) = (gather name join list).map f := by
  induction list using List.reverseRecOn with
  | nil => rfl
  | append_singleton list item ih =>
    rw [List.map_append, List.map_singleton, gather_concat hkeep', gather_concat hkeep, ih,
      joinInto_map hname hjoin]

end Map

end SceneFlow.Roster

/-! ### Distinct items -/

namespace SceneFlow

variable {α : Type} [DecidableEq α]

/-- No item is kept twice. -/
theorem nodup_distinct (label : α → String) (list : List α) : (distinct label list).Nodup := by
  rw [distinct_eq_eraseDups]
  exact nodup_eraseDups list

/-- Every item is kept. -/
theorem mem_distinct {label : α → String} {list : List α} {item : α} :
    item ∈ distinct label list ↔ item ∈ list := by
  rw [distinct_eq_eraseDups, List.mem_eraseDups]

/-- Lists without a common item can be looked at one after the other. -/
theorem distinct_append {label : α → String} {list more : List α} (h : ∀ a ∈ more, a ∉ list) :
    distinct label (list ++ more) = distinct label list ++ distinct label more := by
  have hmore : more.removeAll list = more := List.filter_eq_self.mpr fun a ha => by simp [h a ha]
  rw [distinct_eq_eraseDups, List.eraseDups_append, hmore, ← distinct_eq_eraseDups label list,
    ← distinct_eq_eraseDups label more]

end SceneFlow
