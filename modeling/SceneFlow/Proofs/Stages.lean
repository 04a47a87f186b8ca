import SceneFlow.Proofs.Roster

/-!
# Gathering in stages

What is gathered from a list is the same if parts of the list are gathered before. It is enough that
items can be joined in any grouping; their order stays. The names come in the order in which they
come first in the list, and under each name there is what its items make together.

## Main results

* `Roster.gather_eq_filterMap`: what is gathered, in closed form.
* `Roster.gather_gather_append`, `Roster.gather_append_gather`: gathering the first or the second
  part of a list before the whole.
-/

namespace SceneFlow.Roster

variable {α : Type} {name : α → String} {join : α → α → α}

/-! ### Items made of items -/

section Associative

variable {holds : α → Prop} (hjoin : ∀ a b, holds a → holds b → holds (join a b))
  (hassoc : ∀ a b c, holds a → holds b → holds c → join (join a b) c = join a (join b c))
include hjoin hassoc

/-- Items can be joined from the second on before the first is joined to them. -/
theorem foldl_join_eq {a b : α} {list : List α} (ha : holds a) (hb : holds b)
    (hlist : ∀ c ∈ list, holds c) : list.foldl join (join a b) = join a (list.foldl join b) := by
  induction list generalizing b with
  | nil => rfl
  | cons c list ih =>
    obtain ⟨hc, hlist⟩ := List.forall_mem_cons.mp hlist
    rw [List.foldl_cons, List.foldl_cons, hassoc a b c ha hb hc, ih (hjoin b c hb hc) hlist]

/-- Two lists of items make what their items make together. -/
theorem fuse_append {list more : List α} (hlist : ∀ a ∈ list, holds a)
    (hmore : ∀ a ∈ more, holds a) :
    fuse join (list ++ more) = Option.merge join (fuse join list) (fuse join more) := by
  cases list with
  | nil => cases more <;> rfl
  | cons a list =>
    cases more with
    | nil => simp [fuse]
    | cons b more =>
      obtain ⟨hb, hmore⟩ := List.forall_mem_cons.mp hmore
      have hfuse : fuse join (a :: list) = some (list.foldl join a) := rfl
      have hfused := of_fuse_eq_some hjoin hlist hfuse
      simp only [fuse, List.cons_append, List.foldl_append, List.foldl_cons, Option.merge_some_some,
        foldl_join_eq hjoin hassoc hfused hb hmore]

end Associative

/-! ### Names -/

/-- Items of different names are found under their names. -/
theorem filterMap_find?_map_name {list : List α} (h : (list.map name).Nodup) :
    ((list.map name).filterMap fun n => list.find? fun a => name a = n) = list := by
  induction list with
  | nil => rfl
  | cons a list ih =>
    obtain ⟨hnot, hlist⟩ := List.nodup_cons.mp h
    have hrest : ∀ n ∈ list.map name, ((a :: list).find? fun b => name b = n) =
        list.find? fun b => name b = n := fun n hn => by
      rw [List.find?_cons_of_neg (by simpa using fun heq : name a = n => hnot (heq ▸ hn))]
    rw [List.map_cons, List.filterMap_cons_some (b := a) (by simp), List.filterMap_congr hrest,
      ih hlist]

/-- Of items of different names only one has a name. -/
theorem filter_eq_toList_find? {list : List α} (h : (list.map name).Nodup) (n : String) :
    (list.filter fun a => name a = n) = (list.find? fun a => name a = n).toList := by
  induction list with
  | nil => rfl
  | cons a list ih =>
    obtain ⟨hnot, hlist⟩ := List.nodup_cons.mp h
    by_cases ha : name a = n
    · have hrest : (list.filter fun b => name b = n) = [] :=
        List.filter_eq_nil_iff.mpr fun b hb => by
          simpa [← ha] using fun heq : name b = name a => hnot (heq ▸ List.mem_map_of_mem hb)
      rw [List.filter_cons_of_pos (by simpa using ha), List.find?_cons_of_pos (by simpa using ha),
        hrest, Option.toList_some]
    · rw [List.filter_cons_of_neg (by simpa using ha), List.find?_cons_of_neg (by simpa using ha),
        ih hlist]

/-! ### Stages -/

section Gather

variable (hname : ∀ a b, name (join a b) = name a)
include hname

/-- What is gathered: for every name what its items make together. -/
theorem gather_eq_filterMap (list : List α) :
    gather name join list = (list.map name).eraseDups.filterMap fun n =>
      fuse join (list.filter fun a => name a = n) := by
  rw [← map_name_gather hname]
  conv_lhs => rw [← filterMap_find?_map_name (nodup_gather hname list)]
  exact List.filterMap_congr fun n _ => find?_gather hname list n

/-- The items of a name make the same before and after gathering. -/
theorem fuse_filter_gather (list : List α) (n : String) :
    fuse join ((gather name join list).filter fun a => name a = n) =
      fuse join (list.filter fun a => name a = n) := by
  rw [filter_eq_toList_find? (nodup_gather hname list), find?_gather hname]
  cases fuse join (list.filter fun a => name a = n) <;> rfl

variable {holds : α → Prop} (hjoin : ∀ a b, holds a → holds b → holds (join a b))
include hjoin

/-- What joining two items keeps holds of all that is gathered. -/
theorem of_mem_gather {list : List α} (h : ∀ a ∈ list, holds a) :
    ∀ a ∈ gather name join list, holds a := fun a ha =>
  of_fuse_eq_some hjoin (fun b hb => h b (List.mem_filter.mp hb).1)
    ((mem_gather_iff hname list a).mp ha)

variable (hassoc : ∀ a b c, holds a → holds b → holds c → join (join a b) c = join a (join b c))
include hassoc

/-- Lists gather into the same if they have the same names, and if what the items of each name make
together is the same in both parts. -/
theorem gather_append_congr {list list' more more' : List α} (hlist : ∀ a ∈ list, holds a)
    (hlist' : ∀ a ∈ list', holds a) (hmore : ∀ a ∈ more, holds a) (hmore' : ∀ a ∈ more', holds a)
    (hnames : ((list ++ more).map name).eraseDups = ((list' ++ more').map name).eraseDups)
    (hfuse : ∀ n, fuse join (list.filter fun a => name a = n) =
      fuse join (list'.filter fun a => name a = n))
    (hfuse' : ∀ n, fuse join (more.filter fun a => name a = n) =
      fuse join (more'.filter fun a => name a = n)) :
    gather name join (list ++ more) = gather name join (list' ++ more') := by
  have hfilter : ∀ {items : List α} (n : String), (∀ a ∈ items, holds a) →
      ∀ a ∈ items.filter fun a => name a = n, holds a := fun n h a ha =>
    h a (List.mem_filter.mp ha).1
  rw [gather_eq_filterMap hname, gather_eq_filterMap hname, hnames]
  refine List.filterMap_congr fun n _ => ?_
  rw [List.filter_append, List.filter_append,
    fuse_append hjoin hassoc (hfilter n hlist) (hfilter n hmore),
    fuse_append hjoin hassoc (hfilter n hlist') (hfilter n hmore'), hfuse, hfuse']

variable {list more : List α} (hlist : ∀ a ∈ list, holds a) (hmore : ∀ a ∈ more, holds a)
include hlist hmore

/-- The first part of a list may be gathered before the whole. -/
theorem gather_gather_append :
    gather name join (gather name join list ++ more) = gather name join (list ++ more) :=
  gather_append_congr hname hjoin hassoc (of_mem_gather hname hjoin hlist) hlist hmore hmore
    (by rw [List.map_append, List.map_append, map_name_gather hname, eraseDups_eraseDups_append])
    (fuse_filter_gather hname list) fun _ => rfl

/-- The second part of a list may be gathered before the whole. -/
theorem gather_append_gather :
    gather name join (list ++ gather name join more) = gather name join (list ++ more) :=
  gather_append_congr hname hjoin hassoc hlist hlist (of_mem_gather hname hjoin hmore) hmore
    (by rw [List.map_append, List.map_append, map_name_gather hname, eraseDups_append_eraseDups])
    (fun _ => rfl) (fuse_filter_gather hname more)

end Gather

end SceneFlow.Roster
