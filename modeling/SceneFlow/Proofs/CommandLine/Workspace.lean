import Mathlib
import SceneFlow.CommandLine.Workspace
import SceneFlow.Proofs.Entries
import SceneFlow.Proofs.Except
import SceneFlow.Proofs.Text.Split

/-!
# Files that are written

A file that is written into a folder is all that changes: the path of the file leads to the place of
the folder, and behind it stands the name. Folders are made on the way, but no folder is taken away
and no file either, so a path that leads to a folder leads there as long as the program runs.

## Main definitions

* `Workspace.Grows`: no folder and no file has been taken away.

## Main results

* `Workspace.resolve_of_grows`: a path leads where it has led before.
* `Workspace.addsFolders_of_makeFolder`: folders that are made change no file.
* `Workspace.write_childPath_eq_ok`: a file that is written into a folder.
-/

namespace SceneFlow.CommandLine

/-! ### Paths -/

section Paths

variable {folder name : String}

/-- The names in the path of a file are those in the path of its folder and its own. -/
theorem exists_pathNames_childPath (folder : String) (hname : '/' ∉ name.toList) :
    ∃ names, pathNames (childPath folder name) = names ++ [name] ∧
      (pathNames folder = names ∨ pathNames folder = names ++ [""]) := by
  have hsplit : ∀ cs : List Char, (Text.split '/' (cs ++ '/' :: name.toList)).map String.ofList =
      (Text.split '/' cs).map String.ofList ++ [name] := by
    intro cs
    rw [Text.split_eq_splitOn, Text.split_eq_splitOn, Text.splitOn_append_cons cs hname,
      List.map_append, List.map_singleton, String.ofList_toList]
  by_cases hslash : folder.toList.getLast? = some '/'
  · obtain ⟨cs, hcs⟩ := List.getLast?_eq_some_iff.mp hslash
    refine ⟨(Text.split '/' cs).map String.ofList, ?_, .inr ?_⟩
    · rw [childPath, if_pos hslash, pathNames, String.toList_append, hcs, List.append_assoc,
        List.singleton_append, hsplit]
    · rw [pathNames, hcs, Text.split_eq_splitOn, Text.splitOn_append_cons cs List.not_mem_nil,
        List.map_append, Text.split_eq_splitOn]
      rfl
  · refine ⟨pathNames folder, ?_, .inl rfl⟩
    have htext : (folder ++ "/" ++ name).toList = folder.toList ++ '/' :: name.toList := by simp
    rw [childPath, if_neg hslash, pathNames, htext, hsplit, ← pathNames]

/-- The path of a file goes on from that of its folder. -/
theorem exists_childPath_eq (folder name : String) :
    ∃ more, childPath folder name = folder ++ more := by
  rw [childPath]
  split
  · exact ⟨name, rfl⟩
  · exact ⟨"/" ++ name, String.append_assoc⟩

theorem startOf_append (hfolder : folder ≠ "") (more : String) :
    Place.startOf (folder ++ more) = Place.startOf folder := by
  have hcs : folder.toList ≠ [] := fun hnil => hfolder (String.toList_inj.mp hnil)
  rw [Place.startOf, Place.startOf, String.toList_append, List.head?_append_of_ne_nil _ hcs]

/-- A system call takes the beginning of a path that it takes. -/
theorem Workspace.checkPath_of_append {more : String} (h : checkPath (folder ++ more) = .ok ()) :
    checkPath folder = .ok () := by
  rw [checkPath] at h ⊢
  split at h
  · cases h
  · rename_i hbroken
    split at h
    · cases h
    · rename_i hlong
      rw [String.toList_append, List.contains_append, Bool.or_eq_true, not_or] at hbroken
      rw [String.utf8ByteSize_append] at hlong
      rw [if_neg hbroken.1, if_neg (by omega)]

end Paths

namespace Workspace

variable {ws later : Workspace} {place : Place} {folder name : String}

theorem requireFolder_eq_ok_iff : ws.requireFolder place = .ok () ↔ ws.isFolder place = true := by
  rw [requireFolder]
  split <;> simp_all

/-- More names are followed from where the first ones lead. -/
theorem follow_append (ws : Workspace) (place : Place) (names more : List String) :
    ws.follow place (names ++ more) = ws.follow place names >>= (ws.follow · more) := by
  induction names generalizing place with
  | nil => rfl
  | cons name names ih =>
    rw [List.cons_append, follow, follow]
    cases ws.requireFolder place with
    | error fault => rfl
    | ok _ =>
      change (if _ then _ else _) = (if _ then _ else _) >>= _
      split
      · exact ih place
      · split
        · exact ih place.dropLast
        · split
          · rfl
          · exact ih (place ++ [name])

/-! ### Workspaces that grow -/

/-- No folder and no file has been taken away. -/
structure Grows (ws later : Workspace) : Prop where
  /-- The folders that have been made are there. -/
  folders : ws.folders ⊆ later.folders
  /-- So are the files. -/
  files : ws.files.keys ⊆ later.files.keys

theorem Grows.trans {last : Workspace} (h : ws.Grows later) (hlast : later.Grows last) :
    ws.Grows last :=
  ⟨List.Subset.trans h.folders hlast.folders, List.Subset.trans h.files hlast.files⟩

theorem grows_insert (ws : Workspace) (key text : String) :
    ws.Grows { ws with files := ws.files.insert key text } := by
  refine ⟨List.Subset.refl _, fun other hother => ?_⟩
  have hsome := (Entries.mem_keys_iff other).mp hother
  refine (Entries.mem_keys_iff other).mpr ?_
  rw [Table.insert, Entries.get?_insert]
  split
  · rfl
  · exact hsome

/-- Folders stay folders. -/
theorem isFolder_of_grows (h : ws.Grows later) (hfolder : ws.isFolder place = true) :
    later.isFolder place = true := by
  rw [isFolder, Bool.or_eq_true, Bool.or_eq_true] at hfolder ⊢
  rcases hfolder with (hfixed | hmade) | hfile
  · exact .inl (.inl hfixed)
  · exact .inl (.inr (List.contains_iff_mem.mpr (h.folders (List.contains_iff_mem.mp hmade))))
  · obtain ⟨key, hkey, hbefore⟩ := List.any_eq_true.mp hfile
    exact .inr (List.any_eq_true.mpr ⟨key, h.files hkey, hbefore⟩)

/-- Names lead where they have led before. -/
theorem follow_of_grows (h : ws.Grows later) {names : List String} {last : Place}
    (hfollow : ws.follow place names = .ok last) : later.follow place names = .ok last := by
  induction names generalizing place with
  | nil => exact hfollow
  | cons name names ih =>
    rw [follow] at hfollow ⊢
    obtain ⟨⟨⟩, hrequire, hfollow⟩ := bind_eq_ok_iff.mp hfollow
    have hplace := isFolder_of_grows h (requireFolder_eq_ok_iff.mp hrequire)
    refine bind_eq_ok_iff.mpr ⟨(), requireFolder_eq_ok_iff.mpr hplace, ?_⟩
    split at hfollow
    · rename_i hidle
      rw [if_pos hidle]
      exact ih hfollow
    · rename_i hidle
      rw [if_neg hidle]
      split at hfollow
      · rename_i hup
        rw [if_pos hup]
        exact ih hfollow
      · rename_i hup
        rw [if_neg hup]
        split at hfollow
        · cases hfollow
        · rename_i hlong
          rw [if_neg hlong]
          exact ih hfollow

/-- A path leads where it has led before. -/
theorem resolve_of_grows (h : ws.Grows later) {path : String}
    (hresolve : ws.resolve path = .ok place) : later.resolve path = .ok place := by
  obtain ⟨⟨⟩, hcheck, hfollow⟩ := bind_eq_ok_iff.mp hresolve
  exact bind_eq_ok_iff.mpr ⟨(), hcheck, follow_of_grows h hfollow⟩

/-! ### Folders that are made -/

/-- Folders have been made, and nothing else has changed. -/
structure AddsFolders (ws later : Workspace) : Prop where
  /-- The folders are more. -/
  folders : ws.folders ⊆ later.folders
  /-- The files are the same. -/
  files : later.files = ws.files

theorem AddsFolders.refl (ws : Workspace) : ws.AddsFolders ws :=
  ⟨List.Subset.refl _, rfl⟩

theorem AddsFolders.trans {last : Workspace} (h : ws.AddsFolders later)
    (hlast : later.AddsFolders last) : ws.AddsFolders last :=
  ⟨List.Subset.trans h.folders hlast.folders, hlast.files.trans h.files⟩

theorem AddsFolders.grows (h : ws.AddsFolders later) : ws.Grows later :=
  ⟨h.folders, h.files ▸ List.Subset.refl _⟩

theorem addsFolders_of_addFolder {path : String} (h : ws.addFolder path = .ok later) :
    ws.AddsFolders later := by
  obtain ⟨target, -, h⟩ := bind_eq_ok_iff.mp h
  split at h
  · cases h
  · split at h
    · cases h
    · split at h
      · cases h
      · rw [← Except.ok.inj h]
        exact ⟨List.subset_cons_self _ _, rfl⟩

theorem addsFolders_of_ensureFolder {path : String} (h : ws.ensureFolder path = .ok later) :
    ws.AddsFolders later := by
  rw [ensureFolder] at h
  split at h
  · rename_i hadd
    exact Except.ok.inj h ▸ addsFolders_of_addFolder hadd
  · split at h
    · exact Except.ok.inj h ▸ AddsFolders.refl ws
    · cases h

/-- The folders of a path are made, and nothing else. -/
theorem addsFolders_of_makeFolder {path : String} (h : ws.makeFolder path = .ok later) :
    ws.AddsFolders later := by
  rw [makeFolder] at h
  generalize pathAndAbove path = paths at h
  induction paths generalizing later with
  | nil => exact Except.ok.inj h ▸ AddsFolders.refl ws
  | cons path above ih =>
    rw [ensureFolders] at h
    split at h
    · obtain ⟨middle, hmiddle, h⟩ := bind_eq_ok_iff.mp h
      exact (ih hmiddle).trans (addsFolders_of_ensureFolder h)
    · exact addsFolders_of_ensureFolder h

/-! ### Files that are written -/

/-- A file that is written into a folder, under a name that stands for no folder, is a text behind
the place of the folder. -/
theorem write_childPath_eq_ok {text : String} (hfolder : folder ≠ "") (hname : '/' ∉ name.toList)
    (hempty : name ≠ "") (hnull : name ≠ "null")
    (h : ws.write (childPath folder name) text = .ok later) :
    ∃ place, ws.resolve folder = .ok place ∧ ws.isFolder place = true ∧
      later = { ws with files := ws.files.insert (Place.key (place ++ [name])) text } := by
  obtain ⟨target, htarget, h⟩ := bind_eq_ok_iff.mp h
  obtain ⟨⟨⟩, hcheck, htarget⟩ := bind_eq_ok_iff.mp htarget
  obtain ⟨names, hnames, hfolderNames⟩ := exists_pathNames_childPath folder hname
  obtain ⟨more, hmore⟩ := exists_childPath_eq folder name
  have hused : ((names ++ [name]).reverse.dropWhile fun name => name = "").reverse =
      names ++ [name] := by
    rw [List.reverse_append, List.reverse_singleton, List.singleton_append,
      List.dropWhile_cons_of_neg (by simpa using hempty), List.reverse_cons, List.reverse_reverse]
  dsimp only at htarget
  rw [hnames, hused, List.dropLast_concat, List.getLast?_concat] at htarget
  obtain ⟨place, hplace, htarget⟩ := bind_eq_ok_iff.mp htarget
  obtain ⟨⟨⟩, hrequire, htarget⟩ := bind_eq_ok_iff.mp htarget
  rw [hmore, startOf_append hfolder] at hplace
  rw [hmore] at hcheck
  have hisFolder := requireFolder_eq_ok_iff.mp hrequire
  have hresolve : ws.resolve folder = .ok place := by
    refine bind_eq_ok_iff.mpr ⟨(), checkPath_of_append hcheck, ?_⟩
    rcases hfolderNames with hsame | hslash
    · rw [hsame, hplace]
    · rw [hslash, follow_append, hplace]
      exact bind_eq_ok_iff.mpr ⟨place, rfl, bind_eq_ok_iff.mpr ⟨(), hrequire, rfl⟩⟩
  refine ⟨place, hresolve, hisFolder, ?_⟩
  obtain rfl := Except.ok.inj htarget
  split at h
  · cases h
  · split at h
    · cases h
    · split at h
      · cases h
      · split at h
        · rename_i hplaceNull
          have hlast := congrArg List.getLast? hplaceNull
          rw [Target.place, List.getLast?_concat] at hlast
          exact absurd (Option.some.inj hlast) hnull
        · exact (Except.ok.inj h).symm

end Workspace

end SceneFlow.CommandLine
