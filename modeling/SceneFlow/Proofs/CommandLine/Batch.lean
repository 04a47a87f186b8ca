import Mathlib
import SceneFlow.Proofs.CommandLine.Session
import SceneFlow.Proofs.Compile.Variants
import SceneFlow.Proofs.Json.Printer

/-!
# The files of a batch

A batch writes one file for every variant, into one folder: `k.json` with the scene of the variant
`k`, or `k.diagnostics.json` with what is told of it if there is no scene. It writes nothing unless
all variants can be named as files, and while it writes, no other file changes.

The two ways to name a file meet in one place only. If there is no scene for `k` but one for the
variant `k.diagnostics`, both have the file `k.diagnostics.json`. So every variant has a file to
itself exactly when there are no two such variants.

## Main definitions

* `Variant.fileName`, `Variant.document`: the file for a variant.
* `Variant.Clashes`: two variants with one file.
* `Workspace.Filed`: what the folder has received.
* `BatchCommand.Reaches`, `BatchCommand.Leaves`: a batch that comes to its files, and what it leaves
  behind.

## Main results

* `Variant.fileName_eq_iff`: when two variants have one file.
* `Session.perform_writeVariants`: all files up to the first that cannot be written.
* `BatchCommand.perform_run`: how a batch ends.
* `BatchCommand.leaves_of_run`: what a batch leaves behind.
-/

namespace SceneFlow

open CommandLine

/-! ### The file for a variant -/

namespace Variant

variable {v w : Variant}

/-- What is written for a variant: its scene, or what is told of it if there is none. -/
def document (variant : Variant) : Json :=
  match variant.outcome with
  | .ok compilation => compilation.scene.toJson
  | .error diagnostics => diagnosticsJson diagnostics

/-- The name of the file for a variant. -/
def fileName (variant : Variant) : String :=
  match variant.outcome with
  | .ok _ => variant.key ++ ".json"
  | .error _ => variant.key ++ ".diagnostics.json"

/-- The key of the file for a variant in a folder. -/
def fileKey (place : Place) (variant : Variant) : String :=
  Place.key (place ++ [variant.fileName])

/-- There is no scene for one variant, but one for another that is named like the file for the
first. -/
structure Clashes (v w : Variant) : Prop where
  /-- There is no scene for the first. -/
  failing : v.outcome.isOk = false
  /-- There is one for the second. -/
  compiled : w.outcome.isOk = true
  /-- The second has the name of the file for the first. -/
  key : w.key = v.key ++ ".diagnostics"

theorem fileName_of_isOk (h : v.outcome.isOk = true) : v.fileName = v.key ++ ".json" := by
  rw [fileName]
  split
  · rfl
  · rename_i herror
    rw [herror] at h
    cases h

theorem fileName_of_not_isOk (h : v.outcome.isOk = false) :
    v.fileName = v.key ++ ".diagnostics" ++ ".json" := by
  rw [fileName]
  split
  · rename_i hok
    rw [hok] at h
    cases h
  · rw [String.append_assoc]
    rfl

theorem Clashes.fileName_eq (h : v.Clashes w) : v.fileName = w.fileName := by
  rw [fileName_of_not_isOk h.failing, fileName_of_isOk h.compiled, h.key]

/-- Variants with different names have one file only if they clash. -/
theorem fileName_eq_iff : v.fileName = w.fileName ↔
    (v.key = w.key ∧ v.outcome.isOk = w.outcome.isOk) ∨ v.Clashes w ∨ w.Clashes v := by
  refine ⟨fun h => ?_, ?_⟩
  · cases hv : v.outcome.isOk <;> cases hw : w.outcome.isOk
    · rw [fileName_of_not_isOk hv, fileName_of_not_isOk hw, String.append_left_inj,
        String.append_left_inj] at h
      exact .inl ⟨h, rfl⟩
    · rw [fileName_of_not_isOk hv, fileName_of_isOk hw, String.append_left_inj] at h
      exact .inr (.inl ⟨hv, hw, h.symm⟩)
    · rw [fileName_of_isOk hv, fileName_of_not_isOk hw, String.append_left_inj] at h
      exact .inr (.inr ⟨hw, hv, h⟩)
    · rw [fileName_of_isOk hv, fileName_of_isOk hw, String.append_left_inj] at h
      exact .inl ⟨h, rfl⟩
  · rintro (⟨hkey, hsame⟩ | h | h)
    · cases hw : w.outcome.isOk
      · rw [fileName_of_not_isOk (hsame.trans hw), fileName_of_not_isOk hw, hkey]
      · rw [fileName_of_isOk (hsame.trans hw), fileName_of_isOk hw, hkey]
    · exact h.fileName_eq
    · exact h.fileName_eq.symm

/-- Where two variants clash, the file cannot hold what is written for both. -/
theorem Clashes.fileText_ne (h : v.Clashes w) : fileText v.document ≠ fileText w.document := by
  intro htext
  have hdocument : v.document.pretty = w.document.pretty := (String.append_left_inj _).mp htext
  obtain ⟨hv, hw, -⟩ := h
  cases hfailing : v.outcome with
  | ok _ =>
    rw [hfailing] at hv
    cases hv
  | error diagnostics =>
    cases hcompiled : w.outcome with
    | error _ =>
      rw [hcompiled] at hw
      cases hw
    | ok compilation =>
      rw [document, document, hfailing, hcompiled] at hdocument
      have hhead := congrArg (fun text : String => text.toList.head?) hdocument
      dsimp only [diagnosticsJson, Scene.toJson] at hhead
      rw [Json.head?_pretty_arr, Json.head?_pretty_obj] at hhead
      exact absurd hhead (by decide)

theorem fileKey_eq_iff {place : Place} : v.fileKey place = w.fileKey place ↔
    v.fileName = w.fileName := by
  refine ⟨fun h => ?_, fun h => by rw [fileKey, fileKey, h]⟩
  cases place with
  | nil => exact h
  | cons name place =>
    have hne : name :: place ≠ [] := List.cons_ne_nil name place
    rw [fileKey, fileKey, Place.key, Place.key, String.intercalate_append_of_ne_nil hne
      (List.cons_ne_nil _ _), String.intercalate_append_of_ne_nil hne (List.cons_ne_nil _ _)] at h
    exact (String.append_right_inj _).mp h

/-- The name of the file for a variant is not that of a folder, and not one that leads elsewhere. -/
theorem slash_notMem_fileName (h : isFileName v.key = true) : '/' ∉ v.fileName.toList := by
  have hkey : '/' ∉ v.key.toList := by
    intro hslash
    rw [isFileName] at h
    split at h
    · cases h
    · cases h
    · simpa using List.all_eq_true.mp h '/' hslash
  cases hv : v.outcome.isOk
  · rw [fileName_of_not_isOk hv]
    simpa using hkey
  · rw [fileName_of_isOk hv]
    simpa using hkey

theorem getLast?_fileName (v : Variant) : v.fileName.toList.getLast? = some 'n' := by
  cases hv : v.outcome.isOk
  · rw [fileName_of_not_isOk hv, String.toList_append, List.getLast?_append]
    rfl
  · rw [fileName_of_isOk hv, String.toList_append, List.getLast?_append]
    rfl

theorem fileName_ne_empty (v : Variant) : v.fileName ≠ "" := fun h =>
  absurd (h ▸ v.getLast?_fileName) (by decide)

theorem fileName_ne_null (v : Variant) : v.fileName ≠ "null" := fun h =>
  absurd (h ▸ v.getLast?_fileName) (by decide)

end Variant

namespace CommandLine

/-! ### What a folder receives -/

namespace Workspace

variable {before middle after : Workspace} {folder : String} {variant : Variant}
  {variants : List Variant}

/-- The files for some variants have been written into a folder, one behind the other, and nothing
else has changed except for folders that have been made. -/
structure Filed (before after : Workspace) (folder : String) (place : Place)
    (variants : List Variant) : Prop where
  /-- Nothing has been taken away. -/
  grows : before.Grows after
  /-- The folder is at the place. -/
  folder : variants ≠ [] → after.resolve folder = .ok place ∧ after.isFolder place = true
  /-- The files have been written. -/
  files : after.files.entries = before.files.entries.overlay
    (variants.map fun variant => (variant.fileKey place, fileText variant.document))

theorem Filed.of_addsFolders (h : before.AddsFolders after) (folder : String) (place : Place) :
    Filed before after folder place [] :=
  ⟨h.grows, fun hne => absurd rfl hne, by rw [h.files]; rfl⟩

/-- The file for one variant. -/
theorem Filed.exists_of_write (hfolder : folder ≠ "") (hname : isFileName variant.key = true)
    (hadds : before.AddsFolders middle)
    (hwrite : middle.write (childPath folder variant.fileName) (fileText variant.document) =
      .ok after) : ∃ place, Filed before after folder place [variant] := by
  obtain ⟨place, hplace, hisFolder, rfl⟩ := write_childPath_eq_ok hfolder
    (Variant.slash_notMem_fileName hname) variant.fileName_ne_empty variant.fileName_ne_null hwrite
  have hgrows := middle.grows_insert (variant.fileKey place) (fileText variant.document)
  refine ⟨place, hadds.grows.trans hgrows, fun _ => ⟨?_, ?_⟩, ?_⟩
  · exact resolve_of_grows hgrows hplace
  · exact isFolder_of_grows hgrows hisFolder
  · rw [← hadds.files]
    rfl

/-- One file and then more: they are in one folder, as its path leads where it has led before. -/
theorem Filed.cons {place other : Place} (h : Filed before middle folder place [variant])
    (hrest : Filed middle after folder other variants) :
    Filed before after folder place (variant :: variants) := by
  obtain ⟨hplace, hisFolder⟩ := h.folder (List.cons_ne_nil _ _)
  have hafter := resolve_of_grows hrest.grows hplace
  refine ⟨h.grows.trans hrest.grows,
    fun _ => ⟨hafter, isFolder_of_grows hrest.grows hisFolder⟩, ?_⟩
  have hsame : variants.map (fun variant => (variant.fileKey other, fileText variant.document)) =
      variants.map fun variant => (variant.fileKey place, fileText variant.document) := by
    cases variants with
    | nil => rfl
    | cons next rest =>
      obtain ⟨hother, -⟩ := hrest.folder (List.cons_ne_nil _ _)
      rw [Except.ok.inj (hother.symm.trans hafter)]
  rw [hrest.files, h.files, hsame]
  rfl

end Workspace

/-! ### Writing one file after the other -/

namespace Session

variable {folder : String} {variant : Variant}

/-- To write the file for a variant is to write its document; the console may be told of it. -/
theorem writeVariant_eq (folder : String) (variant : Variant) :
    writeVariant console folder variant = (do
      writeJson console (childPath folder variant.fileName) variant.document
      if variant.outcome.isOk then
        (console.err ("wrote " ++ childPath folder variant.fileName ++ "\n") :
          StateM Session Unit)) := by
  obtain ⟨key, outcome⟩ := variant
  cases outcome with
  | ok compilation => rfl
  | error diagnostics => exact (bind_pure _).symm

/-- The file for a variant is written, or the command fails. -/
theorem perform_writeVariant (session : Session) (hfolder : folder ≠ "")
    (hname : isFileName variant.key = true) :
    ∃ later, (session.perform (writeVariant console folder variant) = (.ok (), later) ∧
        ∃ place, Workspace.Filed session.workspace later.workspace folder place [variant]) ∨
      ∃ failure, failure.isOfFile = true ∧
        session.perform (writeVariant console folder variant) = (.error failure, later) ∧
        ∀ place, Workspace.Filed session.workspace later.workspace folder place [] := by
  rw [writeVariant_eq]
  obtain ⟨middle, hadds, ⟨later, hwrite, hperform⟩ | ⟨failure, hfailure, hperform⟩⟩ :=
    session.perform_writeJson (childPath folder variant.fileName) variant.document
  · have hfiled := Workspace.Filed.exists_of_write hfolder hname hadds hwrite
    rw [perform_bind_of_ok hperform]
    split
    · refine ⟨_, .inl ⟨perform_lift _, ?_⟩⟩
      exact hfiled
    · refine ⟨_, .inl ⟨perform_pure _, ?_⟩⟩
      exact hfiled
  · rw [perform_bind_of_error hperform]
    exact ⟨_, .inr ⟨failure, hfailure, rfl, .of_addsFolders hadds folder⟩⟩

/-- Files for variants are written one after the other, up to the first that cannot be. -/
theorem perform_writeVariants (session : Session) (hfolder : folder ≠ "") {variants : List Variant}
    (hnames : ∀ variant ∈ variants, isFileName variant.key = true) :
    ∃ later place,
      (session.perform (forIn variants PUnit.unit fun variant _ => do
          writeVariant console folder variant
          pure (.yield PUnit.unit)) = (.ok PUnit.unit, later) ∧
        Workspace.Filed session.workspace later.workspace folder place variants) ∨
      ∃ failure, failure.isOfFile = true ∧
        session.perform (forIn variants PUnit.unit fun variant _ => do
          writeVariant console folder variant
          pure (.yield PUnit.unit)) = (.error failure, later) ∧
        ∃ written, written <+: variants ∧
          Workspace.Filed session.workspace later.workspace folder place written := by
  induction variants generalizing session with
  | nil =>
    exact ⟨session, [], .inl ⟨rfl, .of_addsFolders (.refl _) folder []⟩⟩
  | cons variant rest ih =>
    obtain ⟨hname, hrest⟩ := List.forall_mem_cons.mp hnames
    obtain ⟨middle, ⟨hperform, place, hfiled⟩ | ⟨failure, hfailure, hperform, hfiled⟩⟩ :=
      session.perform_writeVariant hfolder hname
    · have hstep := perform_bind_of_ok hperform fun _ =>
        (pure (.yield PUnit.unit) : Task (StateM Session) (ForInStep PUnit))
      obtain ⟨later, other, h⟩ := ih middle hrest
      rw [List.forIn_cons, perform_bind_of_ok (hstep.trans (perform_pure _))]
      refine ⟨later, place, ?_⟩
      rcases h with ⟨hlater, hmore⟩ | ⟨failure, hfailure, hlater, written, hbefore, hmore⟩
      · exact .inl ⟨hlater, hfiled.cons hmore⟩
      · exact .inr ⟨failure, hfailure, hlater, variant :: written,
          (List.prefix_cons_inj variant).mpr hbefore, hfiled.cons hmore⟩
    · have hstep := perform_bind_of_error hperform fun _ =>
        (pure (.yield PUnit.unit) : Task (StateM Session) (ForInStep PUnit))
      rw [List.forIn_cons, perform_bind_of_error hstep]
      exact ⟨middle, [], .inr ⟨failure, hfailure, rfl, [], List.nil_prefix, hfiled []⟩⟩

end Session

/-! ### Batches -/

theorem Options.ne_empty_of_path? {options : Options} {name path : String}
    (h : options.path? name = some (some path)) : path ≠ "" := by
  rw [Options.path?] at h
  split at h
  · cases h
  · rename_i hne
    rintro rfl
    exact hne (Option.some.inj h)

namespace BatchCommand

variable {command : BatchCommand} {arguments : List String}

/-- The path of a folder for a batch is not empty. -/
theorem folder_ne_empty (h : Command.ofArguments arguments = some (.batch command)) :
    command.folder ≠ "" := by
  unfold Command.ofArguments at h
  split at h
  · simp [Command.ofCompile, Option.bind_eq_some_iff] at h
  · simp only [Command.ofBatch, Option.bind_eq_bind, Option.bind_eq_some_iff] at h
    obtain ⟨options, -, _, -, _, -, _, -, _, -, _, hpath, folder, rfl, _, -, _, -, h⟩ := h
    obtain rfl := Command.batch.inj (Option.some.inj h)
    exact Options.ne_empty_of_path? hpath
  · simp [Command.ofInspect, Option.bind_eq_some_iff] at h
  · cases h

/-- A batch comes to its files: there is a batch of the network and the overrides that are in the
files, and all its variants can be named as files. -/
structure Reaches (command : BatchCommand) (session : Session) (overrides : Overrides)
    (batch : Batch) : Prop where
  /-- The overrides are read. -/
  reads : ∃ text, session.workspace.read command.overrides = .ok text ∧
    Overrides.parse text = .ok overrides
  /-- The graph is read and compiled. -/
  compiles : ∃ text graph net, session.workspace.read command.graph = .ok text ∧
    Graph.parse text = .ok graph ∧ Network.ofGraph graph = .ok net ∧
    net.batch overrides command.limits command.workers = .ok batch
  /-- The names are fit for files. -/
  names : ∀ key ∈ overrides.batchKeys, isFileName key = true

/-- There is one variant for every name. -/
theorem Reaches.map_key {session : Session} {overrides : Overrides} {batch : Batch}
    (h : command.Reaches session overrides batch) :
    batch.variants.map Variant.key = overrides.batchKeys := by
  obtain ⟨text, graph, net, -, -, -, hbatch⟩ := h.compiles
  rw [Network.batch_eq] at hbatch
  split at hbatch
  · cases hbatch
  · split at hbatch
    · cases hbatch
    · rw [← Except.ok.inj hbatch, List.map_map]
      exact List.map_id _

theorem Reaches.isFileName_of_mem {session : Session} {overrides : Overrides} {batch : Batch}
    (h : command.Reaches session overrides batch) {variant : Variant}
    (hvariant : variant ∈ batch.variants) : isFileName variant.key = true :=
  h.names _ (h.map_key ▸ List.mem_map_of_mem hvariant)

/-- How a batch ends if all its files are written. -/
def verdict (batch : Batch) : Except Failure Unit :=
  let failed := batch.variants.countP fun variant => !variant.outcome.isOk
  if failed = 0 then .ok () else .error (.variants failed batch.variants.length)

/-- A batch fails before it writes any file, or it comes to its files and writes them in turn, up to
the first that cannot be written. -/
theorem perform_run (command : BatchCommand) (hfolder : command.folder ≠ "") (session : Session) :
    ∃ later, (∃ failure, failure.isEarly = true ∧
        session.perform (command.run Session.console) = (.error failure, later) ∧
        later.workspace = session.workspace) ∨
      ∃ overrides batch, command.Reaches session overrides batch ∧ ∃ place,
        (session.perform (command.run Session.console) = (verdict batch, later) ∧
          Workspace.Filed session.workspace later.workspace command.folder place batch.variants) ∨
        ∃ failure, failure.isOfFile = true ∧
          session.perform (command.run Session.console) = (.error failure, later) ∧
          ∃ written, written <+: batch.variants ∧
            Workspace.Filed session.workspace later.workspace command.folder place written := by
  rw [run]
  rcases session.finds_readNetwork command.graph with
    ⟨net, hperform, text, graph, htext, hparse, hnet⟩ | ⟨failure, hperform, hearly⟩
  swap
  · rw [Session.perform_bind_of_error hperform]
    exact ⟨session, .inl ⟨failure, hearly, rfl, rfl⟩⟩
  rw [Session.perform_bind_of_ok hperform]
  rcases session.finds_readOverrides command.overrides with
    ⟨overrides, hperform, hoverrides⟩ | ⟨failure, hperform, hearly⟩
  swap
  · rw [Session.perform_bind_of_error hperform]
    exact ⟨session, .inl ⟨failure, hearly, rfl, rfl⟩⟩
  rw [Session.perform_bind_of_ok hperform]
  dsimp only
  split
  · rename_i key _
    exact ⟨session, .inl ⟨.badKey key, rfl, rfl, rfl⟩⟩
  · rename_i hfind
    split
    · rename_i diagnostics hbatch
      exact ⟨_, .inl ⟨.noBase (errorCount diagnostics), rfl, rfl, rfl⟩⟩
    · rename_i error _ hbatch
      exact ⟨session, .inl ⟨.noBatch error, rfl, rfl, rfl⟩⟩
    · rename_i batch hbatch
      have hreaches : command.Reaches session overrides batch := by
        refine ⟨hoverrides, ⟨text, graph, net, htext, hparse, hnet, hbatch⟩, ?_⟩
        simpa using List.find?_eq_none.mp (Option.eq_none_iff_forall_ne_some.mpr hfind)
      have hnames : ∀ variant ∈ batch.variants, isFileName variant.key = true :=
        fun _ => hreaches.isFileName_of_mem
      obtain ⟨later, place, ⟨hperform, hfiled⟩ | ⟨failure, hfailure, hperform, hwritten⟩⟩ :=
        session.perform_writeVariants hfolder hnames
      · refine ⟨later, .inr ⟨overrides, batch, hreaches, place, .inl ⟨?_, hfiled⟩⟩⟩
        rw [Session.perform_bind_of_ok hperform, verdict, apply_ite later.perform, ite_not]
        split <;> rfl
      · exact ⟨later, .inr ⟨overrides, batch, hreaches, place, .inr ⟨failure, hfailure,
          Session.perform_bind_of_error hperform _, hwritten⟩⟩⟩

end BatchCommand

/-! ### What is left behind -/

/-- The files for some variants are in one folder: none is for two of them, and each holds what is
written for its own. -/
structure Workspace.Holds (ws : Workspace) (place : Place) (variants : List Variant) : Prop where
  /-- The files are different. -/
  different : (variants.map (Variant.fileKey place)).Nodup
  /-- They hold what is written for their own variants. -/
  texts : ∀ variant ∈ variants,
    ws.files.get? (variant.fileKey place) = some (fileText variant.document)

/-- What a folder has received it holds, unless two variants clash. -/
theorem Workspace.Filed.holds_iff {before after : Workspace} {folder : String} {place : Place}
    {variants : List Variant} (h : Filed before after folder place variants)
    (hkeys : (variants.map Variant.key).Nodup) :
    after.Holds place variants ↔ ∀ v ∈ variants, ∀ w ∈ variants, ¬ v.Clashes w := by
  constructor
  · intro hholds v hv w hw hclashes
    have htext := hholds.texts v hv
    rw [Variant.fileKey_eq_iff.mpr hclashes.fileName_eq, hholds.texts w hw] at htext
    exact hclashes.fileText_ne (Option.some.inj htext).symm
  · intro hclashes
    have hdifferent : (variants.map (Variant.fileKey place)).Nodup := by
      refine List.Nodup.map_on (fun v hv w hw hkey => ?_) (hkeys.of_map _)
      rcases Variant.fileName_eq_iff.mp (Variant.fileKey_eq_iff.mp hkey) with
        ⟨hsame, -⟩ | hclash | hclash
      · exact List.inj_on_of_nodup_map hkeys hv hw hsame
      · exact absurd hclash (hclashes v hv w hw)
      · exact absurd hclash (hclashes w hw v hv)
    refine ⟨hdifferent, fun variant hvariant => ?_⟩
    have hnodup : (Entries.keys (variants.map fun variant =>
        (variant.fileKey place, fileText variant.document))).Nodup := by
      rw [Entries.keys, List.map_map]
      exact hdifferent
    rw [Table.get?, h.files]
    refine Entries.get?_overlay_of_eq_some hnodup ?_
    rw [Entries.get?_eq_some_iff_of_nodup_keys hnodup]
    exact List.mem_map_of_mem hvariant

/-- Files that are not for any of the variants stay as they are. -/
theorem Workspace.Filed.get?_eq {before after : Workspace} {folder : String} {place : Place}
    {variants : List Variant} (h : Filed before after folder place variants) {key : String}
    (hkey : key ∉ variants.map (Variant.fileKey place)) :
    after.files.get? key = before.files.get? key := by
  rw [Table.get?, h.files]
  refine Entries.get?_overlay_of_notMem ?_
  rw [Entries.keys, List.map_map]
  exact hkey

/-- The program does what it is asked for, and then tells how it went. -/
theorem run_eq {arguments : List String} {command : Command}
    (h : Command.ofArguments arguments = some command) (session : Session) :
    (run Session.console arguments).run session =
      match session.perform (command.run Session.console) with
      | (.ok (), later) => (0, later)
      | (.error failure, later) => (1, { later with err := later.err ++ failure.report }) := by
  rw [run, h, Session.perform]
  dsimp only
  rw [StateT.run_bind]
  rcases (command.run Session.console).run.run session with ⟨_ | _, later⟩ <;> rfl

/-- What a batch leaves behind that comes to its files. -/
structure BatchCommand.Leaves (command : BatchCommand) (session : Session) (overrides : Overrides)
    (batch : Batch) (place : Place) (written : List Variant) (result : Except Failure Unit)
    (later : Session) : Prop where
  /-- The graph and the overrides are read, and all variants can be named as files. -/
  reaches : command.Reaches session overrides batch
  /-- There is one variant for every name. -/
  keys : batch.variants.map Variant.key = overrides.batchKeys
  /-- No name is there twice. -/
  nodup : overrides.batchKeys.Nodup
  /-- Files are written for the variants in their order. -/
  inOrder : written <+: batch.variants
  /-- They are in the folder. -/
  folder : written ≠ [] →
    later.workspace.resolve command.folder = .ok place ∧ later.workspace.isFolder place = true
  /-- They are not in a folder within it. -/
  names : ∀ variant ∈ written, variant.fileName ≠ "" ∧ '/' ∉ variant.fileName.toList
  /-- No other file changes. -/
  others : ∀ key, key ∉ written.map (Variant.fileKey place) →
    later.workspace.files.get? key = session.workspace.files.get? key
  /-- Unless one fails to be written, there are all of them. Then every variant has a file to itself
  with what is written for it, exactly when no two variants clash. -/
  complete : (∃ failure, result = .error failure ∧ failure.isOfFile = true) ∨
    result = verdict batch ∧ written = batch.variants ∧
      (later.workspace.Holds place batch.variants ↔
        ∀ v ∈ batch.variants, ∀ w ∈ batch.variants, ¬ v.Clashes w)

/-- A batch fails before it writes any file, or it comes to its files. -/
theorem BatchCommand.leaves_of_run {arguments : List String} {command : BatchCommand}
    (harguments : Command.ofArguments arguments = some (.batch command)) (session : Session) :
    ∃ result later, session.perform (command.run Session.console) = (result, later) ∧
      ((CommandLine.run Session.console arguments).run session).2.workspace = later.workspace ∧
      ((∃ failure, result = .error failure ∧ failure.isEarly = true ∧
          later.workspace = session.workspace) ∨
        ∃ overrides batch place written,
          command.Leaves session overrides batch place written result later) := by
  have hrun : ((CommandLine.run Session.console arguments).run session).2.workspace =
      (session.perform (command.run Session.console)).2.workspace := by
    rw [run_eq harguments, Command.run]
    rcases session.perform (command.run Session.console) with ⟨_ | _, later⟩ <;> rfl
  obtain ⟨later, ⟨failure, hearly, hperform, hsame⟩ | ⟨overrides, batch, hreaches, place, h⟩⟩ :=
    command.perform_run (folder_ne_empty harguments) session
  · rw [hperform] at hrun
    exact ⟨_, later, hperform, hrun, .inl ⟨failure, rfl, hearly, hsame⟩⟩
  · have hkeys : overrides.batchKeys.Nodup :=
      (pairwise_sortedTexts _).imp fun hlt => String.ne_of_lt hlt
    have hnames : ∀ variant ∈ batch.variants,
        variant.fileName ≠ "" ∧ '/' ∉ variant.fileName.toList := fun variant hvariant =>
      ⟨variant.fileName_ne_empty,
        Variant.slash_notMem_fileName (hreaches.isFileName_of_mem hvariant)⟩
    rcases h with ⟨hperform, hfiled⟩ | ⟨failure, hfailure, hperform, written, hbefore, hfiled⟩
    · rw [hperform] at hrun
      exact ⟨_, later, hperform, hrun, .inr ⟨overrides, batch, place, batch.variants, {
        reaches := hreaches
        keys := hreaches.map_key
        nodup := hkeys
        inOrder := List.prefix_rfl
        folder := hfiled.folder
        names := hnames
        others := fun _ => hfiled.get?_eq
        complete := .inr ⟨rfl, rfl, hfiled.holds_iff (hreaches.map_key ▸ hkeys)⟩ }⟩⟩
    · rw [hperform] at hrun
      exact ⟨_, later, hperform, hrun, .inr ⟨overrides, batch, place, written, {
        reaches := hreaches
        keys := hreaches.map_key
        nodup := hkeys
        inOrder := hbefore
        folder := hfiled.folder
        names := fun variant hvariant => hnames variant (hbefore.subset hvariant)
        others := fun _ => hfiled.get?_eq
        complete := .inl ⟨failure, rfl, hfailure⟩ }⟩⟩

/-- A session with the graph of a circle in a scene, and overrides that give it opacities in the
slots of a batch. -/
def circleSession (slots : String) : Session :=
  .start <| .ofFiles <| .ofList
    [("g", "\x7b\"nodes\":["
        ++ "\x7b\"id\":\"s\",\"name\":\"s\",\"type\":\"scene\","
        ++ "\"data\":\x7b\"width\":10,\"height\":10\x7d\x7d,"
        ++ "\x7b\"id\":\"c\",\"name\":\"c\",\"type\":\"geometry\","
        ++ "\"data\":\x7b\"shape\":\"circle\"\x7d\x7d],"
        ++ "\"edges\":[\x7b\"id\":\"e\",\"source\":\"c\",\"target\":\"s\"\x7d]\x7d"),
      ("o", "\x7b\"batch\":\x7b\"Canvas.opacity\":\x7b\"c\":\x7b" ++ slots
        ++ "\x7d\x7d\x7d\x7d")]

/-- A batch of that session. -/
def circleArguments : List String :=
  ["batch", "--in", "g", "--overrides", "o", "--out-dir", "out"]

/-- Whether a command compiles a batch. -/
def Command.isBatch : Command → Bool
  | batch _ => true
  | _ => false

set_option maxRecDepth 100000 in
/-- Two variants that can both be compiled. -/
theorem leaves_of_run_twoOpacities :
    let session := circleSession "\"a\":0.5,\"b\":1"
    ∃ command, Command.ofArguments circleArguments = some (.batch command) ∧
      ∃ later overrides batch place,
        session.perform (command.run Session.console) = (.ok (), later) ∧
          command.Leaves session overrides batch place batch.variants (.ok ()) later := by
  intro session
  have hcode : ((run Session.console circleArguments).run session).1 = 0 := by decide +kernel
  have hbatch : (Command.ofArguments circleArguments).any Command.isBatch = true := by
    decide +kernel
  obtain ⟨command, harguments, hbatch⟩ := (Option.any_eq_true _ _).mp hbatch
  cases command with
  | batch command =>
    obtain ⟨result, later, hperform, -, hleaves⟩ := BatchCommand.leaves_of_run harguments session
    rw [run_eq harguments, Command.run, hperform] at hcode
    refine ⟨command, harguments, later, ?_⟩
    cases result with
    | error failure => cases hcode
    | ok _ =>
      rcases hleaves with ⟨failure, hfailure, -⟩ | ⟨overrides, batch, place, written, hleaves⟩
      · cases hfailure
      · rcases hleaves.complete with ⟨failure, hfailure, -⟩ | ⟨-, hwritten, -⟩
        · cases hfailure
        · exact ⟨overrides, batch, place, hperform, hwritten ▸ hleaves⟩
  | _ => cases hbatch

set_option maxRecDepth 100000 in
/-- Two variants with one file. There is no scene for the first, and what is told of it is lost when
the scene for the second is written. -/
theorem exists_one_file_of_two : ∃ (arguments : List String) (session : Session),
    let later := ((run Session.console arguments).run session).2
    later.err = "wrote out/a.diagnostics.json\nError: 1 of 2 variant(s) failed\n" ∧
      (later.workspace.changes session.workspace).keys = ["out/a.diagnostics.json"] :=
  ⟨circleArguments, circleSession "\"a\":\"x\",\"a.diagnostics\":1", by decide +kernel⟩

end CommandLine

end SceneFlow
