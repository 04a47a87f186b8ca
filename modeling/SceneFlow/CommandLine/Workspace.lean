import SceneFlow.CommandLine.Console
import SceneFlow.Entries

/-!
# Workspaces

A workspace is a folder with texts in it, held as a value together with the system around it, of
which only what every system has is known: the folders above the workspace, the folders `/` and
`/dev`, and the file `/dev/null`, which is empty and stays empty.

Paths are followed name by name. A path that starts with a slash starts at the root, any other in
the workspace. What a path leads through has to be there and to be a folder, even where the next
name leads back out of it.
-/

namespace SceneFlow.CommandLine

/-- A place in the system, given by the names that lead there from the root. -/
abbrev Place := List String

namespace Place

/-- The key of a place. -/
def key (place : Place) : String :=
  "/".intercalate place

/-- The place of the workspace. Its own name is empty, so that no path can spell it. -/
def home : Place := ["tmp", ""]

/-- The place of the file that is always empty. -/
def null : Place := ["dev", "null"]

/-- The place where a path starts. -/
def startOf (path : String) : Place :=
  if path.toList.head? = some '/' then [] else home

end Place

/-- A folder with texts, and the system around it. -/
structure Workspace where
  /-- The texts, under the keys of their places. -/
  files : Table String
  /-- The folders that have been made. -/
  folders : List Place

namespace Workspace

/-- The workspace that holds the given texts. -/
def ofFiles (files : Table String) : Workspace where
  files := .ofList (files.entries.map fun (name, text) => (Place.key (Place.home ++ [name]), text))
  folders := []

/-- The text at a place. -/
def text? (ws : Workspace) (place : Place) : Option String :=
  if place = Place.null then some "" else ws.files.get? place.key

/-- Whether there is a folder at a place: one that is always there, one that has been made, or one
with a file in it. -/
def isFolder (ws : Workspace) (place : Place) : Bool :=
  place.isPrefixOf Place.home || place.isPrefixOf Place.null.dropLast || ws.folders.contains place
    || ws.files.keys.any fun name => (place.key ++ "/").toList.isPrefixOf name.toList

/-! ### Following paths -/

/-- The longest name, in bytes. -/
def nameLimit : Nat := 255

/-- The longest path, in bytes. -/
def pathLimit : Nat := 4095

/-- Refuse a path that no system call takes. -/
def checkPath (path : String) : Except FileFault Unit :=
  if path.toList.contains (Char.ofNat 0) then .error .nameBroken
  else if pathLimit < path.utf8ByteSize then .error .nameTooLong
  else .ok ()

/-- A place that has to be a folder. -/
def requireFolder (ws : Workspace) (place : Place) : Except FileFault Unit :=
  if ws.isFolder place then .ok ()
  else .error (if (ws.text? place).isSome then .notFolder else .notFound)

/-- Follow names from a place on. The last place need not be there. -/
def follow (ws : Workspace) (place : Place) : List String → Except FileFault Place
  | [] => .ok place
  | name :: names => do
    ws.requireFolder place
    if name = "" ∨ name = "." then ws.follow place names
    else if name = ".." then ws.follow place.dropLast names
    else if nameLimit < name.utf8ByteSize then .error .nameTooLong
    else ws.follow (place ++ [name]) names

/-- The place that a path leads to. -/
def resolve (ws : Workspace) (path : String) : Except FileFault Place := do
  checkPath path
  ws.follow (Place.startOf path) (pathNames path)

/-- A name in a folder, at which something is to be made. -/
structure Target where
  /-- The folder. -/
  folder : Place
  /-- The name. -/
  name : String
  /-- A slash stands behind the name. -/
  slash : Bool

/-- The target that a path leads to, the root being its own child `.`. -/
def target (ws : Workspace) (path : String) : Except FileFault Target := do
  checkPath path
  let names := pathNames path
  let used := (names.reverse.dropWhile fun name => name = "").reverse
  let folder ← ws.follow (Place.startOf path) used.dropLast
  ws.requireFolder folder
  .ok ⟨folder, used.getLast?.getD ".", used.length < names.length⟩

/-- Whether the name of a target leads to a folder that is there in any case. -/
def Target.isIdle (target : Target) : Bool :=
  target.name = "." || target.name = ".."

/-- The place of a target. -/
def Target.place (target : Target) : Place :=
  target.folder ++ [target.name]

/-! ### Files -/

/-- Read the file at a path. -/
def read (ws : Workspace) (path : String) : Except FileFault String := do
  let place ← ws.resolve path
  match ws.text? place with
  | some text => .ok text
  | none => .error (if ws.isFolder place then .isFolder else .notFound)

/-- Write the file at a path. What is written to the file that is always empty is gone. -/
def write (ws : Workspace) (path text : String) : Except FileFault Workspace := do
  let target ← ws.target path
  if target.isIdle || target.slash then .error .isFolder
  else if nameLimit < target.name.utf8ByteSize then .error .nameTooLong
  else if ws.isFolder target.place then .error .isFolder
  else if target.place = Place.null then .ok ws
  else .ok { ws with files := ws.files.insert target.place.key text }

/-! ### Folders -/

/-- Make the folder at a path. The folder above it has to be there. -/
def addFolder (ws : Workspace) (path : String) : Except FileFault Workspace := do
  let target ← ws.target path
  if target.isIdle then .error .occupied
  else if nameLimit < target.name.utf8ByteSize then .error .nameTooLong
  else if ws.isFolder target.place || (ws.text? target.place).isSome then .error .occupied
  else .ok { ws with folders := target.place :: ws.folders }

/-- Whether a path leads to a folder. -/
def leadsToFolder (ws : Workspace) (path : String) : Bool :=
  match ws.resolve path with
  | .ok place => ws.isFolder place
  | .error _ => false

/-- Make the folder at a path unless it is there. -/
def ensureFolder (ws : Workspace) (path : String) : Except FileFault Workspace :=
  match ws.addFolder path with
  | .ok ws => .ok ws
  | .error fault => if ws.leadsToFolder path then .ok ws else .error fault

/-- Make the folder at the first of some paths, each of which lies in the folder at the next. The
folders at the others are made only if they are missed. -/
def ensureFolders (ws : Workspace) : List String → Except FileFault Workspace
  | [] => .ok ws
  | path :: above =>
    match ws.ensureFolder path with
    | .error .notFound => do (← ws.ensureFolders above).ensureFolder path
    | result => result

/-- Make the folder at a path and the folders above it. -/
def makeFolder (ws : Workspace) (path : String) : Except FileFault Workspace :=
  ws.ensureFolders (pathAndAbove path)

/-! ### Changes -/

/-- The texts in the workspace that are new or differ from those of an earlier one, under their
names from the workspace on. -/
def changes (ws earlier : Workspace) : Entries String :=
  ws.files.entries.filterMap fun (key, text) => do
    let name ← List.isPrefixOf? (Place.home.key ++ "/").toList key.toList
    if earlier.files.get? key = some text then none else some (String.ofList name, text)

end Workspace

end SceneFlow.CommandLine
