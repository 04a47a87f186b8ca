import SceneFlow.Text.Split

/-!
# Consoles

A console is all that the program touches: files and folders, and the two streams of output.
-/

namespace SceneFlow.CommandLine

/-- Why a file or a folder cannot be used. -/
inductive FileFault where
  /-- It is not there. -/
  | notFound
  /-- It is there already, and is no folder. -/
  | occupied
  /-- A file is in the place of a folder. -/
  | notFolder
  /-- A folder is in the place of a file. -/
  | isFolder
  /-- A name is too long. -/
  | nameTooLong
  /-- A name holds the character that ends names. -/
  | nameBroken
  /-- Any other reason. -/
  | other (text : String)
deriving DecidableEq

/-- The wording of a fault. -/
def FileFault.message : FileFault → String
  | notFound => "No such file or directory (os error 2)"
  | occupied => "File exists (os error 17)"
  | notFolder => "Not a directory (os error 20)"
  | isFolder => "Is a directory (os error 21)"
  | nameTooLong => "File name too long (os error 36)"
  | nameBroken => "file name contained an unexpected NUL byte"
  | other text => text

/-- What the program touches. -/
structure Console (m : Type → Type) where
  /-- Read a file. -/
  read : (path : String) → m (Except FileFault String)
  /-- Make a folder and the folders above it, unless they are there. -/
  makeFolder : (path : String) → m (Except FileFault Unit)
  /-- Write a file. -/
  write : (path text : String) → m (Except FileFault Unit)
  /-- Write to the standard output. -/
  out : (text : String) → m Unit
  /-- Write to the stream for errors. -/
  err : (text : String) → m Unit

/-! ### Paths -/

/-- The names in a path. -/
def pathNames (path : String) : List String :=
  (Text.split '/' path.toList).map String.ofList

/-- Drop the names at the end of a reversed path that lead nowhere, but not the first name of the
path. -/
def dropIdle : List String → List String
  | name :: next :: names =>
    if name = "" ∨ name = "." then dropIdle (next :: names) else name :: next :: names
  | names => names

/-- The path of the folder that a path lies in; empty for the folder that the program runs in. -/
def parentPath (path : String) : String :=
  match dropIdle (pathNames path).reverse with
  | [] => ""
  | _ :: above =>
    match (dropIdle above).reverse with
    | [""] => "/"
    | names => "/".intercalate names

/-- A path and the paths of the folders that it lies in, the innermost first. Each has fewer names
than the one before it, so `fuel` need not exceed the number of names. -/
def ancestors : (fuel : Nat) → (path : String) → List String
  | 0, _ => []
  | fuel + 1, path => if path = "" then [] else path :: ancestors fuel (parentPath path)

/-- A path and the paths of the folders that it lies in, the innermost first. -/
def pathAndAbove (path : String) : List String :=
  ancestors (pathNames path).length path

/-- The path of a file in a folder. -/
def childPath (folder name : String) : String :=
  if folder.toList.getLast? = some '/' then folder ++ name else folder ++ "/" ++ name

end SceneFlow.CommandLine
