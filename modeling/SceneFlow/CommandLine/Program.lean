import SceneFlow.CommandLine.Arguments
import SceneFlow.CommandLine.Console
import SceneFlow.CommandLine.Inspection
import SceneFlow.Compile.Batch

/-!
# The program

What each command does on a console. A command that fails stops there; what it has written by
then stays written. A run ends with 0, with 1 if the command failed, and with 2 if the arguments
break the rules.
-/

namespace SceneFlow.CommandLine

/-- A document that is read from a file. -/
inductive Document where
  /-- A graph. -/
  | graph
  /-- Overrides. -/
  | overrides
deriving DecidableEq

/-- What messages call a document. -/
def Document.name : Document → String
  | graph => "graph"
  | overrides => "overrides"

/-- Why a command fails. -/
inductive Failure where
  /-- A file cannot be opened. -/
  | unopened (document : Document) (path : String) (fault : FileFault)
  /-- A file cannot be read. -/
  | unread (document : Document) (fault : FileFault)
  /-- A file does not hold the document. -/
  | unfit (document : Document) (error : Json.ReadError)
  /-- A payload of the graph does not fit. -/
  | payload (error : PayloadError)
  /-- A payload of the graph of a file does not fit. -/
  | unindexed (path : String) (error : PayloadError)
  /-- A question about the graph has no answer. -/
  | query (error : QueryError)
  /-- The graph cannot be compiled. -/
  | uncompiled (errors : Nat)
  /-- The graph of a batch cannot be compiled without any variant. -/
  | noBase (errors : Nat)
  /-- The name of a variant cannot be the name of a file. -/
  | badKey (key : String)
  /-- There is no batch. -/
  | noBatch (error : BatchError)
  /-- Some variants cannot be compiled. -/
  | variants (failed total : Nat)
  /-- A folder cannot be made. -/
  | noFolder (path : String) (fault : FileFault)
  /-- A file cannot be written. -/
  | unwritten (path : String) (fault : FileFault)

namespace Failure

/-- The wording of a failure. -/
def message : Failure → String
  | unopened document path fault =>
    "validation error: open " ++ document.name ++ " JSON '" ++ path ++ "': " ++ fault.message
  | unread document fault =>
    "serialization error: parse " ++ document.name ++ " JSON: " ++ fault.message
  | unfit document error =>
    "serialization error: parse " ++ document.name ++ " JSON: " ++ error.message
  | payload error => error.message
  | unindexed path _ => "index graph '" ++ path ++ "'"
  | query error => error.message
  | uncompiled errors => "compilation failed with " ++ toString errors ++ " error(s)"
  | noBase errors => "base compilation failed with " ++ toString errors ++ " error(s)"
  | badKey key => "batch key '" ++ key ++ "' cannot be used as a file name"
  | noBatch error => error.message
  | variants failed total => toString failed ++ " of " ++ toString total ++ " variant(s) failed"
  | noFolder path _ => "create output dir '" ++ path ++ "'"
  | unwritten path _ => "write '" ++ path ++ "'"

/-- What lies behind a failure, where it is told apart. -/
def cause? : Failure → Option String
  | unindexed _ error => some error.message
  | noFolder _ fault | unwritten _ fault => some fault.message
  | _ => none

/-- A text as a part of an indented one. -/
def indented (text : String) : String :=
  String.ofList (text.toList.flatMap fun c => if c = '\n' then "\n    ".toList else [c])

/-- What is reported of a failure. -/
def report (failure : Failure) : String :=
  let cause :=
    match failure.cause? with
    | some text => "\n\nCaused by:\n    " ++ indented text
    | none => ""
  "Error: " ++ failure.message ++ cause ++ "\n"

end Failure

section Commands

variable {m : Type → Type} [Monad m]

/-- A run that may fail. -/
abbrev Task (m : Type → Type) := ExceptT Failure m

/-- Read the text of a document. -/
def readText (console : Console m) (document : Document) (path : String) : Task m String := do
  match ← (console.read path : m (Except FileFault String)) with
  | .ok text => pure text
  | .error .isFolder => throw (.unread document .isFolder)
  | .error fault => throw (.unopened document path fault)

/-- Read a graph. -/
def readGraph (console : Console m) (path : String) : Task m Graph := do
  match Graph.parse (← readText console .graph path) with
  | .ok graph => pure graph
  | .error error => throw (.unfit .graph error)

/-- Read overrides. -/
def readOverrides (console : Console m) (path : String) : Task m Overrides := do
  match Overrides.parse (← readText console .overrides path) with
  | .ok overrides => pure overrides
  | .error error => throw (.unfit .overrides error)

/-- Read a graph and attach its edges. -/
def readNetwork (console : Console m) (path : String) : Task m Network := do
  match Network.ofGraph (← readGraph console path) with
  | .ok net => pure net
  | .error error => throw (.unindexed path error)

/-- A value as the text of a file. -/
def fileText (value : Json) : String :=
  value.pretty ++ "\n"

/-- Write a value to the standard output. -/
def printJson (console : Console m) (value : Json) : Task m Unit :=
  (console.out (fileText value) : m Unit)

/-- Write a value to a file, in a folder that is made if it is not there. -/
def writeJson (console : Console m) (path : String) (value : Json) : Task m Unit := do
  let folder := parentPath path
  if folder ≠ "" then
    match ← (console.makeFolder folder : m (Except FileFault Unit)) with
    | .ok () => pure ()
    | .error fault => throw (.noFolder folder fault)
  match ← (console.write path (fileText value) : m (Except FileFault Unit)) with
  | .ok () => pure ()
  | .error fault => throw (.unwritten path fault)

/-- Write a scene to a file, and say so. -/
def writeScene (console : Console m) (path : String) (scene : Scene) : Task m Unit := do
  writeJson console path scene.toJson
  (console.err ("wrote " ++ path ++ "\n") : m Unit)

/-- Diagnostics as a value. -/
def diagnosticsJson (diagnostics : List Diagnostic) : Json :=
  .arr (diagnostics.map Diagnostic.toJson)

/-- The number of errors among diagnostics. -/
def errorCount (diagnostics : List Diagnostic) : Nat :=
  diagnostics.countP Diagnostic.isError

/-- Compile a graph. -/
def CompileCommand.run (console : Console m) (command : CompileCommand) : Task m Unit := do
  let net ← readNetwork console command.graph
  let overrides ←
    match command.overrides with
    | some path => readOverrides console path
    | none => pure Overrides.empty
  match net.compile overrides command.limits with
  | .ok compilation =>
    match command.output with
    | some path => writeScene console path compilation.scene
    | none => printJson console compilation.scene.toJson
  | .error diagnostics =>
    printJson console (diagnosticsJson diagnostics)
    throw (.uncompiled (errorCount diagnostics))

/-- Whether the name of a variant can be the name of a file. -/
def isFileName (key : String) : Bool :=
  match key.toList with
  | [] => false
  | '.' :: _ => false
  | cs => cs.all fun c => c ≠ '/' && c ≠ '\\'

/-- Write the outcome for a variant into a folder. -/
def writeVariant (console : Console m) (folder : String) (variant : Variant) : Task m Unit :=
  match variant.outcome with
  | .ok compilation =>
    writeScene console (childPath folder (variant.key ++ ".json")) compilation.scene
  | .error diagnostics =>
    writeJson console (childPath folder (variant.key ++ ".diagnostics.json"))
      (diagnosticsJson diagnostics)

/-- Compile a graph for every variant. Nothing is written unless all variants can be named as
files and the graph can be compiled without any. -/
def BatchCommand.run (console : Console m) (command : BatchCommand) : Task m Unit := do
  let net ← readNetwork console command.graph
  let overrides ← readOverrides console command.overrides
  if let some key := overrides.batchKeys.find? fun key => !isFileName key then
    throw (.badKey key)
  match net.batch overrides command.limits command.workers with
  | .error (.base diagnostics) =>
    printJson console (diagnosticsJson diagnostics)
    throw (.noBase (errorCount diagnostics))
  | .error error => throw (.noBatch error)
  | .ok batch =>
    for variant in batch.variants do
      writeVariant console command.folder variant
    let failed := batch.variants.countP fun variant => !variant.outcome.isOk
    if failed ≠ 0 then throw (.variants failed batch.variants.length)

/-- Tell what lies before and behind a node. -/
def InspectCommand.run (console : Console m) (command : InspectCommand) : Task m Unit := do
  let graph ← readGraph console command.graph
  match Network.ofGraph graph with
  | .error error => throw (.payload error)
  | .ok net =>
    match Inspection.ofNode graph net command.node with
    | .ok inspection => printJson console inspection.toJson
    | .error error => throw (.query error)

/-- Do what a command asks for. -/
def Command.run (console : Console m) : Command → Task m Unit
  | .compile command => command.run console
  | .batch command => command.run console
  | .inspect command => command.run console

/-- Do what the arguments ask for, and end with a number that says how it went. -/
def run (console : Console m) (arguments : List String) : m Nat :=
  match Command.ofArguments arguments with
  | none => do
    console.err Command.usage
    pure 2
  | some command => do
    match ← (command.run console).run with
    | .ok () => pure 0
    | .error failure => do
      console.err failure.report
      pure 1

end Commands

end SceneFlow.CommandLine
