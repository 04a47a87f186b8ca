import SceneFlow.Compile.Validation

/-!
# Arguments

What the program is asked to do. The first argument names a command, the others are its options,
each with a value behind it or behind an equals sign. An option may be given once; a value that
starts with a hyphen has to stand behind an equals sign, unless it is a hyphen and nothing else.
-/

namespace SceneFlow.CommandLine

/-- Compile a graph into a scene. -/
structure CompileCommand where
  /-- The file with the graph. -/
  graph : String
  /-- The file with the overrides, if there are any. -/
  overrides : Option String
  /-- The file for the scene, if it is not for the standard output. -/
  output : Option String
  /-- The bounds. -/
  limits : Limits

/-- Compile a graph into one scene for every variant. -/
structure BatchCommand where
  /-- The file with the graph. -/
  graph : String
  /-- The file with the overrides. -/
  overrides : String
  /-- The folder for the scenes. -/
  folder : String
  /-- The number of workers, if it is given. -/
  workers : Option Nat
  /-- The bounds. -/
  limits : Limits

/-- Tell what lies before and behind a node. -/
structure InspectCommand where
  /-- The file with the graph. -/
  graph : String
  /-- The node. -/
  node : NodeId

/-- What the program can be asked to do. -/
inductive Command where
  /-- Compile a graph into a scene. -/
  | compile (command : CompileCommand)
  /-- Compile a graph into one scene for every variant. -/
  | batch (command : BatchCommand)
  /-- Tell what lies before and behind a node. -/
  | inspect (command : InspectCommand)

/-- Options and their values. -/
abbrev Options := List (String × String)

namespace Options

/-- Split an argument into the name of an option and the value behind an equals sign. -/
def split (argument : String) : Option (String × Option String) :=
  match argument.toList with
  | '-' :: '-' :: c :: rest =>
    let text := c :: rest
    let name := String.ofList (text.takeWhile (· ≠ '='))
    match text.dropWhile (· ≠ '=') with
    | _ :: value => some (name, some (String.ofList value))
    | [] => some (name, none)
  | _ => none

/-- Whether an argument can be the value of the option before it. -/
def isValue (argument : String) : Bool :=
  argument = "-" || argument.toList.head? ≠ some '-'

/-- Read arguments as options with the given names. Two hyphens may end them. -/
def read (names : List String) : List String → Option Options
  | [] => some []
  | ["--"] => some []
  | argument :: rest => do
    let (name, value?) ← split argument
    if !names.contains name then none
    else
      match value?, rest with
      | some value, rest => (read names rest).map ((name, value) :: ·)
      | none, value :: rest =>
        if isValue value then (read names rest).map ((name, value) :: ·) else none
      | none, [] => none

/-- Read arguments as options with the given names, none of them twice. -/
def ofArguments (names arguments : List String) : Option Options := do
  let options ← read names arguments
  if (options.map Prod.fst).Nodup then some options else none

/-- The path that an option gives, which may not be empty. -/
def path? (options : Options) (name : String) : Option (Option String) :=
  match options.lookup name with
  | some "" => none
  | found => some found

/-- A count of 64 bits in decimal digits, which may have a plus sign before them. -/
def readCount (text : String) : Option Nat :=
  let digits :=
    match text.toList with
    | '+' :: rest => rest
    | digits => digits
  if digits.isEmpty || !digits.all Json.isDigit then none
  else
    let n := Decimal.ofDigitChars digits
    if n < UInt64.size then some n else none

/-- The count that an option gives. -/
def count? (options : Options) (name : String) : Option (Option Nat) :=
  match options.lookup name with
  | some text => (readCount text).map some
  | none => some none

/-- The bounds that options give. -/
def limits? (options : Options) : Option Limits := do
  let nodes ← options.count? "max-nodes"
  let instances ← options.count? "max-instances"
  some ⟨nodes.getD Limits.standard.nodes, instances.getD Limits.standard.instances⟩

end Options

namespace Command

/-- Read the options of a compilation. -/
def ofCompile (arguments : List String) : Option Command := do
  let options ← Options.ofArguments
    ["in", "overrides", "out", "max-nodes", "max-instances"] arguments
  let graph ← ← options.path? "in"
  some (.compile ⟨graph, ← options.path? "overrides", ← options.path? "out", ← options.limits?⟩)

/-- Read the options of a batch. -/
def ofBatch (arguments : List String) : Option Command := do
  let options ← Options.ofArguments
    ["in", "overrides", "out-dir", "threads", "max-nodes", "max-instances"] arguments
  let graph ← ← options.path? "in"
  let overrides ← ← options.path? "overrides"
  let folder ← ← options.path? "out-dir"
  some (.batch ⟨graph, overrides, folder, ← options.count? "threads", ← options.limits?⟩)

/-- Read the options of an inspection. -/
def ofInspect (arguments : List String) : Option Command := do
  let options ← Options.ofArguments ["in", "node"] arguments
  let graph ← ← options.path? "in"
  let node ← options.lookup "node"
  some (.inspect ⟨graph, ⟨node⟩⟩)

/-- What the arguments ask for, unless they break the rules. -/
def ofArguments : List String → Option Command
  | "compile" :: arguments => ofCompile arguments
  | "batch" :: arguments => ofBatch arguments
  | "inspect" :: arguments => ofInspect arguments
  | _ => none

/-- How the program is to be asked. -/
def usage : String :=
  "usage: compile --in FILE [--overrides FILE] [--out FILE] [LIMITS]\n"
    ++ "       batch --in FILE --overrides FILE --out-dir FOLDER [--threads N] [LIMITS]\n"
    ++ "       inspect --in FILE --node ID\n"
    ++ "LIMITS are --max-nodes N and --max-instances N.\n"

end Command

end SceneFlow.CommandLine
