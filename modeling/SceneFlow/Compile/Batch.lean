import SceneFlow.Compile.Compilation

/-!
# Batches

A batch compiles a network once as it is and once for every variant that the batch table names.
The first step of the compilation is shared, so variants differ in what overrides say of them and
in nothing else.
-/

namespace SceneFlow

/-- The outcome for one variant. -/
structure Variant where
  /-- The name of the variant. -/
  key : String
  /-- Its outcome. -/
  outcome : Outcome

/-- The outcomes of a batch. -/
structure Batch where
  /-- The compilation without any variant. -/
  base : Compilation
  /-- The variants, in the order of their names. -/
  variants : List Variant

/-- Why there is no batch. -/
inductive BatchError where
  /-- The network cannot be compiled without any variant. -/
  | base (diagnostics : List Diagnostic)
  /-- There are variants, and no worker to compile them. -/
  | noWorkers

/-- The wording of an error. -/
def BatchError.message : BatchError → String
  | base diagnostics => "base compilation failed:\n" ++ Diagnostic.report diagnostics
  | noWorkers => "validation error: batch 'threads' must be >= 1 when set"

/-- Compile a network with all its variants. How many workers there are makes no difference, as
long as there is one when it is needed. -/
def Network.batch (net : Network) (overrides : Overrides) (limits : Limits)
    (workers : Option Nat) : Except BatchError Batch :=
  match net.prepare limits with
  | .error findings => .error (.base (findings.map Finding.diagnostic))
  | .ok prepared =>
    match prepared.run overrides none with
    | .error diagnostics => .error (.base diagnostics)
    | .ok base =>
      let keys := overrides.batchKeys
      if !keys.isEmpty && workers = some 0 then .error .noWorkers
      else .ok ⟨base, keys.map fun key => ⟨key, prepared.run overrides (some key)⟩⟩

end SceneFlow
