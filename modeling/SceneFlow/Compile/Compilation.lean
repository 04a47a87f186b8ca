import SceneFlow.Compile.Assembly

/-!
# Compilation

A network is compiled in two steps. The first validates it and evaluates its variables, and is the
same for all variants; the second sends the objects through it and assembles the scene, with the
overrides of one variant. An error anywhere means that there is no scene.
-/

namespace SceneFlow

/-- A network that can be compiled. -/
structure Prepared where
  /-- The network. -/
  network : Network
  /-- The medium of the terminal. -/
  output : Output
  /-- The canvas of the terminal. -/
  canvas : Canvas
  /-- The largest number of objects. -/
  instances : Nat
  /-- The values of the variables. -/
  values : VariableValues
  /-- What validation has found, no error among it. -/
  findings : List Finding

/-- A scene, and the warnings that came up on the way. -/
structure Compilation where
  /-- The scene. -/
  scene : Scene
  /-- The warnings. -/
  warnings : List Diagnostic

/-- A compilation, or the diagnostics that explain why there is none. -/
abbrev Outcome := Except (List Diagnostic) Compilation

/-- Validate a network and evaluate its variables. -/
def Network.prepare (net : Network) (limits : Limits) : Except (List Finding) Prepared :=
  let findings := net.findings limits
  if findings.any Finding.isError then .error findings
  else
    match net.terminal?, net.evaluate with
    | none, _ => .error findings
    | some _, .error cause => .error (findings ++ [.unresolved cause])
    | some (output, canvas), .ok values =>
      .ok ⟨net, output, canvas, limits.instances, values, findings⟩

namespace Prepared

/-- How grave it is that an object passes no insert node. -/
def coverage (prepared : Prepared) : Severity :=
  if prepared.canvas.requireInsert then .error else .warning

/-- How the overrides of a variant are resolved. -/
def resolver (prepared : Prepared) (overrides : Overrides) (key : Option String) : Resolver :=
  ⟨overrides, prepared.values, key⟩

/-- The flow of the objects through the network. -/
def flow (prepared : Prepared) (overrides : Overrides) (key : Option String) :
    Flow prepared.network.size :=
  prepared.network.flow ⟨prepared.resolver overrides key, prepared.coverage, prepared.instances⟩

/-- Send the objects through the network and assemble the scene. Delivered tokens become objects
only if there has been no error; equal diagnostics are told once. -/
def run (prepared : Prepared) (overrides : Overrides) (key : Option String) : Outcome :=
  let flow := prepared.flow overrides key
  let found :=
    prepared.findings ++ flow.findings
      ++ prepared.network.deliveryFindings prepared.coverage flow.delivered
  let cast :=
    if found.any Finding.isError then .empty
    else Cast.ofTokens (prepared.resolver overrides key) flow.delivered
  let (scene, late) := cast.scene prepared.output prepared.canvas
  let diagnostics :=
    distinct Diagnostic.message ((found ++ cast.findings ++ late).map Finding.diagnostic)
  if diagnostics.any Diagnostic.isError then .error (Diagnostic.errorsFirst diagnostics)
  else .ok ⟨scene, diagnostics⟩

end Prepared

/-- Compile a network with overrides. Diagnostics of the first step are told as they come. -/
def Network.compile (net : Network) (overrides : Overrides) (limits : Limits) : Outcome :=
  match net.prepare limits with
  | .error findings => .error (findings.map Finding.diagnostic)
  | .ok prepared => prepared.run overrides none

end SceneFlow
