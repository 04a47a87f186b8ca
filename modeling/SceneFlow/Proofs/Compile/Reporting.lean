import SceneFlow.Proofs.Compile.Acceptance
import SceneFlow.Proofs.Compile.Variants

/-!
# Errors that are told

A step of a compilation that gives nothing relies on an error that has been told, by itself or by
a step before it: validation gives no terminal, a token becomes no object, objects make no scene.
Here a compilation is put together from the steps with their guards, each of which may stop it, and
proved to be the compilation without them. So nothing stops a compilation but an error, and no error
is lost on the way to the outcome.

## Main definitions

* `Phase`, `Network.raised`: the phases of a compilation, and what each of them finds.
* `Network.attempt`: a compilation that any of its steps may stop.

## Main results

* `Network.attempt_eq`: a compilation stops nowhere but where it should.
* `Network.exists_outcome_eq_error_iff`: a compilation fails just if some phase finds an error.
* `Network.outcome_tells`: how outcomes tell what has been found.
-/

namespace SceneFlow

/-- The phases of a compilation. -/
inductive Phase where
  /-- The graph is looked at. -/
  | validation
  /-- The variables are evaluated. -/
  | evaluation
  /-- The objects are sent through the network. -/
  | walk
  /-- The deliveries are looked at. -/
  | delivery
  /-- Delivered tokens become objects. -/
  | materialization

/-! ### Diagnostics in order -/

theorem nodup_errorsFirst {list : List Diagnostic} (h : list.Nodup) :
    (Diagnostic.errorsFirst list).Nodup := by
  rw [Diagnostic.errorsFirst, List.nodup_append]
  refine ⟨h.filter _, h.filter _, fun d hd d' hd' heq => ?_⟩
  have herror := (List.mem_filter.mp hd).2
  have hwarning := (List.mem_filter.mp hd').2
  rw [← heq, herror] at hwarning
  cases hwarning

namespace Prepared

variable {prepared : Prepared} {overrides : Overrides} {key : Option String}

/-- A run that fails tells everything once, the errors first, of which there is one. -/
theorem error_tells {diagnostics : List Diagnostic}
    (h : prepared.run overrides key = .error diagnostics) :
    (∃ d ∈ diagnostics, d.isError = true) ∧ diagnostics.Nodup ∧
      ∃ errors warnings, diagnostics = errors ++ warnings ∧
        (∀ d ∈ errors, d.isError = true) ∧ ∀ d ∈ warnings, d.isError = false := by
  rw [run_eq] at h
  split at h
  · rename_i herror
    obtain rfl := Except.error.inj h
    rw [← any_isError_distinct, List.any_eq_true] at herror
    obtain ⟨d, hd, hgrave⟩ := herror
    refine ⟨⟨d, mem_errorsFirst.mpr hd, hgrave⟩, nodup_errorsFirst (nodup_distinct _ _), _, _, rfl,
      fun d hd => (List.mem_filter.mp hd).2, fun d hd => ?_⟩
    simpa using (List.mem_filter.mp hd).2
  · cases h

/-- A run with a scene tells everything once, with no error among it, and tells what has been found
before. -/
theorem ok_tells {compilation : Compilation} (h : prepared.run overrides key = .ok compilation) :
    (∀ d ∈ compilation.warnings, d.isError = false) ∧ compilation.warnings.Nodup ∧
      ∀ finding ∈ prepared.findings, finding.diagnostic ∈ compilation.warnings := by
  rw [run_eq] at h
  split at h
  · cases h
  · rename_i hnone
    obtain rfl := Except.ok.inj h
    rw [← any_isError_distinct, List.any_eq_true, not_exists] at hnone
    refine ⟨fun d hd => ?_, nodup_distinct _ _, fun finding hfinding => ?_⟩
    · simpa [hd] using hnone d
    · refine mem_distinct.mpr (List.mem_map_of_mem ?_)
      simp only [told, found, List.mem_append]
      exact .inl (.inl (.inl (.inl hfinding)))

end Prepared

namespace Network

variable {net : Network} {overrides : Overrides} {limits : Limits} {key : Option String}
  {terminal : Fin net.size} {values : VariableValues}

/-! ### Steps -/

/-- What a validated network is prepared to. -/
def preparedFor (net : Network) (output : Output) (canvas : Canvas) (values : VariableValues)
    (limits : Limits) : Prepared :=
  ⟨net, output, canvas, limits.instances, values, net.findings limits⟩

/-- How the objects are sent to a terminal. -/
def settingsFor (net : Network) (terminal : Fin net.size) (values : VariableValues)
    (overrides : Overrides) (limits : Limits) (key : Option String) : FlowSettings where
  resolver := ⟨overrides, values, key⟩
  coverage :=
    match (net.node terminal).kind with
    | .terminal _ canvas => if canvas.requireInsert then .error else .warning
    | _ => .warning
  limit := limits.instances

/-- What is found before delivered tokens become objects. -/
def foundBefore (net : Network) (limits : Limits) (settings : FlowSettings) : List Finding :=
  net.findings limits ++ (net.flow settings).findings
    ++ net.deliveryFindings settings.coverage (net.flow settings).delivered

/-- What delivered tokens become. They are left alone if there has been an error. -/
def castFor (net : Network) (limits : Limits) (settings : FlowSettings) : Cast :=
  if (net.foundBefore limits settings).any Finding.isError then .empty
  else net.materializeAll settings.resolver (net.flow settings).delivered

/-- The steps behind the evaluation of the variables. There is no outcome with a scene unless
there is a scene and no error has been told. -/
def attemptRun (net : Network) (terminal : Fin net.size) (limits : Limits)
    (settings : FlowSettings) : Outcome :=
  let cast := net.castFor limits settings
  let assembled := net.assemble? terminal cast
  let diagnostics := distinct Diagnostic.message <|
    (net.foundBefore limits settings ++ cast.findings ++ assembled.elim [] Prod.snd).map
      Finding.diagnostic
  match assembled with
  | some (scene, _) =>
    if diagnostics.any Diagnostic.isError then .error (Diagnostic.errorsFirst diagnostics)
    else .ok ⟨scene, diagnostics⟩
  | none => .error (Diagnostic.errorsFirst diagnostics)

/-- A compilation that any of its steps may stop. -/
def attempt (net : Network) (overrides : Overrides) (limits : Limits) (key : Option String) :
    Outcome :=
  match net.validate limits with
  | none => .error ((net.findings limits).map Finding.diagnostic)
  | some terminal =>
    match net.evaluate with
    | .error cause =>
      .error ((net.findings limits ++ [Finding.unresolved cause]).map Finding.diagnostic)
    | .ok values =>
      net.attemptRun terminal limits (net.settingsFor terminal values overrides limits key)

/-- What a phase finds. A phase that is not reached finds nothing. -/
def raised (net : Network) (overrides : Overrides) (limits : Limits) (key : Option String)
    (phase : Phase) : List Finding :=
  match phase, net.validate limits, net.evaluate with
  | .validation, _, _ => net.findings limits
  | .evaluation, some _, .error cause => [.unresolved cause]
  | .walk, some terminal, .ok values =>
    (net.flow (net.settingsFor terminal values overrides limits key)).findings
  | .delivery, some terminal, .ok values =>
    let settings := net.settingsFor terminal values overrides limits key
    net.deliveryFindings settings.coverage (net.flow settings).delivered
  | .materialization, some terminal, .ok values =>
    (net.castFor limits (net.settingsFor terminal values overrides limits key)).findings
  | _, _, _ => []

/-! ### Where a compilation stops -/

/-- Validation gives no terminal only where it finds an error. -/
theorem any_isError_of_validate_eq_none (h : net.validate limits = none) :
    (net.findings limits).any Finding.isError = true := by
  by_contra hnone
  have hsound : Sound limits net := by
    rw [← sound_iff, Finding.noError_iff_any]
    exact Bool.eq_false_iff.mpr hnone
  obtain ⟨v, hv, -⟩ := hsound.terminal
  rw [validate_eq_some_iff.mpr ⟨hsound, hv⟩] at h
  cases h

/-- If validation finds an error, what it finds is told as it is. -/
theorem outcome_of_any_isError (h : (net.findings limits).any Finding.isError = true) :
    net.outcome overrides limits key
      = .error ((net.findings limits).map Finding.diagnostic) := by
  rw [outcome, prepare, if_pos h]

theorem outcome_of_validate_eq_none (h : net.validate limits = none) :
    net.outcome overrides limits key
      = .error ((net.findings limits).map Finding.diagnostic) :=
  outcome_of_any_isError (any_isError_of_validate_eq_none h)

theorem exists_prepare_of_validate (h : net.validate limits = some terminal) :
    ∃ output canvas values, (net.node terminal).kind = .terminal output canvas ∧
      net.evaluate = .ok values ∧
        net.prepare limits = .ok (net.preparedFor output canvas values limits) := by
  obtain ⟨hsound, hterminal⟩ := validate_eq_some_iff.mp h
  obtain ⟨values, hvalues⟩ := (hsound.accepted hterminal).evaluate
  cases hkind : (net.node terminal).kind with
  | terminal output canvas =>
    exact ⟨output, canvas, values, rfl, hvalues,
      prepare_eq_ok_iff_validate.mpr ⟨terminal, output, canvas, values, h, hkind, hvalues, rfl⟩⟩
  | _ =>
    rw [hkind] at hterminal
    cases hterminal

section Steps

variable {output : Output} {canvas : Canvas}
  (hkind : (net.node terminal).kind = .terminal output canvas)

include hkind

theorem settingsFor_eq :
    net.settingsFor terminal values overrides limits key
      = ⟨(net.preparedFor output canvas values limits).resolver overrides key,
          (net.preparedFor output canvas values limits).coverage, limits.instances⟩ := by
  rw [settingsFor, hkind]
  rfl

theorem foundBefore_eq :
    net.foundBefore limits (net.settingsFor terminal values overrides limits key)
      = (net.preparedFor output canvas values limits).found overrides key := by
  rw [settingsFor_eq hkind]
  rfl

/-- The guards of a validated network let every delivered token become what it becomes. -/
theorem castFor_eq (haccepted : net.Accepted terminal) :
    net.castFor limits (net.settingsFor terminal values overrides limits key)
      = (net.preparedFor output canvas values limits).stage overrides key := by
  rw [castFor, haccepted.materializeAll, foundBefore_eq hkind, settingsFor_eq hkind]
  rfl

end Steps

/-- A compilation that any of its steps may stop is the compilation. -/
theorem attempt_eq (net : Network) (overrides : Overrides) (limits : Limits)
    (key : Option String) :
    net.attempt overrides limits key = net.outcome overrides limits key := by
  cases hvalidate : net.validate limits with
  | none => rw [outcome_of_validate_eq_none hvalidate, attempt, hvalidate]
  | some terminal =>
    obtain ⟨hsound, hterminal⟩ := validate_eq_some_iff.mp hvalidate
    have haccepted := hsound.accepted hterminal
    obtain ⟨output, canvas, values, hkind, hvalues, hprepare⟩ :=
      exists_prepare_of_validate hvalidate
    have hassemble : ∀ cast, net.assemble? terminal cast = some (cast.scene output canvas) :=
      fun cast => by rw [assemble?, hkind]
    simp only [attempt, hvalidate, hvalues, outcome, hprepare, attemptRun, hassemble,
      castFor_eq hkind haccepted, foundBefore_eq hkind]
    rfl

/-! ### What an outcome tells -/

section Validated

variable {output : Output} {canvas : Canvas} (hvalidate : net.validate limits = some terminal)
  (hkind : (net.node terminal).kind = .terminal output canvas)
  (hvalues : net.evaluate = .ok values)

include hvalidate hkind hvalues

/-- What the phases of a validated network find. -/
theorem raised_eq (phase : Phase) :
    net.raised overrides limits key phase =
      let prepared := net.preparedFor output canvas values limits
      match phase with
      | .validation => net.findings limits
      | .evaluation => []
      | .walk => (prepared.flow overrides key).findings
      | .delivery =>
        net.deliveryFindings prepared.coverage (prepared.flow overrides key).delivered
      | .materialization => (prepared.stage overrides key).findings := by
  obtain ⟨hsound, hterminal⟩ := validate_eq_some_iff.mp hvalidate
  have hcast : net.castFor limits (net.settingsFor terminal values overrides limits key)
      = (net.preparedFor output canvas values limits).stage overrides key :=
    castFor_eq hkind (hsound.accepted hterminal)
  cases phase with
  | validation => rfl
  | evaluation => simp only [raised, hvalidate, hvalues]
  | walk | delivery =>
    simp only [raised, hvalidate, hvalues, settingsFor_eq hkind]
    rfl
  | materialization => simp only [raised, hvalidate, hvalues, hcast]

/-- The phases of a validated network find the errors that its run tells. -/
theorem exists_raised_isError_iff :
    (∃ phase, ∃ finding ∈ net.raised overrides limits key phase, finding.isError = true) ↔
      ((net.preparedFor output canvas values limits).told overrides key).any Finding.isError
        = true := by
  have hlate : ∀ finding ∈ (((net.preparedFor output canvas values limits).stage overrides
      key).scene output canvas).2, finding.isError = false := fun finding hfinding =>
    (Finding.gravity_eq_warning_iff finding).mp (noError_timeFindings _ _ finding hfinding)
  rw [List.any_eq_true]
  simp only [raised_eq hvalidate hkind hvalues]
  constructor
  · rintro ⟨phase, finding, hfinding, herror⟩
    refine ⟨finding, ?_, herror⟩
    simp only [Prepared.told, Prepared.found, List.mem_append]
    cases phase with
    | validation => exact .inl (.inl (.inl (.inl hfinding)))
    | evaluation => exact absurd hfinding List.not_mem_nil
    | walk => exact .inl (.inl (.inl (.inr hfinding)))
    | delivery => exact .inl (.inl (.inr hfinding))
    | materialization => exact .inl (.inr hfinding)
  · rintro ⟨finding, hfinding, herror⟩
    simp only [Prepared.told, Prepared.found, List.mem_append] at hfinding
    rcases hfinding with (((hfinding | hfinding) | hfinding) | hfinding) | hfinding
    · exact ⟨.validation, finding, hfinding, herror⟩
    · exact ⟨.walk, finding, hfinding, herror⟩
    · exact ⟨.delivery, finding, hfinding, herror⟩
    · exact ⟨.materialization, finding, hfinding, herror⟩
    · rw [hlate finding hfinding] at herror
      cases herror

end Validated

/-- A compilation fails just if some phase finds an error. -/
theorem exists_outcome_eq_error_iff :
    (∃ diagnostics, net.outcome overrides limits key = .error diagnostics) ↔
      ∃ phase, ∃ finding ∈ net.raised overrides limits key phase, finding.isError = true := by
  cases hvalidate : net.validate limits with
  | none =>
    obtain ⟨finding, hfinding, herror⟩ :=
      List.any_eq_true.mp (any_isError_of_validate_eq_none hvalidate)
    exact iff_of_true ⟨_, outcome_of_validate_eq_none hvalidate⟩
      ⟨.validation, finding, hfinding, herror⟩
  | some terminal =>
    obtain ⟨output, canvas, values, hkind, hvalues, hprepare⟩ :=
      exists_prepare_of_validate hvalidate
    rw [exists_raised_isError_iff hvalidate hkind hvalues, outcome, hprepare]
    dsimp only
    rw [Prepared.run_eq]
    split <;> simp_all

/-- How outcomes tell what has been found. A failure tells an error; behind validation it tells
everything once and the errors first. A scene comes with what validation has found, which is a
warning for each dangling edge, and all that it comes with is told once and is no error. A
compilation fails just if some phase finds an error, and it stops nowhere else, though its steps
might. -/
theorem outcome_tells (net : Network) (overrides : Overrides) (limits : Limits)
    (key : Option String) :
    (∀ diagnostics, net.outcome overrides limits key = .error diagnostics →
      (∃ d ∈ diagnostics, d.isError = true) ∧
        (net.validate limits ≠ none → diagnostics.Nodup ∧
          ∃ errors warnings, diagnostics = errors ++ warnings ∧
            (∀ d ∈ errors, d.isError = true) ∧ ∀ d ∈ warnings, d.isError = false)) ∧
      (∀ compilation, net.outcome overrides limits key = .ok compilation →
        (∀ d ∈ compilation.warnings, d.isError = false) ∧ compilation.warnings.Nodup ∧
          net.findings limits = net.dangling.map .dangling ∧
          ∀ finding ∈ net.findings limits, finding.diagnostic ∈ compilation.warnings) ∧
      ((∃ diagnostics, net.outcome overrides limits key = .error diagnostics) ↔
        ∃ phase, ∃ finding ∈ net.raised overrides limits key phase, finding.isError = true) ∧
      net.attempt overrides limits key = net.outcome overrides limits key := by
  refine ⟨fun diagnostics herror => ?_, fun compilation hok => ?_, exists_outcome_eq_error_iff,
    attempt_eq net overrides limits key⟩
  · cases hvalidate : net.validate limits with
    | none =>
      rw [outcome_of_validate_eq_none hvalidate] at herror
      obtain ⟨finding, hfinding, hgrave⟩ :=
        List.any_eq_true.mp (any_isError_of_validate_eq_none hvalidate)
      refine ⟨⟨finding.diagnostic, ?_, hgrave⟩, fun h => absurd rfl h⟩
      rw [← Except.error.inj herror]
      exact List.mem_map_of_mem hfinding
    | some terminal =>
      obtain ⟨output, canvas, values, hkind, hvalues, hprepare⟩ :=
        exists_prepare_of_validate hvalidate
      rw [outcome, hprepare] at herror
      exact (Prepared.error_tells herror).imp_right fun htells _ => htells
  · obtain ⟨prepared, hprepare, hrun⟩ := outcome_eq_ok_iff.mp hok
    obtain ⟨hsound, output, canvas, values, -, -, rfl⟩ := prepare_eq_ok_iff.mp hprepare
    obtain ⟨hnoError, hnodup, hmem⟩ := Prepared.ok_tells hrun
    exact ⟨hnoError, hnodup, hsound.findings_eq, hmem⟩

end Network

/-- The edge `e2` leads from the circle `a` to a node that does not exist. -/
def looseEdge : DanglingEdge :=
  ⟨⟨⟨"e2"⟩, ⟨"a"⟩, ⟨""⟩, ⟨"x"⟩, ⟨""⟩⟩, .unknownTarget⟩

/-- The circle `a` goes straight to the terminal, which may ask for an insert node on its way. Two
edges with one name are dangling. -/
def looseEnds (requireInsert : Bool) : Network :=
  .ofLinks
    #[⟨⟨"a"⟩, "", .geometry .plainCircle⟩,
      ⟨⟨"s"⟩, "", .terminal .video { Canvas.small with requireInsert }⟩]
    [⟨⟨⟨"e1"⟩, ⟨"a"⟩, ⟨""⟩, ⟨"s"⟩, ⟨""⟩⟩, 0, 1⟩]
    [looseEdge, looseEdge] ⟨0, 0⟩

/-- Two dangling edges that are told alike are told once, with a scene and without. -/
theorem outcome_tells_looseEnds :
    (∃ compilation, (looseEnds false).outcome .empty .standard none = .ok compilation ∧
      compilation.warnings.Nodup ∧ (Finding.dangling looseEdge).diagnostic ∈ compilation.warnings) ∧
      ∃ diagnostics, (looseEnds true).outcome .empty .standard none = .error diagnostics ∧
        diagnostics.Nodup ∧ ∃ d ∈ diagnostics, d.isError = true := by
  constructor
  · obtain ⟨compilation, hok⟩ : ∃ compilation,
        (looseEnds false).outcome .empty .standard none = .ok compilation :=
      Network.exists_outcome_eq_ok (by decide +kernel)
    obtain ⟨-, hscene, -⟩ := Network.outcome_tells (looseEnds false) .empty .standard none
    obtain ⟨-, hnodup, hfindings, hmem⟩ := hscene compilation hok
    refine ⟨compilation, hok, hnodup, hmem _ ?_⟩
    rw [hfindings]
    exact List.mem_map_of_mem List.mem_cons_self
  · obtain ⟨hfailure, -, hraised, -⟩ := Network.outcome_tells (looseEnds true) .empty .standard none
    have hdelivery : ((looseEnds true).raised .empty .standard none .delivery).any Finding.isError
        = true := by decide +kernel
    obtain ⟨finding, hfinding, herror⟩ := List.any_eq_true.mp hdelivery
    obtain ⟨diagnostics, hdiagnostics⟩ := hraised.mpr ⟨.delivery, finding, hfinding, herror⟩
    obtain ⟨hsome, htells⟩ := hfailure diagnostics hdiagnostics
    have hvalidate : (looseEnds true).validate .standard ≠ none := by decide +kernel
    exact ⟨diagnostics, hdiagnostics, (htells hvalidate).1, hsome⟩

end SceneFlow
