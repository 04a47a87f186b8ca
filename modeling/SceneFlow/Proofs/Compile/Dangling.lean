import SceneFlow.Proofs.Compile.DeadEnds
import SceneFlow.Proofs.Compile.Reporting
import SceneFlow.Proofs.Graph.Dangling

/-!
# Compilations without dangling edges

Validation warns of every dangling edge, and no other step of a compilation looks at dangling edges.
So a graph compiles like the graph without its dangling edges, with the same scene or the same
errors; only the warnings are told besides, in one place among the other diagnostics.

## Main definitions

* `Amid`: some diagnostics are told in one place among others.
* `Outcome.TellsMore`: outcomes that are alike but for some diagnostics.

## Main results

* `Network.tellsMore_withoutDangling`: how the outcomes of a network with its dangling edges and
  without them differ.
* `Network.dangling_edges_only_warn`: dangling edges have no effect but their warnings.
-/

namespace SceneFlow

/-! ### Diagnostics among others -/

/-- Some diagnostics are told in one place among others, and are none of these. -/
def Amid (more list others : List Diagnostic) : Prop :=
  (∀ d ∈ others, d ∉ more) ∧
    ∃ before behind, list = before ++ more ++ behind ∧ others = before ++ behind

/-- What is told once of diagnostics and of others. -/
theorem amid_distinct {more others : List Diagnostic} (h : ∀ d ∈ others, d ∉ more) :
    Amid (distinct Diagnostic.message more) (distinct Diagnostic.message (more ++ others))
      (distinct Diagnostic.message others) := by
  rw [distinct_append h]
  exact ⟨fun d hd hmore => h d (mem_distinct.mp hd) (mem_distinct.mp hmore), [], _, rfl, rfl⟩

/-- Warnings that are told in one place are still told in one place behind the errors. -/
theorem Amid.errorsFirst {more list others : List Diagnostic} (h : Amid more list others)
    (hwarnings : ∀ d ∈ more, d.isError = false) :
    Amid more (Diagnostic.errorsFirst list) (Diagnostic.errorsFirst others) := by
  obtain ⟨hnone, before, behind, rfl, rfl⟩ := h
  have hmore : more.filter Diagnostic.isError = [] :=
    List.filter_eq_nil_iff.mpr fun d hd => by simp [hwarnings d hd]
  have hmore' : (more.filter fun d => !d.isError) = more :=
    List.filter_eq_self.mpr fun d hd => by simp [hwarnings d hd]
  refine ⟨fun d hd => hnone d (mem_errorsFirst.mp hd),
    before.filter Diagnostic.isError ++ behind.filter Diagnostic.isError
      ++ before.filter (fun d => !d.isError), behind.filter fun d => !d.isError, ?_, ?_⟩
  · simp only [Diagnostic.errorsFirst, List.filter_append, hmore, hmore', List.nil_append,
      List.append_assoc]
  · simp only [Diagnostic.errorsFirst, List.filter_append, List.append_assoc]

/-- An outcome has the same scene as another one, or like this has none, and tells some diagnostics
besides. -/
def Outcome.TellsMore (more : List Diagnostic) : Outcome → Outcome → Prop
  | .ok compilation, .ok other =>
    compilation.scene = other.scene ∧ Amid more compilation.warnings other.warnings
  | .error diagnostics, .error others => Amid more diagnostics others
  | _, _ => False

/-! ### Findings about dangling edges -/

theorem Finding.noError_map_dangling (edges : List DanglingEdge) :
    NoError (edges.map .dangling) := by
  intro finding hfinding
  obtain ⟨_, -, rfl⟩ := List.mem_map.mp hfinding
  rfl

/-- Only findings about dangling edges are told like them. -/
theorem Finding.eq_dangling_of_diagnostic_eq {finding : Finding} {edge : DanglingEdge}
    (h : finding.diagnostic = (dangling edge).diagnostic) : ∃ other, finding = .dangling other := by
  have hseverity := congrArg Diagnostic.severity h
  have hsuggestions := congrArg Diagnostic.suggestions h
  cases finding with
  | dangling other => exact ⟨other, rfl⟩
  | repeatedDelivery _ _ _ _ => cases hseverity
  | _ => simp [diagnostic, error, StaleBinding.diagnostic] at hsuggestions

namespace Network

variable {net : Network} {limits : Limits} {edge : DanglingEdge}

/-- The warnings of the dangling edges, in the order of the names of the edges. -/
def danglingWarnings (net : Network) : List Diagnostic :=
  net.dangling.map fun edge => (Finding.dangling edge).diagnostic

/-- Diagnostics of other findings are no warnings of dangling edges. -/
theorem notMem_danglingWarnings {findings : List Finding}
    (h : ∀ edge, Finding.dangling edge ∉ findings) :
    ∀ d ∈ findings.map Finding.diagnostic, d ∉ net.danglingWarnings := by
  intro d hd hwarning
  obtain ⟨finding, hfinding, rfl⟩ := List.mem_map.mp hd
  obtain ⟨edge, -, heq⟩ := List.mem_map.mp hwarning
  obtain ⟨other, rfl⟩ := Finding.eq_dangling_of_diagnostic_eq heq.symm
  exact h other hfinding

theorem mem_dangling_of_mem_findings (h : .dangling edge ∈ net.findings limits) :
    edge ∈ net.dangling := by
  obtain ⟨other, hother, heq⟩ := eq_dangling_of_mem_findings h rfl
  rwa [Finding.dangling.inj heq]

/-- Nothing that is found on the way of objects is about a dangling edge. -/
theorem dangling_notMem_findings_flow (settings : FlowSettings) :
    .dangling edge ∉ (net.flow settings).findings := by
  intro h
  cases isOfFlow_of_mem_findings_flow h

end Network

/-- Behind validation nothing is found about dangling edges. -/
theorem Prepared.dangling_notMem_told {prepared : Prepared} {overrides : Overrides}
    {key : Option String} {edge : DanglingEdge} (h : prepared.findings = []) :
    .dangling edge ∉ prepared.told overrides key := by
  intro hmem
  obtain hmem | hmem | hmem | ⟨_, _, _, _, heq⟩ | ⟨_, heq⟩ | ⟨_, _, _, heq⟩ | ⟨_, heq⟩ |
    ⟨_, _, heq⟩ := cases_of_mem_told hmem
  · exact List.not_mem_nil (h ▸ hmem)
  · exact Network.dangling_notMem_findings_flow _ hmem
  · obtain ⟨_, -, heq⟩ := List.mem_map.mp hmem
    cases heq
  all_goals cases heq

/-! ### Validation -/

namespace Network

variable (net : Network) (fingerprint : Fingerprint) {limits : Limits}

/-- Validation finds the dangling edges in one place among what else it finds. -/
theorem exists_findings_eq (hsize : net.size ≤ limits.nodes) :
    ∃ before behind,
      net.findings limits = before ++ net.dangling.map .dangling ++ behind ∧
        (net.withoutDangling fingerprint).findings limits = before ++ behind := by
  refine ⟨net.terminalFindings ++ net.idFindings ++ net.nodeList.flatMap (nodeFindings limits)
      ++ net.nameFindings,
    (net.links.filterMap fun link => (net.refusal? link).map fun refusal =>
      .refused link.edge.id (net.id link.source) (net.id link.target) refusal)
      ++ net.findCycle?.toList.map .cycle, ?_, ?_⟩
  · rw [findings, if_neg (Nat.not_lt.mpr hsize), edgeFindings]
    simp only [List.append_assoc]
  · rw [findings, if_neg (Nat.not_lt.mpr hsize), edgeFindings, List.map_nil, List.nil_append,
      List.append_assoc]
    rfl

theorem any_isError_findings_withoutDangling (hsize : net.size ≤ limits.nodes) :
    ((net.withoutDangling fingerprint).findings limits).any Finding.isError
      = (net.findings limits).any Finding.isError := by
  obtain ⟨before, behind, hfindings, hother⟩ := net.exists_findings_eq fingerprint hsize
  rw [hfindings, hother, List.any_append, List.any_append, List.any_append,
    (Finding.noError_iff_any _).mp (Finding.noError_map_dangling _), Bool.or_false]

end Network

/-! ### Behind validation -/

theorem Network.deliveryFindings_withoutDangling (net : Network) (fingerprint : Fingerprint)
    (coverage : Severity) (delivered : List Token) :
    (net.withoutDangling fingerprint).deliveryFindings coverage delivered
      = net.deliveryFindings coverage delivered := by
  have hbranch := (net.sameAnswers_withoutDangling fingerprint).branch
  have hclaims : (net.withoutDangling fingerprint).claims = net.claims := by
    rw [claims, claims]
    simp only [hbranch]
    rfl
  rw [deliveryFindings, deliveryFindings, repeatedDeliveries, repeatedDeliveries, hclaims]

namespace Prepared

variable (prepared : Prepared) (fingerprint : Fingerprint) {overrides : Overrides}
  {key : Option String}

/-- What is prepared if dangling edges are left out. -/
abbrev withoutDangling : Prepared :=
  { prepared with network := prepared.network.withoutDangling fingerprint, findings := [] }

theorem found_withoutDangling :
    prepared.found overrides key
      = prepared.findings ++ (prepared.withoutDangling fingerprint).found overrides key := by
  rw [found, found, Network.deliveryFindings_withoutDangling, List.nil_append, List.append_assoc]
  rfl

theorem stage_withoutDangling (h : Finding.NoError prepared.findings) :
    prepared.stage overrides key
      = (prepared.withoutDangling fingerprint).stage overrides key := by
  rw [stage, stage, prepared.found_withoutDangling fingerprint, List.any_append,
    (Finding.noError_iff_any _).mp h, Bool.false_or]
  rfl

theorem told_withoutDangling (h : Finding.NoError prepared.findings) :
    prepared.told overrides key
      = prepared.findings ++ (prepared.withoutDangling fingerprint).told overrides key := by
  rw [told, told, prepared.stage_withoutDangling fingerprint h,
    prepared.found_withoutDangling fingerprint]
  simp only [List.append_assoc]

/-- A run tells the warnings of dangling edges once, and otherwise does as it does without them. -/
theorem tellsMore_run (h : prepared.findings = prepared.network.dangling.map .dangling) :
    Outcome.TellsMore (distinct Diagnostic.message prepared.network.danglingWarnings)
      (prepared.run overrides key)
      ((prepared.withoutDangling fingerprint).run overrides key) := by
  have hwarnings :
      prepared.findings.map Finding.diagnostic = prepared.network.danglingWarnings := by
    rw [h, List.map_map]
    rfl
  have hnoError : Finding.NoError prepared.findings := h ▸ Finding.noError_map_dangling _
  have hapart : ∀ d ∈ ((prepared.withoutDangling fingerprint).told overrides key).map
      Finding.diagnostic, d ∉ prepared.network.danglingWarnings :=
    Network.notMem_danglingWarnings fun _ => dangling_notMem_told rfl
  rw [run_eq, run_eq, prepared.told_withoutDangling fingerprint hnoError, List.map_append,
    hwarnings, List.any_append, (Finding.noError_iff_any _).mp hnoError, Bool.false_or,
    prepared.stage_withoutDangling fingerprint hnoError]
  split
  · refine (amid_distinct hapart).errorsFirst fun d hd => ?_
    obtain ⟨_, -, rfl⟩ := List.mem_map.mp (mem_distinct.mp hd)
    rfl
  · exact ⟨rfl, amid_distinct hapart⟩

end Prepared

namespace Network

variable {graph : Graph} {net : Network} {overrides : Overrides} {limits : Limits}
  {key : Option String}

/-- The warnings of dangling edges as they are told: where validation fails all of them, and behind
it each once. -/
def toldWarnings (net : Network) (limits : Limits) : List Diagnostic :=
  if (net.findings limits).any Finding.isError then net.danglingWarnings
  else distinct Diagnostic.message net.danglingWarnings

/-- A network has the same outcome without its dangling edges, but for the warnings of these. -/
theorem tellsMore_withoutDangling (fingerprint : Fingerprint) (hsize : net.size ≤ limits.nodes) :
    Outcome.TellsMore (net.toldWarnings limits) (net.outcome overrides limits key)
      ((net.withoutDangling fingerprint).outcome overrides limits key) := by
  have hany := net.any_isError_findings_withoutDangling fingerprint hsize
  rw [toldWarnings]
  split
  · rename_i herror
    rw [outcome_of_any_isError herror, outcome_of_any_isError (hany.trans herror)]
    have hapart : ∀ d ∈ ((net.withoutDangling fingerprint).findings limits).map
        Finding.diagnostic, d ∉ net.danglingWarnings :=
      notMem_danglingWarnings fun _ hedge => List.not_mem_nil (mem_dangling_of_mem_findings hedge)
    obtain ⟨before, behind, hfindings, hother⟩ := net.exists_findings_eq fingerprint hsize
    refine ⟨hapart, before.map Finding.diagnostic, behind.map Finding.diagnostic, ?_, ?_⟩
    · rw [hfindings, List.map_append, List.map_append, List.map_map]
      rfl
    · rw [hother, List.map_append]
  · rename_i hnone
    have hsound : Sound limits net := by
      rw [← sound_iff, Finding.noError_iff_any]
      exact Bool.eq_false_iff.mpr hnone
    have hsound' : Sound limits (net.withoutDangling fingerprint) := by
      rw [← sound_iff, Finding.noError_iff_any, hany]
      exact Bool.eq_false_iff.mpr hnone
    obtain ⟨v, output, canvas, hkind, -, hterminal⟩ := hsound.exists_terminal
    obtain ⟨values, hvalues⟩ := (hsound.accepted (by rw [hkind]; rfl)).evaluate
    let prepared := net.preparedFor output canvas values limits
    have hprepare : net.prepare limits = .ok prepared :=
      prepare_eq_ok_iff.mpr ⟨hsound, output, canvas, values, hterminal, hvalues, rfl⟩
    have hprepare' : (net.withoutDangling fingerprint).prepare limits
        = .ok (prepared.withoutDangling fingerprint) :=
      prepare_eq_ok_iff.mpr ⟨hsound', output, canvas, values, hterminal,
        (net.evaluate_withoutDangling fingerprint).trans hvalues, by
          rw [hsound'.findings_eq]
          rfl⟩
    rw [outcome, outcome, hprepare, hprepare']
    exact prepared.tellsMore_run fingerprint hsound.findings_eq

/-- A network that is too large is rejected, whatever its edges. -/
theorem outcome_withoutDangling (fingerprint : Fingerprint) (hsize : limits.nodes < net.size) :
    (net.withoutDangling fingerprint).outcome overrides limits key
      = net.outcome overrides limits key := by
  have hfindings : net.findings limits = [.tooManyNodes net.size limits.nodes] := by
    rw [findings, if_pos hsize]
  have hfindings' : (net.withoutDangling fingerprint).findings limits = net.findings limits := by
    rw [findings, if_pos hsize, hfindings]
  have herror : (net.findings limits).any Finding.isError = true := by
    rw [hfindings]
    rfl
  rw [outcome_of_any_isError herror, outcome_of_any_isError (by rwa [hfindings']), hfindings']

/-- Dangling edges have no effect but their warnings. Every edge of a graph is attached or dangling,
and it is attached just if the nodes that it names are there and, if it enters a merge node, this
has the port. The graph without its dangling edges has a network too, which has the same answers,
and the same outcomes with any overrides and limits, except that the warnings of dangling edges are
told besides, unless the graph is too large to be looked at. -/
theorem dangling_edges_only_warn (h : ofGraph graph = .ok net) :
    (∀ edge ∈ graph.edges,
      Xor (edge ∈ net.links.map Link.edge) (edge ∈ net.dangling.map DanglingEdge.edge) ∧
        (edge ∈ net.links.map Link.edge ↔ graph.Attaches edge)) ∧
      (net.links.map Link.edge ++ net.dangling.map DanglingEdge.edge).Perm graph.edges ∧
      ∃ rest, ofGraph (graph.dropEdges (net.dangling.map DanglingEdge.edge)) = .ok rest ∧
        rest.dangling = [] ∧ net.SameAnswers rest ∧
        ∀ overrides limits key,
          if limits.nodes < net.size then
            net.outcome overrides limits key = rest.outcome overrides limits key
          else
            Outcome.TellsMore (net.toldWarnings limits) (net.outcome overrides limits key)
              (rest.outcome overrides limits key) := by
  refine ⟨fun edge hedge => ?_, map_edge_append_perm h, _, ofGraph_dropEdges h, rfl,
    sameAnswers_withoutDangling _ _, fun overrides limits key => ?_⟩
  · exact ⟨xor_mem_map_edge h hedge, mem_map_edge_links_iff h hedge⟩
  · split
    · rename_i hsize
      exact (outcome_withoutDangling _ hsize).symm
    · rename_i hsize
      exact tellsMore_withoutDangling _ (Nat.not_lt.mp hsize)

end Network

/-- The edge `e2` leads to an input port that the merge node `m` no longer has. -/
def staleEdge : Edge :=
  .input "e2" "b" "m" "input-1"

/-- The circles `a` and `b` lead to the merge node `m`, which has been shrunk to one input port. -/
def shrunkMerge : Graph where
  nodes :=
    [.circle "a", .circle "b", .small "m" "merge" [("input_count", .small 1)],
      .small "s" "scene" [("height", .small 10), ("width", .small 10)]]
  edges := [.input "e1" "a" "m" "input-0", staleEdge, .plain "e3" "m" "s"]

/-- Without the edge to the port that is gone there is the same scene, and no warning of it. -/
theorem dangling_edges_only_warn_shrunkMerge :
    ∃ net rest compilation other, Network.ofGraph shrunkMerge = .ok net ∧
      Network.ofGraph (shrunkMerge.dropEdges [staleEdge]) = .ok rest ∧
        net.compile .empty .standard = .ok compilation ∧
        rest.compile .empty .standard = .ok other ∧ compilation.scene = other.scene ∧
          Amid [(Finding.dangling ⟨staleEdge, .invalidPort ⟨"input-1"⟩⟩).diagnostic]
            compilation.warnings other.warnings := by
  obtain ⟨net, hnet, hseen⟩ := exists_ofGraph_of_sorted shrunkMerge
    (fun net => decide (net.dangling = [⟨staleEdge, .invalidPort ⟨"input-1"⟩⟩]) &&
      decide (net.size = 4) && !(net.findings .standard).any Finding.isError &&
        (net.prepare .standard).toOption.any fun prepared => prepared.succeeds .empty none && true)
    (by decide +kernel) (by decide +kernel)
  simp only [Bool.and_eq_true, decide_eq_true_iff, Bool.not_eq_true'] at hseen
  obtain ⟨⟨⟨hdangling, hsize⟩, hfindings⟩, hsucceeds⟩ := hseen
  obtain ⟨prepared, compilation, hprepare, hrun, -⟩ :=
    Prepared.exists_run_eq_ok net .standard .empty none (fun _ => true) hsucceeds
  have hcompilation : net.outcome .empty .standard none = .ok compilation :=
    Network.outcome_eq_ok_iff.mpr ⟨prepared, hprepare, hrun⟩
  obtain ⟨-, -, rest, hrest, -, -, houtcome⟩ := Network.dangling_edges_only_warn hnet
  have htells := houtcome .empty .standard none
  rw [if_neg (by rw [hsize]; decide), Network.toldWarnings, if_neg (by simp [hfindings]),
    Network.danglingWarnings, hdangling, hcompilation] at htells
  cases hother : rest.outcome .empty .standard none with
  | error diagnostics =>
    rw [hother] at htells
    exact htells.elim
  | ok other =>
    rw [hother] at htells
    rw [hdangling] at hrest
    exact ⟨net, rest, compilation, other, hnet, hrest, hcompilation, hother, htells⟩

end SceneFlow
