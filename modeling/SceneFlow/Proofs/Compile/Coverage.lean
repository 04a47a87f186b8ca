import Mathlib
import SceneFlow.Proofs.Compile.DeadEnds
import SceneFlow.Proofs.Compile.WellFormed
import SceneFlow.Proofs.Graph.Requiring

/-!
# Objects that pass no insert node

An object that is delivered without an insert node on its way has no time at which it is inserted,
and this is reported. So is a drawable node that nothing leads on from. The terminal decides how
grave these reports are, and decides nothing else: if it requires insert nodes, a scene is refused
exactly if there are such reports, and stays as it is if there are none.

## Main definitions

* `Finding.isCoverage`: the findings that tell of a missing insert node.
* `Finding.regrade`: the finding with another severity, if it is one of these.
* `Compilation.WarnsUninserted`: the compilation warns that an object passes no insert node.

## Main results

* `Network.flow_regrade`: a flow differs only in how grave these findings are.
* `Prepared.warnsUninserted_iff`: a compilation warns exactly of the objects that have no time.
* `Network.outcome_requiring_true_iff`: a terminal that requires insert nodes only refuses.
* `Network.coverage_of_outcome`: both together.
-/

namespace SceneFlow

/-! ### Findings that tell of a missing insert node -/

namespace Finding

/-- Whether a finding tells of a missing insert node. -/
def isCoverage : Finding → Bool
  | unconnected _ _ | notInserted _ _ _ => true
  | _ => false

/-- The finding with another severity, if it tells of a missing insert node. -/
def regrade (severity : Severity) : Finding → Finding
  | unconnected id _ => unconnected id severity
  | notInserted object origin _ => notInserted object origin severity
  | finding => finding

variable {finding : Finding} {severity : Severity}

theorem code_eq_missingInsertConnection_iff :
    finding.diagnostic.code = .missingInsertConnection ↔ finding.isCoverage = true := by
  cases finding with
  | unresolved cause => cases cause <;> simp [diagnostic, error, QueryError.code, isCoverage]
  | _ => simp [diagnostic, error, StaleBinding.diagnostic, isCoverage]

theorem isOfWay_of_isCoverage (h : finding.isCoverage = true) : finding.isOfWay = true := by
  cases finding <;> simp [isCoverage] at h <;> rfl

theorem regrade_of_isCoverage_eq_false (h : finding.isCoverage = false) :
    finding.regrade severity = finding := by
  cases finding <;> simp [isCoverage] at h <;> rfl

@[simp]
theorem isCoverage_regrade : (finding.regrade severity).isCoverage = finding.isCoverage := by
  cases finding <;> rfl

theorem gravity_regrade (h : finding.isCoverage = true) :
    (finding.regrade severity).gravity = severity := by
  cases finding <;> simp [isCoverage] at h <;> rfl

theorem isCoverage_of_mem_pass {node : Node} {settings : FlowSettings} {created : ℕ}
    {tokens : List Token} (h : finding ∈ (node.pass settings created tokens).findings) :
    finding.isCoverage = false :=
  Bool.eq_false_iff.mpr fun hcoverage =>
    Bool.false_ne_true ((Node.isOfWay_of_mem_pass h).symm.trans (isOfWay_of_isCoverage hcoverage))

theorem map_regrade_eq_self {findings : List Finding}
    (h : ∀ finding ∈ findings, finding.isCoverage = false) :
    findings.map (regrade severity) = findings :=
  (List.map_congr_left fun finding hfinding =>
    regrade_of_isCoverage_eq_false (h finding hfinding)).trans (List.map_id findings)

end Finding

/-! ### Flows -/

/-- The flow when missing insert nodes have another severity. -/
def Flow.regrade {n : ℕ} (severity : Severity) (flow : Flow n) : Flow n :=
  { flow with findings := flow.findings.map (Finding.regrade severity) }

/-- The flow between other places. -/
def Flow.along {n m : ℕ} (place : Fin n → Fin m) (flow : Flow n) : Flow m :=
  { flow with sent := flow.sent.map fun parcel => (place parcel.1, parcel.2) }

theorem Flow.arrived_along {n m : ℕ} {place : Fin n → Fin m} (hplace : Function.Injective place)
    (flow : Flow n) (v : Fin n) : (flow.along place).arrived (place v) = flow.arrived v := by
  rw [arrived, along, List.filter_map, List.flatMap_map, arrived]
  refine congrArg _ (List.filter_congr fun parcel _ => ?_)
  simp [hplace.eq_iff]

namespace Node

variable (node : Node) (settings : FlowSettings) (created : ℕ) (tokens : List Token)

theorem map_regrade_deadEnds (severity severity' : Severity) :
    (node.deadEnds severity tokens).map (Finding.regrade severity') =
      node.deadEnds severity' tokens := by
  rw [deadEnds, deadEnds]
  split
  · rfl
  · split
    · rfl
    · rw [List.map_map]
      rfl

theorem pass_requiring (b : Bool) :
    (node.requiring b).pass settings created tokens = node.pass settings created tokens := by
  obtain ⟨_, _, kind⟩ := node
  cases kind <;> rfl

theorem deadEnds_requiring (b : Bool) (severity : Severity) :
    (node.requiring b).deadEnds severity tokens = node.deadEnds severity tokens := by
  simp [deadEnds, requiring]

end Node

namespace Network

variable (net : Network)

/-- The turn of a node does the same, whatever the severity of missing insert nodes. -/
theorem turn_regrade (resolver : Resolver) (severity severity' : Severity) (limit : ℕ)
    (flow : Flow net.size) (v : Fin net.size) :
    net.turn ⟨resolver, severity', limit⟩ (flow.regrade severity') v =
      (net.turn ⟨resolver, severity, limit⟩ flow v).regrade severity' := by
  have hpass : ∀ created tokens, (net.node v).pass ⟨resolver, severity', limit⟩ created tokens =
      (net.node v).pass ⟨resolver, severity, limit⟩ created tokens := fun _ _ => rfl
  have harrived : (flow.regrade severity').arrived v = flow.arrived v := rfl
  rw [turn, turn]
  dsimp only
  rw [hpass, harrived]
  split
  · simp [Flow.regrade, Finding.regrade]
  · simp only [Flow.regrade, List.map_append, Flow.mk.injEq, true_and]
    rw [Finding.map_regrade_eq_self fun _ => Finding.isCoverage_of_mem_pass]
    refine congrArg _ ?_
    split
    · exact (Node.map_regrade_deadEnds _ _ _ _).symm
    · rfl

/-- A flow differs only in how grave missing insert nodes are. -/
theorem flow_regrade (resolver : Resolver) (severity severity' : Severity) (limit : ℕ) :
    net.flow ⟨resolver, severity', limit⟩ =
      (net.flow ⟨resolver, severity, limit⟩).regrade severity' := by
  have hstart : Flow.start net.size = (Flow.start net.size).regrade severity' := rfl
  rw [flow, flow, hstart]
  exact List.foldl_hom (Flow.regrade severity')
    (net.turn_regrade resolver severity severity' limit)

theorem map_regrade_uninserted (severity severity' : Severity) (delivered : List Token) :
    (uninserted severity delivered).map (Finding.regrade severity') =
      uninserted severity' delivered := by
  rw [uninserted, uninserted, List.map_map]
  rfl

/-- The turn of a node does the same if terminals require insert nodes or do not. -/
theorem turn_counterpart (b : Bool) (settings : FlowSettings) (flow : Flow net.size)
    (v : Fin net.size) :
    (net.requiring b).turn settings (flow.along (net.counterpart b)) (net.counterpart b v) =
      (net.turn settings flow v).along (net.counterpart b) := by
  rw [turn, turn, node_counterpart, objectsBehind_counterpart,
    Flow.arrived_along (net.counterpart_injective b)]
  dsimp only
  rw [Node.pass_requiring, Node.deadEnds_requiring]
  simp only [Node.requiring, NodeKind.isMerge_requiring, List.isEmpty_map]
  split
  · rfl
  · simp [Flow.along]

/-- The flow is the same if terminals require insert nodes or do not. -/
theorem flow_requiring (b : Bool) (settings : FlowSettings) :
    (net.requiring b).flow settings = (net.flow settings).along (net.counterpart b) := by
  have hstart : Flow.start (net.requiring b).size =
      (Flow.start net.size).along (net.counterpart b) := rfl
  rw [flow, flow, objectOrder_requiring, List.foldl_map, hstart]
  exact List.foldl_hom (Flow.along (net.counterpart b)) (net.turn_counterpart b settings)

/-- Of the way of objects a flow finds only dead ends. -/
theorem isDeadEnd_of_mem_findings_flow {settings : FlowSettings} (finding : Finding)
    (h : finding ∈ (net.flow settings).findings) (hway : finding.isOfWay = true) :
    finding.isDeadEnd = true := by
  have hflow := isOfFlow_of_mem_findings_flow h
  cases finding <;>
    first | rfl | exact absurd hway Bool.false_ne_true | exact absurd hflow Bool.false_ne_true

end Network

theorem Network.repeatedDeliveries_eq_nil (net : Network) {delivered : List Token}
    (h : (delivered.map Token.name).Nodup) : net.repeatedDeliveries delivered = [] := by
  refine List.eq_nil_iff_forall_not_mem.mpr fun finding hfinding => ?_
  have hwarning := (noError_repeatedDeliveries_iff net delivered).mpr h finding hfinding
  obtain ⟨_, -, rfl⟩ := (mem_repeatedDeliveries_iff _ _ _).mp hfinding
  cases hwarning

/-! ### Runs -/

namespace Prepared

/-- What is prepared if the terminal requires insert nodes, or does not. -/
def requiring (b : Bool) (prepared : Prepared) : Prepared :=
  { prepared with
    network := prepared.network.requiring b
    canvas := { prepared.canvas with requireInsert := b } }

variable {net : Network} {limits : Limits} {prepared : Prepared} {overrides : Overrides}
  {key : Option String} {compilation : Compilation} {finding : Finding} (b : Bool)

theorem prepare_requiring (h : net.prepare limits = .ok prepared) :
    (net.requiring b).prepare limits = .ok (prepared.requiring b) := by
  rw [Network.prepare_requiring, h, requiring, Network.network_of_prepare h]
  rfl

/-- Validation finds no missing insert node. -/
theorem isCoverage_of_mem_findings (h : net.prepare limits = .ok prepared)
    (hfinding : finding ∈ prepared.findings) : finding.isCoverage = false := by
  have hwarning := (Network.sound_of_prepare h).2 finding hfinding
  obtain ⟨-, _, _, _, -, -, rfl⟩ := Network.prepare_eq_ok_iff.mp h
  obtain ⟨_, -, rfl⟩ := Network.eq_dangling_of_mem_findings hfinding hwarning
  rfl

theorem flow_requiring (prepared : Prepared) (overrides : Overrides) (key : Option String) :
    (prepared.requiring b).flow overrides key =
      ((prepared.flow overrides key).regrade (prepared.requiring b).coverage).along
        (prepared.network.counterpart b) := by
  rw [flow, flow, ← Network.flow_regrade]
  exact prepared.network.flow_requiring b _

/-- If no object is delivered twice, what is found differs only in how grave missing insert nodes
are. -/
theorem found_requiring (h : net.prepare limits = .ok prepared)
    (hnames : ((prepared.flow overrides key).delivered.map Token.name).Nodup) :
    (prepared.requiring b).found overrides key =
      (prepared.found overrides key).map (Finding.regrade (prepared.requiring b).coverage) := by
  have hdelivered : ((prepared.requiring b).flow overrides key).delivered =
      (prepared.flow overrides key).delivered := by
    rw [flow_requiring]
    rfl
  have hfindings : ((prepared.requiring b).flow overrides key).findings =
      (prepared.flow overrides key).findings.map
        (Finding.regrade (prepared.requiring b).coverage) := by
    rw [flow_requiring]
    rfl
  have hprepared : (prepared.requiring b).findings = prepared.findings := rfl
  rw [found, found, Network.deliveryFindings, Network.deliveryFindings, hdelivered, hfindings,
    Network.repeatedDeliveries_eq_nil _ hnames, Network.repeatedDeliveries_eq_nil _ hnames,
    hprepared, List.nil_append, List.nil_append, List.map_append, List.map_append,
    Network.map_regrade_uninserted,
    Finding.map_regrade_eq_self fun _ => isCoverage_of_mem_findings h]

/-- If no object is delivered twice or passes no insert node, it makes no difference whether the
terminal requires insert nodes. -/
theorem run_requiring (h : net.prepare limits = .ok prepared)
    (hnames : ((prepared.flow overrides key).delivered.map Token.name).Nodup)
    (hclear : ∀ finding ∈ prepared.found overrides key, finding.isCoverage = false) :
    (prepared.requiring b).run overrides key = prepared.run overrides key := by
  have hfound : (prepared.requiring b).found overrides key = prepared.found overrides key := by
    rw [found_requiring b h hnames, Finding.map_regrade_eq_self hclear]
  have hcast : (prepared.requiring b).cast overrides key = prepared.cast overrides key := by
    rw [cast, cast, flow_requiring]
    rfl
  have hstage : (prepared.requiring b).stage overrides key = prepared.stage overrides key := by
    rw [stage, stage, hfound, hcast]
  have htold : (prepared.requiring b).told overrides key = prepared.told overrides key := by
    rw [told, told, hfound, hstage]
    rfl
  rw [run_eq, run_eq, htold, hstage]
  rfl

/-- Where there is a scene, no object is delivered twice. -/
theorem nodup_delivered_of_requiring
    (hrun : (prepared.requiring b).run overrides key = .ok compilation) :
    ((prepared.flow overrides key).delivered.map Token.name).Nodup := by
  have hnames := ((noError_found_iff _ _ _).mp (of_run_eq_ok hrun).1).2.2.1
  rw [flow_requiring] at hnames
  exact hnames

/-- A scene of a terminal that requires insert nodes is one in which none is missing. -/
theorem isCoverage_of_run_requiring_true (h : net.prepare limits = .ok prepared)
    (hrun : (prepared.requiring true).run overrides key = .ok compilation) :
    ∀ finding ∈ prepared.found overrides key, finding.isCoverage = false := by
  intro finding hfinding
  by_contra hcoverage
  rw [Bool.not_eq_false] at hcoverage
  have hnames := nodup_delivered_of_requiring true hrun
  have herror := (of_run_eq_ok hrun).1 (finding.regrade .error) (by
    rw [found_requiring true h hnames]
    exact List.mem_map_of_mem hfinding)
  rw [Finding.gravity_regrade hcoverage] at herror
  cases herror

/-- If the terminal does not require insert nodes, what is missing is warned of. -/
theorem isCoverage_of_run_requiring_false (h : net.prepare limits = .ok prepared)
    (hrun : (prepared.requiring false).run overrides key = .ok compilation)
    (hnone : ∀ d ∈ compilation.warnings, d.code ≠ .missingInsertConnection) :
    ∀ finding ∈ prepared.found overrides key, finding.isCoverage = false := by
  intro finding hfinding
  by_contra hcoverage
  rw [Bool.not_eq_false] at hcoverage
  have hnames := nodup_delivered_of_requiring false hrun
  have hfound : finding.regrade .warning ∈ (prepared.requiring false).found overrides key := by
    rw [found_requiring false h hnames]
    exact List.mem_map_of_mem hfinding
  refine hnone (finding.regrade .warning).diagnostic ((mem_warnings_iff hrun _).mpr
    ⟨_, List.mem_append_left _ (List.mem_append_left _ hfound), rfl⟩) ?_
  rw [Finding.code_eq_missingInsertConnection_iff, Finding.isCoverage_regrade, hcoverage]

/-- A scene of a terminal that requires insert nodes comes without warnings of missing ones. -/
theorem code_ne_of_mem_warnings (h : net.prepare limits = .ok prepared)
    (hrun : (prepared.requiring true).run overrides key = .ok compilation) {d : Diagnostic}
    (hd : d ∈ compilation.warnings) : d.code ≠ .missingInsertConnection := by
  obtain ⟨finding, htold, rfl⟩ := (mem_warnings_iff hrun d).mp hd
  rw [ne_eq, Finding.code_eq_missingInsertConnection_iff, Bool.not_eq_true]
  by_contra hcoverage
  rw [Bool.not_eq_false] at hcoverage
  have hfound : finding ∈ (prepared.requiring true).found overrides key := by
    rcases (mem_told_iff_of_isOfWay (prepare_requiring true h)
      (Finding.isOfWay_of_isCoverage hcoverage)).mp htold with hflow | huninserted
    · exact List.mem_append_left _ (List.mem_append_right _ hflow)
    · exact List.mem_append_right _ (List.mem_append_right _ huninserted)
  rw [found_requiring true h (nodup_delivered_of_requiring true hrun),
    Finding.map_regrade_eq_self (isCoverage_of_run_requiring_true h hrun)] at hfound
  exact absurd hcoverage (by simp [isCoverage_of_run_requiring_true h hrun finding hfound])

/-- A terminal that requires insert nodes refuses what comes with warnings of missing ones, and
nothing else. -/
theorem run_requiring_true_iff (h : net.prepare limits = .ok prepared) :
    (prepared.requiring true).run overrides key = .ok compilation ↔
      (prepared.requiring false).run overrides key = .ok compilation ∧
        ∀ d ∈ compilation.warnings, d.code ≠ .missingInsertConnection := by
  constructor
  · intro hrun
    have hnames := nodup_delivered_of_requiring true hrun
    have hclear := isCoverage_of_run_requiring_true h hrun
    refine ⟨?_, fun _ => code_ne_of_mem_warnings h hrun⟩
    rw [run_requiring false h hnames hclear, ← run_requiring true h hnames hclear, hrun]
  · rintro ⟨hrun, hnone⟩
    have hnames := nodup_delivered_of_requiring false hrun
    have hclear := isCoverage_of_run_requiring_false h hrun hnone
    rw [run_requiring true h hnames hclear, ← run_requiring false h hnames hclear, hrun]

end Prepared

/-! ### Warnings of objects without a time -/

/-- A compilation warns that an object passes no insert node. -/
def Compilation.WarnsUninserted (compilation : Compilation) (object : NodeId) : Prop :=
  ∃ d ∈ compilation.warnings, d.code = .missingInsertConnection ∧
    d.message = "object '" ++ object.text ++ "' reaches the scene without an insert node"

namespace Finding

/-- The two reports of missing insert nodes do not read alike. -/
theorem unconnected_message_ne (id object : NodeId) (severity : Severity) :
    (unconnected id severity).diagnostic.message ≠
      "object '" ++ object.text ++ "' reaches the scene without an insert node" := by
  intro h
  -- One ends on another letter than the other.
  have hreverse := congrArg (fun text => text.toList.reverse) h
  simp [diagnostic] at hreverse

end Finding

namespace Prepared

variable {net : Network} {limits : Limits} {prepared : Prepared} {overrides : Overrides}
  {key : Option String} {compilation : Compilation}

/-- A compilation warns that an object passes no insert node if one has been delivered so. -/
theorem warnsUninserted_iff_exists_token (h : net.prepare limits = .ok prepared)
    (hrun : prepared.run overrides key = .ok compilation) (object : NodeId) :
    compilation.WarnsUninserted object ↔
      ∃ token ∈ (prepared.flow overrides key).delivered,
        token.name = object ∧ token.insertTime = none := by
  constructor
  · rintro ⟨d, hd, hcode, hmessage⟩
    obtain ⟨finding, htold, rfl⟩ := (mem_warnings_iff hrun d).mp hd
    have hcoverage := Finding.code_eq_missingInsertConnection_iff.mp hcode
    have hway := Finding.isOfWay_of_isCoverage hcoverage
    cases finding with
    | unconnected id severity =>
      exact absurd hmessage (Finding.unconnected_message_ne id object severity)
    | notInserted object' origin severity =>
      have htext : object'.text = object.text :=
        (String.append_right_inj _).mp ((String.append_left_inj _).mp hmessage)
      rcases (mem_told_iff_of_isOfWay h hway).mp htold with hflow | huninserted
      · cases Network.isDeadEnd_of_mem_findings_flow _ _ hflow hway
      · obtain ⟨token, htoken, heq⟩ := List.mem_map.mp huninserted
        obtain ⟨hdelivered, hnone⟩ := List.mem_filter.mp htoken
        obtain ⟨hname, -, -⟩ := Finding.notInserted.inj heq
        exact ⟨token, hdelivered, hname.trans (NodeId.eq_iff_text.mpr htext),
          Option.isNone_iff_eq_none.mp hnone⟩
    | _ => cases hcoverage
  · rintro ⟨token, htoken, rfl, hnone⟩
    refine ⟨(Finding.notInserted token.name token.origin prepared.coverage).diagnostic,
      (mem_warnings_iff hrun _).mpr ⟨_, (mem_told_iff_of_isOfWay h rfl).mpr (.inr ?_), rfl⟩, rfl,
      rfl⟩
    exact List.mem_map.mpr ⟨token, List.mem_filter.mpr ⟨htoken, by simp [hnone]⟩, rfl⟩

/-- The token of an object in a scene is the only one of its name. -/
theorem token_unique (hrun : prepared.run overrides key = .ok compilation) {token other : Token}
    (htoken : token ∈ (prepared.flow overrides key).delivered)
    (hother : other ∈ (prepared.flow overrides key).delivered) (hname : token.name = other.name) :
    token = other :=
  List.inj_on_of_nodup_map ((noError_found_iff _ _ _).mp (of_run_eq_ok hrun).1).2.2.1 htoken hother
    hname

/-- A compilation warns of exactly the objects that have no time. -/
theorem warnsUninserted_iff (h : net.prepare limits = .ok prepared)
    (hrun : prepared.run overrides key = .ok compilation) {object : SceneObject}
    (hobject : object ∈ compilation.scene.objects) :
    object.insertTime = none ↔ compilation.WarnsUninserted object.id := by
  obtain ⟨token, htoken, hmade⟩ := exists_token_of_mem_objects hrun hobject
  obtain ⟨hid, -, -, htime⟩ := Token.id_of_object hmade
  rw [warnsUninserted_iff_exists_token h hrun, htime, hid]
  constructor
  · exact fun hnone => ⟨token, htoken, rfl, hnone⟩
  · rintro ⟨other, hother, hname, hnone⟩
    rw [← token_unique hrun hother htoken hname]
    exact hnone

/-- An object has a time exactly if its token has been marked by an insert node. -/
theorem insertTime_eq_none_iff (hrun : prepared.run overrides key = .ok compilation)
    {object : SceneObject} (hobject : object ∈ compilation.scene.objects) :
    object.insertTime = none ↔ ∀ labelled ∈ prepared.labelled overrides key,
      labelled.token.name = object.id → labelled.inserted = false := by
  obtain ⟨token, htoken, hmade⟩ := exists_token_of_mem_objects hrun hobject
  obtain ⟨hid, -, -, htime⟩ := Token.id_of_object hmade
  rw [htime, hid, labelled_eq, List.forall_mem_map]
  constructor
  · intro hnone other hother hname
    rw [token_unique hrun hother htoken hname]
    simp [LabelledToken.ofToken, hnone]
  · intro hall
    simpa [LabelledToken.ofToken] using hall token htoken rfl

end Prepared

/-! ### Compilations -/

namespace Network

variable {net : Network} {limits : Limits} {overrides : Overrides} {key : Option String}
  {compilation : Compilation}

theorem outcome_requiring_eq_ok_iff (b : Bool) :
    (net.requiring b).outcome overrides limits key = .ok compilation ↔
      ∃ prepared, net.prepare limits = .ok prepared ∧
        (prepared.requiring b).run overrides key = .ok compilation := by
  rw [outcome_eq_ok_iff]
  constructor
  · rintro ⟨prepared', hprepare', hrun⟩
    cases hprepare : net.prepare limits with
    | error findings =>
      rw [prepare_requiring, hprepare] at hprepare'
      cases hprepare'
    | ok prepared =>
      rw [Prepared.prepare_requiring b hprepare] at hprepare'
      obtain rfl := Except.ok.inj hprepare'
      exact ⟨prepared, rfl, hrun⟩
  · rintro ⟨prepared, hprepare, hrun⟩
    exact ⟨prepared.requiring b, Prepared.prepare_requiring b hprepare, hrun⟩

/-- A network whose terminal requires insert nodes has the scene that it has if the terminal does
not, with the same warnings, unless there are warnings of missing insert nodes. -/
theorem outcome_requiring_true_iff :
    (net.requiring true).outcome overrides limits key = .ok compilation ↔
      (net.requiring false).outcome overrides limits key = .ok compilation ∧
        ∀ d ∈ compilation.warnings, d.code ≠ .missingInsertConnection := by
  rw [outcome_requiring_eq_ok_iff, outcome_requiring_eq_ok_iff]
  constructor
  · rintro ⟨prepared, hprepare, hrun⟩
    obtain ⟨hrun', hnone⟩ := (Prepared.run_requiring_true_iff hprepare).mp hrun
    exact ⟨⟨prepared, hprepare, hrun'⟩, hnone⟩
  · rintro ⟨⟨prepared, hprepare, hrun⟩, hnone⟩
    exact ⟨prepared, hprepare, (Prepared.run_requiring_true_iff hprepare).mpr ⟨hrun, hnone⟩⟩

/-- An insert node has marked the token that is delivered for an object. -/
def Inserts (net : Network) (overrides : Overrides) (limits : Limits) (key : Option String)
    (object : NodeId) : Prop :=
  ∃ prepared, net.prepare limits = .ok prepared ∧
    ∃ labelled ∈ prepared.labelled overrides key,
      labelled.token.name = object ∧ labelled.inserted = true

/-- An object of a scene has no time exactly if the compilation warns that it passes no insert node,
and exactly if it does not pass one. If the terminal requires insert nodes, there is a scene exactly
if there is one without such warnings where it does not, and then the scene and the warnings are
the same. -/
theorem coverage_of_outcome (net : Network) (overrides : Overrides) (limits : Limits)
    (key : Option String) :
    (∀ compilation, net.outcome overrides limits key = .ok compilation →
      ∀ object ∈ compilation.scene.objects,
        (object.insertTime = none ↔ compilation.WarnsUninserted object.id) ∧
          (object.insertTime = none ↔ ¬ net.Inserts overrides limits key object.id)) ∧
      ∀ compilation, (net.requiring true).outcome overrides limits key = .ok compilation ↔
        (net.requiring false).outcome overrides limits key = .ok compilation ∧
          ∀ d ∈ compilation.warnings, d.code ≠ .missingInsertConnection := by
  refine ⟨fun compilation h object hobject => ?_, fun _ => outcome_requiring_true_iff⟩
  obtain ⟨prepared, hprepare, hrun⟩ := outcome_eq_ok_iff.mp h
  refine ⟨Prepared.warnsUninserted_iff hprepare hrun hobject, ?_⟩
  rw [Prepared.insertTime_eq_none_iff hrun hobject]
  constructor
  · rintro hall ⟨other, hother, labelled, hlabelled, hname, hinserted⟩
    obtain rfl := Except.ok.inj (hprepare.symm.trans hother)
    rw [hall labelled hlabelled hname] at hinserted
    cases hinserted
  · intro hnone labelled hlabelled hname
    by_contra hinserted
    exact hnone ⟨prepared, hprepare, labelled, hlabelled, hname, by simpa using hinserted⟩

end Network

/-! ### A network with an object that is not inserted -/

/-- The circle `a` passes the insert node `i`, the circle `b` does not. -/
def halfInserted : Network :=
  .ofLinks
    #[⟨⟨"a"⟩, "", .geometry .plainCircle⟩, ⟨⟨"b"⟩, "", .geometry .plainCircle⟩,
      ⟨⟨"i"⟩, "", .insert ⟨.always, 0⟩⟩, ⟨⟨"s"⟩, "", .terminal .video .small⟩]
    [⟨⟨⟨"e1"⟩, ⟨"a"⟩, ⟨""⟩, ⟨"i"⟩, ⟨""⟩⟩, 0, 2⟩, ⟨⟨⟨"e2"⟩, ⟨"i"⟩, ⟨""⟩, ⟨"s"⟩, ⟨""⟩⟩, 2, 3⟩,
      ⟨⟨⟨"e3"⟩, ⟨"b"⟩, ⟨""⟩, ⟨"s"⟩, ⟨""⟩⟩, 1, 3⟩]
    [] ⟨0, 0⟩

/-- Where the terminal does not require insert nodes, the circle `b` is warned of; where it does,
there is no scene. -/
theorem coverage_of_outcome_halfInserted :
    ∃ compilation, (halfInserted.requiring false).outcome .empty .standard none = .ok compilation ∧
      (∃ object ∈ compilation.scene.objects,
        object.id = ⟨"b"⟩ ∧ compilation.WarnsUninserted object.id) ∧
      ∀ other, (halfInserted.requiring true).outcome .empty .standard none ≠ .ok other := by
  obtain ⟨prepared, compilation, hprepare, hrun, hcheck⟩ :=
    Prepared.exists_run_eq_ok (halfInserted.requiring false) .standard .empty none
      (fun prepared => (prepared.flow .empty none).delivered.any fun token =>
        decide (token.name = ⟨"b"⟩) && token.insertTime.isNone) (by decide +kernel)
  have houtcome := Network.outcome_eq_ok_iff.mpr ⟨prepared, hprepare, hrun⟩
  obtain ⟨token, htoken, htold⟩ := List.any_eq_true.mp hcheck
  rw [Bool.and_eq_true, decide_eq_true_iff, Option.isNone_iff_eq_none] at htold
  obtain ⟨hname, hnone⟩ := htold
  obtain ⟨object, hobject, hid⟩ := List.mem_map.mp ((Prepared.mem_ids_iff hrun ⟨"b"⟩).mpr
    (List.countP_pos_iff.mpr ⟨token, htoken, decide_eq_true hname⟩))
  obtain ⟨other, hother, hmade⟩ := Prepared.exists_token_of_mem_objects hrun hobject
  obtain ⟨hid', -, -, htime⟩ := Token.id_of_object hmade
  rw [Prepared.token_unique hrun hother htoken (by rw [← hid', hid, hname]), hnone] at htime
  have hwarns := (((Network.coverage_of_outcome _ _ _ _).1 compilation houtcome object
    hobject).1).mp htime
  refine ⟨compilation, houtcome, ⟨object, hobject, hid, hwarns⟩, fun other hother => ?_⟩
  obtain ⟨hlax, hclear⟩ := ((Network.coverage_of_outcome _ _ _ _).2 other).mp hother
  obtain ⟨d, hd, hcode, -⟩ := hwarns
  obtain rfl := Except.ok.inj (houtcome.symm.trans hlax)
  exact hclear d hd hcode

end SceneFlow
