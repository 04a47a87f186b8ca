import Mathlib
import SceneFlow.Proofs.Compile.Variants

/-!
# Bounds on what is compiled

The bounds are looked at in four places: the number of nodes and the counts of duplicate nodes by
validation, the tokens at a node and the objects that exist on the way. Whoever looks at a bound
either finds an error or goes on as if there were none. So what is found within some bounds without
an error is found within larger ones, too, and the bounds leave no trace in a scene.

## Main results

* `Node.pass_of_le`, `Network.turn_of_le`, `Network.flow_of_le`: a flow without errors is the same
  within a larger bound.
* `Network.findings_of_le`, `Network.prepare_of_le`: so is what is prepared.
* `Network.outcome_of_limits`: bounds refuse a network or leave its scene as it is.
-/

namespace SceneFlow

/-! ### The flow within a larger bound -/

section Flow

variable {resolver : Resolver} {coverage : Severity} {limit limit' : ℕ} (hle : limit ≤ limit')
include hle

/-- A duplicate node that keeps a bound keeps a larger one. -/
theorem Duplication.pass_of_le (data : Duplication) (node : NodeId) (created : ℕ)
    (tokens : List Token)
    (h : Finding.NoError (data.pass limit node created tokens).findings) :
    data.pass limit' node created tokens = data.pass limit node created tokens := by
  rw [pass] at h
  split at h
  · simp [Passage.stopped, Finding.gravity] at h
  · rename_i hroom
    rw [pass, pass, if_neg hroom, if_neg (by omega)]

/-- A node that finds no error within a bound makes the same of tokens within a larger one. -/
theorem Node.pass_of_le (node : Node) (created : ℕ) (tokens : List Token)
    (h : Finding.NoError (node.pass ⟨resolver, coverage, limit⟩ created tokens).findings) :
    node.pass ⟨resolver, coverage, limit'⟩ created tokens =
      node.pass ⟨resolver, coverage, limit⟩ created tokens := by
  rw [pass] at h
  rw [pass, pass]
  cases hkind : node.kind with
  | duplicate data =>
    rw [hkind] at h
    exact data.pass_of_le hle node.id created tokens h
  | _ => rfl

namespace Network

variable {net : Network}

/-- A turn that finds no error within a bound is the same within a larger one. -/
theorem turn_of_le {flow : Flow net.size} {v : Fin net.size}
    (h : Finding.NoError (net.turn ⟨resolver, coverage, limit⟩ flow v).findings) :
    net.turn ⟨resolver, coverage, limit'⟩ flow v =
      net.turn ⟨resolver, coverage, limit⟩ flow v := by
  rw [turn] at h
  dsimp only at h
  split at h
  · simp [Finding.gravity] at h
  · rename_i hroom
    simp only [Finding.noError_append] at h
    have hroom' : ¬ (!(net.node v).kind.isMerge &&
        decide (limit' < (flow.arrived v).length)) = true := by
      simp only [Bool.and_eq_true, Bool.not_eq_true', decide_eq_true_eq, not_and,
        Nat.not_lt] at hroom ⊢
      exact fun hmerge => (hroom hmerge).trans hle
    rw [turn, turn]
    dsimp only
    rw [if_neg hroom, if_neg hroom', (net.node v).pass_of_le hle flow.created _ h.1.2]

/-- Turns that find no error within a bound are the same within a larger one. -/
theorem foldl_turn_of_le (turns : List (Fin net.size)) (flow : Flow net.size)
    (h : Finding.NoError (turns.foldl (net.turn ⟨resolver, coverage, limit⟩) flow).findings) :
    turns.foldl (net.turn ⟨resolver, coverage, limit'⟩) flow =
      turns.foldl (net.turn ⟨resolver, coverage, limit⟩) flow := by
  induction turns using List.reverseRecOn with
  | nil => rfl
  | append_singleton turns v ih =>
    rw [List.foldl_append, List.foldl_cons, List.foldl_nil] at h
    simp only [List.foldl_append, List.foldl_cons, List.foldl_nil]
    rw [ih (noError_of_turn h), turn_of_le hle h]

/-- A flow without errors is the same within a larger bound. -/
theorem flow_of_le
    (h : Finding.NoError (net.flow ⟨resolver, coverage, limit⟩).findings) :
    net.flow ⟨resolver, coverage, limit'⟩ = net.flow ⟨resolver, coverage, limit⟩ :=
  foldl_turn_of_le hle net.objectOrder (.start net.size) h

end Network

end Flow

/-! ### Preparation within larger bounds -/

namespace Network

variable {net : Network} {limits limits' : Limits}

/-- A node that has no fault within some bounds has none within larger ones. -/
theorem nodeFindings_of_le {node : Node} (hinstances : limits.instances ≤ limits'.instances)
    (h : nodeFindings limits node = []) : nodeFindings limits' node = [] := by
  rw [nodeFindings, List.append_eq_nil_iff] at h
  rw [nodeFindings, List.append_eq_nil_iff]
  refine ⟨h.1, ?_⟩
  have hmore := h.2
  cases hkind : node.kind with
  | duplicate data =>
    simp only [hkind, ite_eq_right_iff, List.cons_ne_nil, imp_false, Nat.not_lt] at hmore ⊢
    exact hmore.trans hinstances
  | terminal output canvas =>
    rw [hkind] at hmore
    exact hmore
  | geometry _ | insert _ | filter _ | merge _ | constant _ | result _ | animation _
  | textStyle _ | comparison _ | logic _ | math _ | unknown _ => rfl

variable (hnodes : limits.nodes ≤ limits'.nodes) (hinstances : limits.instances ≤ limits'.instances)
include hnodes hinstances

/-- A network that is sound within some bounds is sound within larger ones. -/
theorem Sound.of_le (h : Sound limits net) : Sound limits' net :=
  { h with
    size_le := h.size_le.trans hnodes
    nodes := fun v => nodeFindings_of_le hinstances (h.nodes v) }

/-- Validation that finds no error finds the same within larger bounds. -/
theorem findings_of_le (h : Sound limits net) : net.findings limits' = net.findings limits := by
  have hsize : ∀ {bounds : Limits}, Sound bounds net → ¬ bounds.nodes < net.size :=
    fun hsound => hsound.size_le.not_gt
  have hnone : ∀ {bounds : Limits}, Sound bounds net →
      net.nodeList.flatMap (nodeFindings bounds) = [] := by
    intro bounds hsound
    rw [nodeList_eq, List.flatMap_map]
    exact List.flatMap_eq_nil_iff.mpr fun v _ => hsound.nodes v
  have h' := h.of_le hnodes hinstances
  rw [findings, findings, if_neg (hsize h), if_neg (hsize h'), hnone h, hnone h']

/-- What is prepared within some bounds is prepared within larger ones, but for the bound. -/
theorem prepare_of_le {prepared : Prepared} (h : net.prepare limits = .ok prepared) :
    net.prepare limits' = .ok { prepared with instances := limits'.instances } := by
  obtain ⟨hsound, output, canvas, values, hterminal, hvalues, rfl⟩ := prepare_eq_ok_iff.mp h
  refine prepare_eq_ok_iff.mpr ⟨hsound.of_le hnodes hinstances, output, canvas, values, hterminal,
    hvalues, ?_⟩
  rw [findings_of_le hnodes hinstances hsound]

end Network

/-! ### Runs within larger bounds -/

/-- A run with a scene is the same within a larger bound. -/
theorem Prepared.run_of_le {prepared : Prepared} {limit : ℕ} (hle : prepared.instances ≤ limit)
    {overrides : Overrides} {key : Option String} {compilation : Compilation}
    (h : prepared.run overrides key = .ok compilation) :
    Prepared.run { prepared with instances := limit } overrides key = .ok compilation := by
  have hquiet := ((noError_found_iff _ _ _).mp (of_run_eq_ok h).1).2.1
  have hflow : Prepared.flow { prepared with instances := limit } overrides key =
      prepared.flow overrides key :=
    Network.flow_of_le hle hquiet
  rw [← h, run, run, hflow]
  rfl

namespace Network

/-- A scene that there is within some bounds is there within larger ones. -/
theorem outcome_of_le {net : Network} {overrides : Overrides} {key : Option String}
    {limits limits' : Limits} (hnodes : limits.nodes ≤ limits'.nodes)
    (hinstances : limits.instances ≤ limits'.instances) {compilation : Compilation}
    (h : net.outcome overrides limits key = .ok compilation) :
    net.outcome overrides limits' key = .ok compilation := by
  obtain ⟨prepared, hprepare, hrun⟩ := outcome_eq_ok_iff.mp h
  refine outcome_eq_ok_iff.mpr ⟨_, prepare_of_le hnodes hinstances hprepare, ?_⟩
  obtain ⟨-, _, _, _, -, -, rfl⟩ := prepare_eq_ok_iff.mp hprepare
  exact Prepared.run_of_le hinstances hrun

/-- Bounds only refuse. If a network is compiled within some bounds, for a variant or for none, it
is compiled to the same scene with the same warnings within all larger bounds, and within no bounds
to another scene or with other warnings. -/
theorem outcome_of_limits (net : Network) (overrides : Overrides) (key : Option String)
    {limits : Limits} {compilation : Compilation}
    (h : net.outcome overrides limits key = .ok compilation) (limits' : Limits) :
    (limits.nodes ≤ limits'.nodes → limits.instances ≤ limits'.instances →
      net.outcome overrides limits' key = .ok compilation) ∧
    ∀ compilation', net.outcome overrides limits' key = .ok compilation' →
      compilation' = compilation := by
  refine ⟨fun hnodes hinstances => outcome_of_le hnodes hinstances h, fun compilation' h' => ?_⟩
  -- Both scenes are there within bounds that are larger than either.
  let both : Limits := ⟨max limits.nodes limits'.nodes, max limits.instances limits'.instances⟩
  have hboth : net.outcome overrides both key = .ok compilation :=
    outcome_of_le (le_max_left _ _) (le_max_left _ _) h
  have hboth' : net.outcome overrides both key = .ok compilation' :=
    outcome_of_le (le_max_right _ _) (le_max_right _ _) h'
  exact Except.ok.inj (hboth'.symm.trans hboth)

end Network

/-! ### A network that fills its bounds -/

/-- The circle `c` and its copy are copied once more each. -/
def fourCircles : Network :=
  .ofLinks
    #[⟨⟨"c"⟩, "", .geometry .plainCircle⟩, ⟨⟨"i"⟩, "", .insert ⟨.always, 0⟩⟩,
      ⟨⟨"d"⟩, "", .duplicate ⟨1, .zero⟩⟩, ⟨⟨"e"⟩, "", .duplicate ⟨1, .zero⟩⟩,
      ⟨⟨"s"⟩, "", .terminal .video .small⟩]
    [⟨⟨⟨"e1"⟩, ⟨"c"⟩, ⟨""⟩, ⟨"i"⟩, ⟨""⟩⟩, 0, 1⟩, ⟨⟨⟨"e2"⟩, ⟨"i"⟩, ⟨""⟩, ⟨"d"⟩, ⟨""⟩⟩, 1, 2⟩,
      ⟨⟨⟨"e3"⟩, ⟨"d"⟩, ⟨""⟩, ⟨"e"⟩, ⟨""⟩⟩, 2, 3⟩, ⟨⟨⟨"e4"⟩, ⟨"e"⟩, ⟨""⟩, ⟨"s"⟩, ⟨""⟩⟩, 3, 4⟩]
    [] ⟨0, 0⟩

/-- Five nodes and four objects are just allowed, and the scene is the one that there is when
many more are. -/
theorem outcome_of_limits_fourCircles :
    ∃ compilation, fourCircles.outcome .empty ⟨5, 4⟩ none = .ok compilation ∧
      fourCircles.outcome .empty .standard none = .ok compilation := by
  obtain ⟨compilation, h⟩ : ∃ compilation,
      fourCircles.outcome .empty ⟨5, 4⟩ none = .ok compilation :=
    Network.exists_outcome_eq_ok (by decide +kernel)
  exact ⟨compilation, h, (Network.outcome_of_limits fourCircles .empty none h .standard).1
    (by decide) (by decide)⟩

end SceneFlow
