import SceneFlow.Proofs.Graph.Cycles
import SceneFlow.Proofs.Value.Evaluation

/-!
# Values as the solution of equations

Each value node makes its value of those that arrive at it, so the values of a network solve a
system of equations, one for every value node. Where no values run in a circle there is one
solution, and the evaluation finds it. Otherwise the evaluation fails, and tells the value nodes on
the circles and those to which values come from there; all others could have been evaluated.

## Main definitions

* `Network.carriesValues`: values run along a link, from one value node to another.
* `Network.Solves`: an assignment of values solves the equations of a network.

## Main results

* `Network.mem_valueOrder_iff_not`: which value nodes have their turns.
* `Network.Solves.eq_valueAt`: the equations determine the values of nodes that have their turns.
* `Network.evaluate_spec`: an evaluation finds the solution, or tells where there is none.
-/

namespace SceneFlow

namespace Network

variable {graph : Graph} {net : Network} {u v : Fin net.size}

/-- Values run along a link, from one value node to another. -/
def carriesValues (net : Network) (link : Link net.size) : Bool :=
  (net.node link.source).kind.isValue && (net.node link.target).kind.isValue

/-- The value of each value node is what the node makes of the values at the sources of the links
that enter it, each with the port at which it arrives. -/
def Solves (net : Network) (value : Fin net.size → Option Json) : Prop :=
  ∀ v, (net.node v).kind.isValue = true →
    value v = (net.node v).kind.value
      ((net.valueLinksInto v).map fun link => (link.edge.targetPort, value link.source))

/-! ### Which nodes are evaluated -/

theorem leads_carriesValues_iff :
    net.Leads net.carriesValues u v ↔ u ∈ net.valuePlaces ∧ v ∈ net.valuesBehind u := by
  have hbehind : v ∈ net.behind u ↔ net.Leads (fun _ => true) u v := arc_behind_iff
  rw [valuesBehind, List.mem_filter, hbehind, mem_valuePlaces]
  constructor
  · rintro ⟨link, hlink, hvalues, rfl, rfl⟩
    obtain ⟨hsource, htarget⟩ := Bool.and_eq_true_iff.mp hvalues
    exact ⟨hsource, ⟨link, hlink, rfl, rfl, rfl⟩, htarget⟩
  · rintro ⟨hsource, ⟨link, hlink, -, rfl, rfl⟩, htarget⟩
    exact ⟨link, hlink, Bool.and_eq_true_iff.mpr ⟨hsource, htarget⟩, rfl, rfl⟩

/-- The value nodes have their turns that no values reach from a circle. -/
theorem mem_valueOrder_iff_not :
    v ∈ net.valueOrder ↔ (net.node v).kind.isValue = true ∧
      ¬ ∃ u, Relation.TransGen (net.Leads net.carriesValues) u u ∧
        Relation.ReflTransGen (net.Leads net.carriesValues) u v := by
  have hleads : (fun u w => u ∈ net.valuePlaces ∧ w ∈ net.valuesBehind u) =
      net.Leads net.carriesValues := funext₂ fun _ _ => propext leads_carriesValues_iff.symm
  rw [mem_valueOrder_iff, hleads, ← Digraph.not_acc_iff, not_not]

/-- What values reach is a value node. -/
theorem isValue_of_transGen (h : Relation.TransGen (net.Leads net.carriesValues) u v) :
    (net.node v).kind.isValue = true := by
  obtain ⟨w, -, hlast⟩ := Relation.TransGen.tail'_iff.mp h
  exact (List.mem_filter.mp (leads_carriesValues_iff.mp hlast).2).2

/-- The value nodes without a turn are those on circles of values and those behind them. -/
theorem mem_stuck_iff :
    v ∈ net.valuePlaces.filter (fun v => v ∉ net.valueOrder) ↔
      ∃ u, Relation.TransGen (net.Leads net.carriesValues) u u ∧
        Relation.ReflTransGen (net.Leads net.carriesValues) u v := by
  rw [List.mem_filter, decide_eq_true_iff, mem_valuePlaces, mem_valueOrder_iff_not]
  refine ⟨fun ⟨hv, hnot⟩ => by_contra fun hnone => hnot ⟨hv, hnone⟩, fun h => ⟨?_, fun hnot =>
    hnot.2 h⟩⟩
  obtain ⟨u, hcycle, hpath⟩ := h
  rcases Relation.reflTransGen_iff_eq_or_transGen.mp hpath with rfl | hpath
  · exact isValue_of_transGen hcycle
  · exact isValue_of_transGen hpath

/-- All value nodes have their turns exactly if no values run in a circle. -/
theorem forall_mem_valueOrder_iff :
    (∀ v ∈ net.valuePlaces, v ∈ net.valueOrder) ↔
      ∀ v, ¬ Relation.TransGen (net.Leads net.carriesValues) v v := by
  constructor
  · intro h v hv
    have hturn := h v (mem_valuePlaces.mpr (isValue_of_transGen hv))
    exact (mem_valueOrder_iff_not.mp hturn).2 ⟨v, hv, .refl⟩
  · intro h v hv
    exact mem_valueOrder_iff_not.mpr ⟨mem_valuePlaces.mp hv, fun ⟨u, hu, _⟩ => h u hu⟩

/-- An evaluation that fails tells the value nodes without a turn. -/
theorem evaluate_eq_error_iff {cause : QueryError} :
    net.evaluate = .error cause ↔ (∃ v ∈ net.valuePlaces, v ∉ net.valueOrder) ∧
      cause = .circularDependency
        ((net.valuePlaces.filter fun v => v ∉ net.valueOrder).map net.id) := by
  have hsome : net.valuePlaces.filter (fun v => v ∉ net.valueOrder) ≠ [] ↔
      ∃ v ∈ net.valuePlaces, v ∉ net.valueOrder := by
    simp
  rw [evaluate, ← hsome]
  dsimp only
  split
  · rename_i hnil
    exact iff_of_false (by simp) fun h => h.1 hnil
  · rename_i hne
    rw [and_iff_right hne, Except.error.injEq, eq_comm]

/-- An evaluation succeeds exactly if no values run in a circle. -/
theorem exists_evaluate_eq_ok_iff :
    (∃ values, net.evaluate = .ok values) ↔
      ∀ v, ¬ Relation.TransGen (net.Leads net.carriesValues) v v := by
  rw [← forall_mem_valueOrder_iff]
  constructor
  · rintro ⟨values, hvalues⟩
    by_contra hnot
    push Not at hnot
    rw [evaluate_eq_error_iff.mpr ⟨hnot, rfl⟩] at hvalues
    cases hvalues
  · exact fun h => ⟨_, evaluate_eq_ok_of_forall h⟩

/-! ### The solution -/

/-- The equations determine the values of all nodes that have their turns. -/
theorem Solves.eq_valueAt {value : Fin net.size → Option Json} (h : net.Solves value)
    (hv : v ∈ net.valueOrder) : value v = net.valueAt v := by
  obtain ⟨-, hacc⟩ := mem_valueOrder_iff.mp hv
  -- Induction against the links between value nodes: the sources of values come before.
  induction hacc with
  | intro v hbefore ih =>
    have hvalue := (mem_valueOrder_iff.mp hv).1
    rw [h v hvalue, valueAt_eq_of_mem hv]
    refine congrArg _ (List.map_congr_left fun link hlink => ?_)
    have hsource := mem_valuesBehind_of_mem hvalue hlink
    rw [ih link.source hsource (mem_valueOrder_iff.mpr
      ⟨mem_valuePlaces.mp hsource.1, hbefore link.source hsource⟩)]

/-- Where the evaluation succeeds, all value nodes have their turns. -/
theorem mem_valueOrder_of_evaluate {values : VariableValues} (hvalues : net.evaluate = .ok values)
    (hv : (net.node v).kind.isValue = true) : v ∈ net.valueOrder :=
  forall_mem_valueOrder_iff.mpr (exists_evaluate_eq_ok_iff.mp ⟨values, hvalues⟩) v
    (mem_valuePlaces.mpr hv)

theorem eq_of_evaluate {values : VariableValues} (hvalues : net.evaluate = .ok values) :
    values = ⟨net.valuePlaces.map fun v => (net.id v, net.valueAt v)⟩ := by
  rw [evaluate_eq_ok_of_forall fun v hv =>
    mem_valueOrder_of_evaluate hvalues (mem_valuePlaces.mp hv), Except.ok.injEq] at hvalues
  exact hvalues.symm

/-- Then the values that it finds solve the equations. -/
theorem solves_valueAt {values : VariableValues} (hvalues : net.evaluate = .ok values) :
    net.Solves net.valueAt :=
  fun _ hv => valueAt_eq_of_mem (mem_valueOrder_of_evaluate hvalues hv)

/-- Where the evaluation succeeds, what is looked up under the name of a value node is its value. -/
theorem get?_id_eq (hid : Function.Injective net.id) {values : VariableValues}
    (hvalues : net.evaluate = .ok values) (hv : (net.node v).kind.isValue = true) :
    values.get? (net.id v) = net.valueAt v := by
  obtain rfl := eq_of_evaluate hvalues
  exact get?_map_valuePlaces_of_last net.valueAt hv fun u hlt _ heq => hlt.ne' (hid heq)

/-- Values arrive in the order of the names of their edges. -/
theorem pairwise_valueLinksInto (hnet : ofGraph graph = .ok net) (v : Fin net.size) :
    (net.valueLinksInto v).Pairwise fun a b => a.edge.id.text ≤ b.edge.id.text := by
  rw [valueLinksInto, incoming_eq_filter]
  exact ((pairwise_links hnet).filter _).filter _

/-- An evaluation succeeds exactly if no values run in a circle. Then the values that it finds are
the only solution of the equations, in which values arrive in the order of the names of their
edges. If it fails it tells, in the order of the nodes, the value nodes on circles of values and
those to which values come from there. -/
theorem evaluate_spec (hnet : ofGraph graph = .ok net) (hid : (graph.nodes.map RawNode.id).Nodup) :
    ((∃ values, net.evaluate = .ok values) ↔
        ∀ v, ¬ Relation.TransGen (net.Leads net.carriesValues) v v) ∧
      (∀ v, (net.valueLinksInto v).Pairwise fun a b => a.edge.id.text ≤ b.edge.id.text) ∧
      (∀ values, net.evaluate = .ok values →
        net.Solves (fun v => values.get? (net.id v)) ∧
          ∀ value, net.Solves value → ∀ v, (net.node v).kind.isValue = true →
            value v = values.get? (net.id v)) ∧
      ∀ cause, net.evaluate = .error cause → ∃ stuck : List (Fin net.size),
        cause = .circularDependency (stuck.map net.id) ∧ stuck.Sublist net.places ∧
          ∀ v, v ∈ stuck ↔ ∃ u, Relation.TransGen (net.Leads net.carriesValues) u u ∧
            Relation.ReflTransGen (net.Leads net.carriesValues) u v := by
  have hinjective := id_injective_of_nodup hnet hid
  refine ⟨exists_evaluate_eq_ok_iff, pairwise_valueLinksInto hnet, fun values hvalues => ?_,
    fun cause hcause => ?_⟩
  · have hturn : ∀ v, (net.node v).kind.isValue = true → v ∈ net.valueOrder := fun v hv =>
      forall_mem_valueOrder_iff.mpr (exists_evaluate_eq_ok_iff.mp ⟨values, hvalues⟩) v
        (mem_valuePlaces.mpr hv)
    refine ⟨fun v hv => ?_, fun value hsolves v hv => ?_⟩
    · dsimp only
      rw [get?_id_eq hinjective hvalues hv, valueAt_eq_of_mem (hturn v hv)]
      refine congrArg _ (List.map_congr_left fun link hlink => ?_)
      rw [get?_id_eq hinjective hvalues (mem_valuePlaces.mp (mem_valuesBehind_of_mem hv hlink).1)]
    · rw [hsolves.eq_valueAt (hturn v hv), get?_id_eq hinjective hvalues hv]
  · refine ⟨_, (evaluate_eq_error_iff.mp hcause).2, ?_, fun v => mem_stuck_iff⟩
    exact List.filter_sublist.trans List.filter_sublist

end Network

/-- The values of a graph can be looked at without putting edges in order, if they are in order. -/
theorem exists_evaluate_of_sorted (graph : Graph) (seen : Network → VariableValues → Bool)
    (hsorted : graph.edges.Pairwise fun a b => a.id.text ≤ b.id.text)
    (h : (match Network.ofSorted graph with
      | .ok net =>
        match net.evaluate with
        | .ok values => seen net values
        | .error _ => false
      | .error _ => false) = true) :
    ∃ net values, Network.ofGraph graph = .ok net ∧ net.evaluate = .ok values ∧
      seen net values = true := by
  obtain ⟨net, hnet, hseen⟩ := exists_ofGraph_of_sorted graph _ hsorted h
  split at hseen
  · rename_i values hvalues
    exact ⟨net, values, hnet, hvalues, hseen⟩
  · cases hseen

/-- The constant `k` is passed on to `x`, to the variable `p` and to the insert node `i`; `y` is the
contrary of `x`, and `z` shows it. If the circuit is closed, `x` needs the value of `y` too. -/
def feedback (closed : Bool) : Graph where
  nodes :=
    [.small "z" "result" [], .small "k" "constant" [("value", .bool true)],
      .small "x" "boolean" [("b", .bool true), ("op", .str "and")], .small "i" "insert" [],
      .small "y" "boolean" [("op", .str "not")], .small "p" "result" []]
  edges :=
    [.input "e1" "k" "x" "a", .input "e2" "x" "y" "a", .input "e3" "y" "z" "value",
      .input "e4" "k" "p" "value", .plain "e5" "k" "i"]
      ++ if closed then [.input "e6" "y" "x" "b"] else []

theorem evaluate_spec_feedback :
    (∃ net values, Network.ofGraph (feedback false) = .ok net ∧
      ((feedback false).nodes.map RawNode.id).Nodup ∧ net.evaluate = .ok values ∧
      (values.get? ⟨"z"⟩).bind Json.toBool? = some false ∧
      net.Solves fun v => values.get? (net.id v)) ∧
    ∃ (net : Network) (stuck : List (Fin net.size)), Network.ofGraph (feedback true) = .ok net ∧
      ((feedback true).nodes.map RawNode.id).Nodup ∧
      net.evaluate = .error (.circularDependency [⟨"z"⟩, ⟨"x"⟩, ⟨"y"⟩]) ∧
      stuck.map net.id = [⟨"z"⟩, ⟨"x"⟩, ⟨"y"⟩] ∧
      ∀ v, v ∈ stuck ↔ ∃ u, Relation.TransGen (net.Leads net.carriesValues) u u ∧
        Relation.ReflTransGen (net.Leads net.carriesValues) u v := by
  have hid : ∀ closed, ((feedback closed).nodes.map RawNode.id).Nodup := by decide
  constructor
  · obtain ⟨net, hnet, hseen⟩ := exists_ofGraph_of_sorted (feedback false)
      (fun net => match net.evaluate with
        | .ok values => (values.get? ⟨"z"⟩).bind Json.toBool? == some false
        | .error _ => false) (by decide) (by decide +kernel)
    match hvalues : net.evaluate with
    | .error _ => simp [hvalues] at hseen
    | .ok values =>
      simp only [hvalues, beq_iff_eq] at hseen
      obtain ⟨-, -, hsolution, -⟩ := Network.evaluate_spec hnet (hid false)
      exact ⟨net, values, hnet, hid false, hvalues, hseen, (hsolution values hvalues).1⟩
  · obtain ⟨net, hnet, hseen⟩ := exists_ofGraph_of_sorted (feedback true)
      (fun net => match net.evaluate with
        | .ok _ => false
        | .error cause => cause == .circularDependency [⟨"z"⟩, ⟨"x"⟩, ⟨"y"⟩])
      (by decide) (by decide +kernel)
    match hcause : net.evaluate with
    | .ok _ => simp [hcause] at hseen
    | .error cause =>
      simp only [hcause, beq_iff_eq] at hseen
      subst hseen
      obtain ⟨-, -, -, hstuck⟩ := Network.evaluate_spec hnet (hid true)
      obtain ⟨stuck, hpath, -, hmem⟩ := hstuck _ hcause
      rw [QueryError.circularDependency.injEq] at hpath
      exact ⟨net, stuck, hnet, hid true, hcause, hpath.symm, hmem⟩

end SceneFlow
