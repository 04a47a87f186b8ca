import Mathlib
import SceneFlow.Proofs.Compile.Validation
import SceneFlow.Proofs.Digraph.Schedule

/-!
# The values of a network

Every value node that has its turn has it behind those whose values arrive at it. So its value is
what it makes of their values. In a sound network all value nodes have their turns.

## Main definitions

* `Network.valueAt`: the value of a node.
* `Network.valueLinksInto`: the links along which values enter a node.

## Main results

* `Network.mem_valueOrder_iff`: which value nodes have their turns.
* `Network.valueAt_eq_of_mem`, `Network.valueAt_eq`: the value of a node from those that arrive at
  it.
* `Network.evaluate_eq_ok`: what the evaluation of a sound network comes to.
* `Network.get?_map_valuePlaces_of_last`: which of several nodes with one name is looked up.
* `Network.get?_eq_some_iff`: what is looked up among the values.
-/

namespace SceneFlow.Network

variable {limits : Limits} {net : Network}

/-- The links along which values enter a node. -/
def valueLinksInto (net : Network) (v : Fin net.size) : List (Link net.size) :=
  (net.incoming v).filter fun link => !net.carriesObjects link

/-- The value of a node. -/
def valueAt (net : Network) (v : Fin net.size) : Option Json :=
  ((net.valuesOf net.valueOrder).lookup v).join

/-! ### The order of evaluation -/

theorem mem_valuePlaces {v : Fin net.size} :
    v ∈ net.valuePlaces ↔ (net.node v).kind.isValue = true := by
  rw [valuePlaces, List.mem_filter, and_iff_right (mem_places v)]

theorem nodup_valuePlaces (net : Network) : net.valuePlaces.Nodup :=
  net.nodup_places.filter _

theorem valuesBehind_subset (u : Fin net.size) (_ : u ∈ net.valuePlaces) (w : Fin net.size)
    (hw : w ∈ net.valuesBehind u) : w ∈ net.valuePlaces :=
  mem_valuePlaces.mpr (List.mem_filter.mp hw).2

theorem acyclic_valuesBehind (h : Sound limits net) : Digraph.Acyclic net.valuesBehind :=
  h.acyclic.mono fun _ => List.filter_sublist.subset

theorem nodup_valueOrder (net : Network) : net.valueOrder.Nodup :=
  Digraph.nodup_schedule net.nodup_valuePlaces valuesBehind_subset

/-- Exactly the value nodes have their turns from which one cannot go against the links between
value nodes forever. -/
theorem mem_valueOrder_iff {v : Fin net.size} :
    v ∈ net.valueOrder ↔ (net.node v).kind.isValue = true ∧
      Acc (fun u w => u ∈ net.valuePlaces ∧ w ∈ net.valuesBehind u) v := by
  rw [valueOrder, Digraph.mem_schedule_iff net.nodup_valuePlaces valuesBehind_subset,
    mem_valuePlaces]

/-- In a sound network every value node has its turn. -/
theorem mem_valueOrder (h : Sound limits net) {v : Fin net.size} :
    v ∈ net.valueOrder ↔ (net.node v).kind.isValue = true := by
  rw [mem_valueOrder_iff, and_iff_left]
  exact Subrelation.accessible (fun harc => harc.2) ((acyclic_valuesBehind h).wellFounded.apply v)

/-- Values that arrive at a value node come from a value node that it is behind. -/
theorem mem_valuesBehind_of_mem {v : Fin net.size} (hv : (net.node v).kind.isValue = true)
    {link : Link net.size} (hlink : link ∈ net.valueLinksInto v) :
    link.source ∈ net.valuePlaces ∧ v ∈ net.valuesBehind link.source := by
  obtain ⟨harrives, hvalue⟩ := List.mem_filter.mp hlink
  obtain ⟨hmem, rfl⟩ := mem_incoming_iff.mp harrives
  have hsource : (net.node link.source).kind.isValue = true := by
    simpa [carriesObjects] using hvalue
  exact ⟨mem_valuePlaces.mpr hsource,
    List.mem_filter.mpr ⟨mem_behind_iff.mpr ⟨link, hmem, rfl, rfl⟩, hv⟩⟩

/-- The nodes whose values arrive at a node have their turns before. -/
theorem mem_of_valueOrder {pre post : List (Fin net.size)} {v : Fin net.size}
    (horder : net.valueOrder = pre ++ v :: post) (hv : (net.node v).kind.isValue = true)
    {link : Link net.size} (hlink : link ∈ net.valueLinksInto v) : link.source ∈ pre := by
  obtain ⟨hsource, hbehind⟩ := mem_valuesBehind_of_mem hv hlink
  exact Digraph.ordered_schedule net.nodup_valuePlaces valuesBehind_subset pre _ post horder
    link.source hsource hbehind

/-! ### The values -/

/-- The turn of a value node. -/
private def evaluateNode (net : Network) (known : net.PlaceValues) (v : Fin net.size) :
    net.PlaceValues :=
  (v, (net.node v).kind.value (net.inputs known v)) :: known

/-- Later turns do not change a value. -/
private theorem lookup_foldl_of_notMem (order : List (Fin net.size)) (known : net.PlaceValues)
    {v : Fin net.size} (hv : v ∉ order) :
    (order.foldl net.evaluateNode known).lookup v = known.lookup v := by
  induction order generalizing known with
  | nil => rfl
  | cons u rest ih =>
    rw [List.mem_cons, not_or] at hv
    rw [List.foldl_cons, ih _ hv.2, evaluateNode, List.lookup_cons,
      beq_eq_false_iff_ne.mpr hv.1]

private theorem lookup_valuesOf_append {pre post : List (Fin net.size)} {v : Fin net.size}
    (hv : v ∉ post) : (net.valuesOf (pre ++ post)).lookup v = (net.valuesOf pre).lookup v := by
  change ((pre ++ post).foldl net.evaluateNode []).lookup v = _
  rw [List.foldl_append, lookup_foldl_of_notMem post _ hv]
  rfl

private theorem lookup_valuesOf_concat (pre : List (Fin net.size)) (v : Fin net.size) :
    (net.valuesOf (pre ++ [v])).lookup v =
      some ((net.node v).kind.value (net.inputs (net.valuesOf pre) v)) := by
  change ((pre ++ [v]).foldl net.evaluateNode []).lookup v = _
  rw [List.foldl_append, List.foldl_cons, evaluateNode, List.foldl_nil, List.lookup_cons,
    beq_self_eq_true]
  rfl

/-- The value of a node that has its turn, from those that arrive at it. -/
theorem valueAt_eq_of_mem {v : Fin net.size} (hv : v ∈ net.valueOrder) :
    net.valueAt v = (net.node v).kind.value ((net.valueLinksInto v).map fun link =>
      (link.edge.targetPort, net.valueAt link.source)) := by
  have hvalue := (mem_valueOrder_iff.mp hv).1
  obtain ⟨pre, post, horder⟩ := List.append_of_mem hv
  have hnodup := net.nodup_valueOrder
  rw [horder] at hnodup
  have hpost : v ∉ post := (List.nodup_cons.mp (List.nodup_append.mp hnodup).2.1).1
  have hsources : net.inputs (net.valuesOf pre) v = (net.valueLinksInto v).map fun link =>
      (link.edge.targetPort, net.valueAt link.source) := by
    refine List.map_congr_left fun link hlink => ?_
    have hnot : link.source ∉ v :: post := fun hmem =>
      List.disjoint_of_nodup_append hnodup (mem_of_valueOrder horder hvalue hlink) hmem
    rw [valueAt, horder, lookup_valuesOf_append hnot]
  rw [← hsources, valueAt, horder, List.append_cons, lookup_valuesOf_append hpost,
    lookup_valuesOf_concat]
  rfl

/-- The value of a node from those that arrive at it. -/
theorem valueAt_eq (h : Sound limits net) {v : Fin net.size}
    (hv : (net.node v).kind.isValue = true) :
    net.valueAt v = (net.node v).kind.value ((net.valueLinksInto v).map fun link =>
      (link.edge.targetPort, net.valueAt link.source)) :=
  valueAt_eq_of_mem ((mem_valueOrder h).mpr hv)

/-- An evaluation comes to the values of the value nodes if all of these have their turns. -/
theorem evaluate_eq_ok_of_forall (h : ∀ v ∈ net.valuePlaces, v ∈ net.valueOrder) :
    net.evaluate = .ok ⟨net.valuePlaces.map fun v => (net.id v, net.valueAt v)⟩ := by
  have hall : net.valuePlaces.filter (fun v => v ∉ net.valueOrder) = [] :=
    List.filter_eq_nil_iff.mpr fun v hv => by simpa using h v hv
  rw [evaluate]
  simp only [hall]
  rfl

/-- What the evaluation of a sound network comes to. -/
theorem evaluate_eq_ok (h : Sound limits net) :
    net.evaluate = .ok ⟨net.valuePlaces.map fun v => (net.id v, net.valueAt v)⟩ :=
  evaluate_eq_ok_of_forall fun _ hv => (mem_valueOrder h).mpr (mem_valuePlaces.mp hv)

/-- Of value nodes with one name, the last one is looked up. -/
theorem get?_map_valuePlaces_of_last (f : Fin net.size → Option Json) {v : Fin net.size}
    (hv : (net.node v).kind.isValue = true)
    (hlast : ∀ u, v < u → (net.node u).kind.isValue = true → net.id u ≠ net.id v) :
    VariableValues.get? ⟨net.valuePlaces.map fun v => (net.id v, f v)⟩ (net.id v) = f v := by
  obtain ⟨pre, post, hsplit⟩ := List.append_of_mem (mem_valuePlaces.mpr hv)
  have hsorted : net.valuePlaces.Pairwise (· < ·) := (List.pairwise_lt_finRange _).filter _
  rw [hsplit, List.pairwise_append, List.pairwise_cons] at hsorted
  have hpost : ∀ u ∈ post, net.id u ≠ net.id v := fun u hu =>
    hlast u (hsorted.2.1.1 u hu) (mem_valuePlaces.mp (hsplit ▸ by simp [hu]))
  have hlookup : (net.valuePlaces.map fun v => (net.id v, f v)).reverse.lookup (net.id v) =
      some (f v) := by
    refine List.lookup_eq_some_iff.mpr ⟨(post.map fun u => (net.id u, f u)).reverse,
      (pre.map fun u => (net.id u, f u)).reverse, by simp [hsplit], fun pair hpair => ?_⟩
    obtain ⟨u, hu, rfl⟩ := List.mem_map.mp (List.mem_reverse.mp hpair)
    simpa using (hpost u hu).symm
  rw [VariableValues.get?, hlookup, Option.join_some]

theorem get?_map_valuePlaces_eq_none (f : Fin net.size → Option Json) {id : NodeId}
    (h : ∀ v, (net.node v).kind.isValue = true → net.id v ≠ id) :
    VariableValues.get? ⟨net.valuePlaces.map fun v => (net.id v, f v)⟩ id = none := by
  have hlookup : (net.valuePlaces.map fun v => (net.id v, f v)).reverse.lookup id = none := by
    refine List.lookup_eq_none_iff.mpr fun pair hpair => ?_
    obtain ⟨v, hv, rfl⟩ := List.mem_map.mp (List.mem_reverse.mp hpair)
    simpa using (h v (mem_valuePlaces.mp hv)).symm
  rw [VariableValues.get?, hlookup, Option.join_none]

/-- What is looked up among values of value nodes with names of their own. -/
theorem get?_map_valuePlaces_eq_some_iff (hid : Function.Injective net.id)
    (f : Fin net.size → Option Json) (id : NodeId) (value : Json) :
    VariableValues.get? ⟨net.valuePlaces.map fun v => (net.id v, f v)⟩ id = some value ↔
      ∃ v, (net.node v).kind.isValue = true ∧ net.id v = id ∧ f v = some value := by
  by_cases hname : ∃ v, (net.node v).kind.isValue = true ∧ net.id v = id
  · obtain ⟨v, hv, rfl⟩ := hname
    rw [get?_map_valuePlaces_of_last f hv fun u hu _ heq => hu.ne' (hid heq)]
    constructor
    · exact fun hvalue => ⟨v, hv, rfl, hvalue⟩
    · rintro ⟨u, -, hu, hvalue⟩
      rwa [← hid hu]
  · push Not at hname
    rw [get?_map_valuePlaces_eq_none f hname]
    exact iff_of_false (by simp) fun ⟨v, hv, heq, _⟩ => hname v hv heq

/-- What is looked up among the values of a sound network. -/
theorem get?_eq_some_iff (h : Sound limits net) {values : VariableValues}
    (hvalues : net.evaluate = .ok values) (id : NodeId) (value : Json) :
    values.get? id = some value ↔
      ∃ v, (net.node v).kind.isValue = true ∧ net.id v = id ∧ net.valueAt v = some value := by
  rw [evaluate_eq_ok h, Except.ok.injEq] at hvalues
  subst hvalues
  exact get?_map_valuePlaces_eq_some_iff h.id_injective net.valueAt id value

end SceneFlow.Network
