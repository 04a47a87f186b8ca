import Mathlib
import SceneFlow.Proofs.Graph.Part

/-!
# Networks whose terminals require insert nodes

The canvas of a terminal says whether an object that has passed no insert node is an error.
Validation and evaluation do not look at it: what they come to is the same, whether the terminals
of a network require insert nodes or not.

## Main definitions

* `Network.requiring`: the network whose terminals require insert nodes, or do not.
* `Network.counterpart`: the place of a node in this network.

## Main results

* `Network.objectsBehind_counterpart`, `Network.objectOrder_requiring`: objects run alike.
* `Network.findings_requiring`: validation finds the same.
* `Network.evaluate_requiring`: the values are the same.
* `Network.prepare_requiring`: what is prepared differs in the canvas only.
-/

namespace SceneFlow

/-- The kind of a terminal that requires insert nodes, or does not; any other kind as it is. -/
def NodeKind.requiring (requireInsert : Bool) : NodeKind → NodeKind
  | .terminal output canvas => .terminal output { canvas with requireInsert }
  | kind => kind

/-- The node with its kind so. -/
def Node.requiring (requireInsert : Bool) (node : Node) : Node :=
  { node with kind := node.kind.requiring requireInsert }

namespace Network

/-- The network whose terminals require insert nodes, or do not. The fingerprint of the graph stays,
since nothing looks at it when a network is compiled. -/
def requiring (requireInsert : Bool) (net : Network) : Network :=
  .ofLinks (net.nodes.map (Node.requiring requireInsert))
    (net.links.map (Link.along (Fin.cast Array.size_map.symm))) net.dangling net.fingerprint

/-- The place of a node in this network. -/
def counterpart (requireInsert : Bool) (net : Network) :
    Fin net.size → Fin (net.requiring requireInsert).size :=
  Fin.cast Array.size_map.symm

end Network

/-! ### Arcs between counterparts -/

namespace Digraph

variable {n m : ℕ} (h : n = m) {next : Fin n → List (Fin n)} {next' : Fin m → List (Fin m)}
  (hnext : ∀ v, next' (v.cast h) = (next v).map (Fin.cast h))
include hnext

theorem schedule_cast (vertices : List (Fin n)) :
    schedule (vertices.map (Fin.cast h)) next' = (schedule vertices next).map (Fin.cast h) := by
  subst h
  obtain rfl : next' = next := funext fun v => by simpa using hnext v
  simp

theorem closedPath?_cast :
    closedPath? next' = (closedPath? next).map fun path => path.map (Fin.cast h) := by
  subst h
  obtain rfl : next' = next := funext fun v => by simpa using hnext v
  simp

end Digraph

/-! ### Nodes -/

section Nodes

variable (b : Bool)

namespace NodeKind

variable (kind : NodeKind)

@[simp]
theorem isTerminal_requiring : (kind.requiring b).isTerminal = kind.isTerminal := by
  cases kind <;> rfl

@[simp]
theorem isDrawable_requiring : (kind.requiring b).isDrawable = kind.isDrawable := by
  cases kind <;> rfl

@[simp]
theorem isMerge_requiring : (kind.requiring b).isMerge = kind.isMerge := by
  cases kind <;> rfl

@[simp]
theorem isVariable_requiring : (kind.requiring b).isVariable = kind.isVariable := by
  cases kind <;> rfl

@[simp]
theorem isValue_requiring : (kind.requiring b).isValue = kind.isValue := by
  cases kind <;> rfl

@[simp]
theorem value_requiring (inputs : Inputs) :
    (kind.requiring b).value inputs = kind.value inputs := by
  cases kind <;> rfl

end NodeKind

@[simp]
theorem Network.nodeFindings_requiring (limits : Limits) (node : Node) :
    nodeFindings limits (node.requiring b) = nodeFindings limits node := by
  obtain ⟨id, name, kind⟩ := node
  cases kind with
  | terminal output _ => cases output <;> rfl
  | _ => rfl

end Nodes

/-! ### Places and links -/

namespace Network

variable (b : Bool) (net : Network)

theorem counterpart_injective : Function.Injective (net.counterpart b) :=
  Fin.cast_injective _

@[simp]
theorem node_counterpart (v : Fin net.size) :
    (net.requiring b).node (net.counterpart b v) = (net.node v).requiring b :=
  Array.getElem_map ..

@[simp]
theorem id_counterpart (v : Fin net.size) :
    (net.requiring b).id (net.counterpart b v) = net.id v := by
  rw [id, node_counterpart]
  rfl

theorem places_requiring : (net.requiring b).places = net.places.map (net.counterpart b) := by
  have hsize : (net.requiring b).size = net.size := Array.size_map
  refine List.ext_getElem (by simp [places, hsize]) fun i _ _ => Fin.ext ?_
  simp only [places, counterpart, List.getElem_map, List.getElem_finRange]
  rfl

theorem nodeList_requiring :
    (net.requiring b).nodeList = net.nodeList.map (Node.requiring b) :=
  Array.toList_map

/-- Nodes of a sort that requiring insert nodes leaves as it is are counterparts of such nodes. -/
theorem filter_nodeList_requiring {p : NodeKind → Bool}
    (hp : ∀ kind, p (kind.requiring b) = p kind) :
    (net.requiring b).nodeList.filter (fun node => p node.kind) =
      (net.nodeList.filter fun node => p node.kind).map (Node.requiring b) := by
  rw [nodeList_requiring, List.filter_map]
  exact congrArg _ (List.filter_congr fun node _ => hp node.kind)

/-- So are places of such nodes. -/
theorem filter_map_counterpart {p : NodeKind → Bool} (hp : ∀ kind, p (kind.requiring b) = p kind)
    (vertices : List (Fin net.size)) :
    (vertices.map (net.counterpart b)).filter (fun v => p ((net.requiring b).node v).kind) =
      (vertices.filter fun v => p (net.node v).kind).map (net.counterpart b) := by
  rw [List.filter_map]
  refine congrArg _ (List.filter_congr fun v _ => ?_)
  rw [Function.comp_apply, node_counterpart]
  exact hp (net.node v).kind

theorem links_requiring :
    (net.requiring b).links = net.links.map (Link.along (net.counterpart b)) :=
  rfl

theorem carriesObjects_counterpart (link : Link net.size) :
    (net.requiring b).carriesObjects (link.along (net.counterpart b)) =
      net.carriesObjects link := by
  rw [carriesObjects, carriesObjects, Link.along, node_counterpart, Node.requiring,
    NodeKind.isValue_requiring]

theorem outgoing_counterpart (v : Fin net.size) :
    (net.requiring b).outgoing (net.counterpart b v) =
      (net.outgoing v).map (Link.along (net.counterpart b)) := by
  rw [outgoing_eq_filter, outgoing_eq_filter, links_requiring, List.filter_map]
  refine congrArg _ (List.filter_congr fun link _ => ?_)
  simp [Link.along, (net.counterpart_injective b).eq_iff]

theorem incoming_counterpart (v : Fin net.size) :
    (net.requiring b).incoming (net.counterpart b v) =
      (net.incoming v).map (Link.along (net.counterpart b)) := by
  rw [incoming_eq_filter, incoming_eq_filter, links_requiring, List.filter_map]
  refine congrArg _ (List.filter_congr fun link _ => ?_)
  simp [Link.along, (net.counterpart_injective b).eq_iff]

theorem behind_counterpart (v : Fin net.size) :
    (net.requiring b).behind (net.counterpart b v) = (net.behind v).map (net.counterpart b) := by
  rw [behind, behind, outgoing_counterpart, List.map_map, List.map_map]
  rfl

theorem objectsBehind_counterpart (v : Fin net.size) :
    (net.requiring b).objectsBehind (net.counterpart b v) =
      (net.objectsBehind v).map (net.counterpart b) := by
  have hcarries : (net.requiring b).carriesObjects ∘ Link.along (net.counterpart b) =
      net.carriesObjects := funext fun link => net.carriesObjects_counterpart b link
  rw [objectsBehind, objectsBehind, objectLinks, objectLinks, outgoing_counterpart,
    List.filter_map, hcarries, List.map_map, List.map_map]
  rfl

theorem objectOrder_requiring :
    (net.requiring b).objectOrder = net.objectOrder.map (net.counterpart b) := by
  rw [objectOrder, places_requiring]
  exact Digraph.schedule_cast _ (net.objectsBehind_counterpart b) net.places

/-! ### Validation -/

theorem terminalFindings_requiring :
    (net.requiring b).terminalFindings = net.terminalFindings := by
  rw [terminalFindings, terminalFindings,
    net.filter_nodeList_requiring b (NodeKind.isTerminal_requiring b)]
  generalize net.nodeList.filter (fun node => node.kind.isTerminal) = terminals
  rcases terminals with _ | ⟨first, _ | ⟨second, rest⟩⟩
  · rfl
  · rfl
  · simp [Node.requiring, Function.comp_def]

theorem idFindings_requiring : (net.requiring b).idFindings = net.idFindings := by
  rw [idFindings, idFindings, nodeList_requiring, List.map_map]
  rfl

theorem nameFindings_requiring : (net.requiring b).nameFindings = net.nameFindings := by
  simp only [nameFindings, net.filter_nodeList_requiring b (NodeKind.isVariable_requiring b),
    List.map_map, List.filter_map]
  rfl

theorem refusal?_counterpart (link : Link net.size) :
    (net.requiring b).refusal? (link.along (net.counterpart b)) = net.refusal? link := by
  rw [refusal?, refusal?, carriesObjects_counterpart, Link.along, node_counterpart]
  simp [Node.requiring]

theorem edgeFindings_requiring : (net.requiring b).edgeFindings = net.edgeFindings := by
  rw [edgeFindings, edgeFindings, links_requiring, List.filterMap_map]
  refine congrArg _ (List.filterMap_congr fun link _ => ?_)
  rw [Function.comp_apply, refusal?_counterpart]
  simp [Link.along]

theorem findCycle?_requiring : (net.requiring b).findCycle? = net.findCycle? := by
  rw [findCycle?, findCycle?, Digraph.closedPath?_cast _ (net.behind_counterpart b), Option.map_map]
  refine congrArg (Option.map · _) (funext fun path => ?_)
  simp only [Function.comp_apply, List.map_map]
  exact List.map_congr_left fun v _ => net.id_counterpart b v

/-- Validation finds the same. -/
theorem findings_requiring (limits : Limits) :
    (net.requiring b).findings limits = net.findings limits := by
  have hsize : (net.requiring b).size = net.size := Array.size_map
  rw [findings, findings, terminalFindings_requiring, idFindings_requiring,
    nameFindings_requiring, edgeFindings_requiring, findCycle?_requiring, hsize,
    nodeList_requiring, List.flatMap_map]
  simp

/-! ### Evaluation -/

theorem valuePlaces_requiring :
    (net.requiring b).valuePlaces = net.valuePlaces.map (net.counterpart b) := by
  rw [valuePlaces, valuePlaces, places_requiring]
  exact net.filter_map_counterpart b (NodeKind.isValue_requiring b) _

theorem valuesBehind_counterpart (v : Fin net.size) :
    (net.requiring b).valuesBehind (net.counterpart b v) =
      (net.valuesBehind v).map (net.counterpart b) := by
  rw [valuesBehind, valuesBehind, behind_counterpart]
  exact net.filter_map_counterpart b (NodeKind.isValue_requiring b) _

theorem valueOrder_requiring :
    (net.requiring b).valueOrder = net.valueOrder.map (net.counterpart b) := by
  rw [valueOrder, valuePlaces_requiring]
  exact Digraph.schedule_cast _ (net.valuesBehind_counterpart b) net.valuePlaces

/-- Values by the places of counterparts. -/
def counterparts (known : net.PlaceValues) : (net.requiring b).PlaceValues :=
  known.map fun (v, value) => (net.counterpart b v, value)

theorem lookup_counterparts (known : net.PlaceValues) (v : Fin net.size) :
    (net.counterparts b known).lookup (net.counterpart b v) = known.lookup v := by
  induction known with
  | nil => rfl
  | cons entry rest ih =>
    rw [counterparts] at ih
    rw [counterparts, List.map_cons, List.lookup_cons, List.lookup_cons, ih]
    simp only [BEq.beq, (net.counterpart_injective b).eq_iff]

theorem inputs_counterpart (known : net.PlaceValues) (v : Fin net.size) :
    (net.requiring b).inputs (net.counterparts b known) (net.counterpart b v) =
      net.inputs known v := by
  have hcarries : (fun link => !(net.requiring b).carriesObjects link) ∘
      Link.along (net.counterpart b) = fun link => !net.carriesObjects link :=
    funext fun link => congrArg _ (net.carriesObjects_counterpart b link)
  rw [inputs, inputs, incoming_counterpart, List.filter_map, hcarries, List.map_map]
  refine List.map_congr_left fun link _ => ?_
  simp [Link.along, lookup_counterparts]

theorem valuesOf_map_counterpart (order : List (Fin net.size)) :
    (net.requiring b).valuesOf (order.map (net.counterpart b)) =
      net.counterparts b (net.valuesOf order) := by
  have hnone : ([] : (net.requiring b).PlaceValues) = net.counterparts b [] := rfl
  rw [valuesOf, valuesOf, List.foldl_map, hnone]
  refine List.foldl_hom (net.counterparts b) fun known v => ?_
  rw [inputs_counterpart, node_counterpart, Node.requiring, NodeKind.value_requiring]
  rfl

/-- The values are the same. -/
theorem evaluate_requiring : (net.requiring b).evaluate = net.evaluate := by
  have hstuck : (net.valuePlaces.map (net.counterpart b)).filter
      (fun v => v ∉ net.valueOrder.map (net.counterpart b)) =
        (net.valuePlaces.filter fun v => v ∉ net.valueOrder).map (net.counterpart b) := by
    rw [List.filter_map]
    refine congrArg _ (List.filter_congr fun v _ => ?_)
    simp only [Function.comp_apply, List.mem_map_of_injective (net.counterpart_injective b)]
  rw [evaluate, evaluate]
  simp only [valueOrder_requiring, valuePlaces_requiring, hstuck, valuesOf_map_counterpart]
  rcases net.valuePlaces.filter fun v => v ∉ net.valueOrder with _ | ⟨first, rest⟩
  · simp [lookup_counterparts]
  · simp

/-! ### Preparation -/

theorem terminals_requiring :
    (net.requiring b).terminals =
      net.terminals.map fun (output, canvas) => (output, { canvas with requireInsert := b }) := by
  rw [terminals, terminals, nodeList_requiring, List.filterMap_map, List.map_filterMap]
  refine List.filterMap_congr fun node _ => ?_
  obtain ⟨_, _, kind⟩ := node
  cases kind <;> rfl

theorem terminal?_requiring :
    (net.requiring b).terminal? =
      net.terminal?.map fun (output, canvas) => (output, { canvas with requireInsert := b }) := by
  rw [terminal?, terminal?, terminals_requiring]
  rcases net.terminals with _ | ⟨first, _ | ⟨second, rest⟩⟩ <;> rfl

/-- What is prepared differs in the canvas, and in the network that it is made for. -/
theorem prepare_requiring (limits : Limits) :
    (net.requiring b).prepare limits = (net.prepare limits).map fun prepared =>
      { prepared with
        network := net.requiring b
        canvas := { prepared.canvas with requireInsert := b } } := by
  rw [prepare, prepare, findings_requiring, terminal?_requiring, evaluate_requiring]
  split
  · rfl
  · rcases net.terminal? with _ | ⟨output, canvas⟩
    · rfl
    · cases net.evaluate <;> rfl

end Network

end SceneFlow
