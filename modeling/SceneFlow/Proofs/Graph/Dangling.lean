import SceneFlow.Proofs.Graph.Construction
import SceneFlow.Value.Evaluation

/-!
# Dangling edges

An edge of a graph is attached just if the nodes that it names are there and it enters a merge node,
if it does enter one, at an input port that the node has. All other edges are dangling. Nothing runs
along them, so a graph from which they are taken away has the same network but for its list of
dangling edges and its fingerprint, and every question about it has the same answer.

## Main definitions

* `Graph.Attaches`: the edges that are attached.
* `Graph.dropEdges`, `Network.withoutDangling`: a graph without some of its edges, and the network
  that is left.
* `Network.SameAnswers`: two networks cannot be told apart by questions.

## Main results

* `Network.xor_mem_map_edge`, `Network.map_edge_append_perm`: every edge is either attached or
  dangling.
* `Network.mem_map_edge_links_iff`: which edges are attached.
* `Network.ofGraph_dropEdges`: the network of a graph without its dangling edges.
-/

namespace SceneFlow

namespace Graph

/-- The first node with a name, which is the one that is meant by it. -/
def node? (graph : Graph) (id : NodeId) : Option RawNode :=
  graph.nodes.find? fun raw => raw.id = id

/-- An edge leads from a node of the graph to another, and if this is a merge node, to one of its
input ports. -/
structure Attaches (graph : Graph) (edge : Edge) : Prop where
  /-- There is a node that it leaves. -/
  source : edge.source ∈ graph.nodes.map RawNode.id
  /-- There is a node that it enters. -/
  target : edge.target ∈ graph.nodes.map RawNode.id
  /-- A merge node has the port. -/
  port : ∀ raw node data, graph.node? edge.target = some raw → Node.ofRaw raw = .ok node →
    node.kind = .merge data →
      ∃ number < data.inputCount.toNat, edge.targetPort.text = "input-" ++ toString number

/-- The graph without some of its edges. -/
def dropEdges (graph : Graph) (edges : List Edge) : Graph :=
  { graph with edges := graph.edges.filter fun edge => edge ∉ edges }

end Graph

/-- The ports of a merge node are numbered from zero on. -/
theorem Merge.contains_ports_iff (data : Merge) (port : PortId) :
    data.ports.contains port = true ↔
      ∃ number < data.inputCount.toNat, port.text = "input-" ++ toString number := by
  rw [List.contains_iff_mem, Merge.ports, List.mem_map]
  simp only [List.mem_range]
  refine exists_congr fun number => and_congr_right fun _ => ?_
  exact ⟨fun heq => heq ▸ rfl, fun htext => (congrArg PortId.mk htext).symm⟩

namespace Network

variable {graph : Graph} {net : Network}

/-! ### Attached edges -/

/-- The edges that are kept by a function that leaves them as they are. -/
private theorem map_filterMap_eq_filter {α β : Type} {f : α → Option β} {g : β → α} {list : List α}
    (h : ∀ a b, f a = some b → g b = a) :
    (list.filterMap f).map g = list.filter fun a => (f a).isSome := by
  rw [List.map_filterMap, ← List.filterMap_eq_filter]
  refine List.filterMap_congr fun a _ => ?_
  cases hf : f a with
  | none => simp [Option.guard, hf]
  | some b => simp [Option.guard, hf, h a b hf]

section OfGraph

variable (hnet : ofGraph graph = .ok net)
include hnet

/-- A name means the same node in a graph and in its network. -/
theorem map_ofRaw_node? (id : NodeId) :
    (graph.node? id).map Node.ofRaw = (net.find? id).map fun v => .ok (net.node v) := by
  let named : Except PayloadError Node → Bool :=
    fun read => read.toOption.any fun node => node.id = id
  have hraws : (graph.node? id).map Node.ofRaw = (graph.nodes.map Node.ofRaw).find? named := by
    rw [List.find?_map, Graph.node?]
    refine congrArg _ (List.find?_congr fun raw hraw => ?_)
    obtain ⟨v, hv⟩ := exists_node hnet hraw
    rw [Function.comp_apply, hv, ← Node.id_of_ofRaw hv]
    rfl
  rw [hraws, map_ofRaw_eq hnet, List.find?_map]
  match hfind : net.find? id with
  | some v =>
    obtain ⟨hv, hfirst⟩ := Array.findFinIdx?_eq_some_iff.mp hfind
    have hnode : net.nodeList.find? (named ∘ .ok) = some (net.node v) :=
      List.find?_eq_some_iff_getElem.mpr ⟨hv, v, v.isLt, rfl, fun u hu => by
        simpa [named, Except.toOption, nodeList] using hfirst ⟨u, hu.trans v.isLt⟩ hu⟩
    rw [hnode, Option.map_some, Option.map_some]
  | none =>
    have hnone := Array.findFinIdx?_eq_none_iff.mp hfind
    have hnodes : net.nodeList.find? (named ∘ .ok) = none :=
      List.find?_eq_none.mpr fun node hnode => hnone node (Array.mem_toList_iff.mp hnode)
    rw [hnodes, Option.map_none, Option.map_none]

theorem isSome_find?_iff (id : NodeId) :
    (net.find? id).isSome = true ↔ id ∈ graph.nodes.map RawNode.id := by
  rw [find?, place?, Array.isSome_findFinIdx?, ← map_id_eq hnet, nodeList, ← Array.any_toList,
    List.any_eq_true, List.mem_map]
  simp only [decide_eq_true_iff]

/-- An edge is attached if its nodes and its port are there. -/
theorem isSome_link?_iff (edge : Edge) :
    (link? net.nodes edge).isSome = true ↔ graph.Attaches edge := by
  rw [Option.isSome_iff_exists]
  simp only [link?_eq_some_iff_attach, attach_eq_ok_iff]
  constructor
  · rintro ⟨link, rfl, hsource, htarget, haccepts⟩
    refine ⟨(isSome_find?_iff hnet _).mp (Option.isSome_of_eq_some hsource),
      (isSome_find?_iff hnet _).mp (Option.isSome_of_eq_some htarget),
      fun raw node data hraw hnode hkind => ?_⟩
    have hread := map_ofRaw_node? hnet link.edge.target
    rw [hraw, Option.map_some, hnode, find?, htarget, Option.map_some, Option.some.injEq,
      Except.ok.injEq] at hread
    subst hread
    rw [← Merge.contains_ports_iff]
    change (net.node link.target).kind.accepts _ = true at haccepts
    rwa [hkind] at haccepts
  · rintro ⟨hsource, htarget, hport⟩
    obtain ⟨v, hv⟩ := Option.isSome_iff_exists.mp ((isSome_find?_iff hnet _).mpr hsource)
    obtain ⟨w, hw⟩ := Option.isSome_iff_exists.mp ((isSome_find?_iff hnet _).mpr htarget)
    refine ⟨⟨edge, v, w⟩, rfl, hv, hw, ?_⟩
    have hread := map_ofRaw_node? hnet edge.target
    rw [hw, Option.map_some, Option.map_eq_some_iff] at hread
    obtain ⟨raw, hraw, hnode⟩ := hread
    change (net.node w).kind.accepts _ = true
    cases hkind : (net.node w).kind with
    | merge data => exact (data.contains_ports_iff _).mpr (hport raw _ data hraw hnode hkind)
    | _ => rfl

/-! ### Every edge is attached or dangling -/

/-- The attached edges, in the order of their names. -/
theorem map_edge_links :
    net.links.map Link.edge
      = (sortEdges graph.edges).filter fun edge => (link? net.nodes edge).isSome := by
  rw [links_of_ofGraph hnet]
  exact map_filterMap_eq_filter fun edge link hlink =>
    (attach_eq_ok_iff.mp (link?_eq_some_iff_attach.mp hlink)).1

/-- The dangling edges, in the order of their names. -/
theorem map_edge_dangling :
    net.dangling.map DanglingEdge.edge
      = (sortEdges graph.edges).filter fun edge => !(link? net.nodes edge).isSome := by
  have hisSome : ∀ edge, (dangling? net.nodes edge).isSome = !(link? net.nodes edge).isSome := by
    intro edge
    rw [dangling?, link?]
    cases attach net.nodes edge <;> rfl
  rw [dangling_of_ofGraph hnet, map_filterMap_eq_filter, funext hisSome]
  intro edge dangling hdangling
  rw [dangling?] at hdangling
  split at hdangling
  · cases hdangling
  · rw [← Option.some.inj hdangling]

/-- Attached and dangling edges together are the edges of the graph, each as often as there. -/
theorem map_edge_append_perm :
    (net.links.map Link.edge ++ net.dangling.map DanglingEdge.edge).Perm graph.edges := by
  rw [map_edge_links hnet, map_edge_dangling hnet]
  exact (List.filter_append_perm _ _).trans (List.mergeSort_perm _ _)

/-- The attached edges are those whose nodes and ports are there. -/
theorem mem_map_edge_links_iff {edge : Edge} (hedge : edge ∈ graph.edges) :
    edge ∈ net.links.map Link.edge ↔ graph.Attaches edge := by
  rw [map_edge_links hnet, List.mem_filter, ← isSome_link?_iff hnet]
  exact and_iff_right (List.mem_mergeSort.mpr hedge)

theorem mem_map_edge_dangling_iff {edge : Edge} (hedge : edge ∈ graph.edges) :
    edge ∈ net.dangling.map DanglingEdge.edge ↔ ¬ graph.Attaches edge := by
  rw [map_edge_dangling hnet, List.mem_filter, ← isSome_link?_iff hnet, Bool.not_eq_true']
  rw [Bool.not_eq_true]
  exact and_iff_right (List.mem_mergeSort.mpr hedge)

/-- An edge is either attached or dangling. -/
theorem xor_mem_map_edge {edge : Edge} (hedge : edge ∈ graph.edges) :
    Xor (edge ∈ net.links.map Link.edge) (edge ∈ net.dangling.map DanglingEdge.edge) := by
  rw [xor_iff_iff_not, mem_map_edge_links_iff hnet hedge, mem_map_edge_dangling_iff hnet hedge,
    not_not]

end OfGraph

/-! ### Graphs without dangling edges -/

/-- What is left of a network without its dangling edges. This can be seen through, so that the
places of the one network are the places of the other. -/
abbrev withoutDangling (net : Network) (fingerprint : Fingerprint) : Network :=
  { net with dangling := [], fingerprint }

/-- The network of a graph without its dangling edges. -/
theorem ofGraph_dropEdges (hnet : ofGraph graph = .ok net) :
    let kept := graph.dropEdges (net.dangling.map DanglingEdge.edge)
    ofGraph kept = .ok (net.withoutDangling kept.fingerprint) := by
  intro kept
  have hkept : sortEdges kept.edges
      = (sortEdges graph.edges).filter fun edge => (link? net.nodes edge).isSome := by
    rw [← sortEdges_filter]
    refine congrArg _ (List.filter_congr fun edge hedge => ?_)
    rw [Bool.eq_iff_iff, decide_eq_true_iff, mem_map_edge_dangling_iff hnet hedge,
      isSome_link?_iff hnet, not_not]
  have hlinks : (sortEdges kept.edges).filterMap (link? net.nodes) = net.links := by
    rw [hkept, links_of_ofGraph hnet, List.filterMap_filter]
    refine List.filterMap_congr fun edge _ => ?_
    cases link? net.nodes edge <;> rfl
  have hdangling : (sortEdges kept.edges).filterMap (dangling? net.nodes) = [] := by
    rw [hkept, List.filterMap_eq_nil_iff]
    intro edge hedge
    have hisSome := (List.mem_filter.mp hedge).2
    rw [link?] at hisSome
    rw [dangling?]
    cases hattach : attach net.nodes edge with
    | ok link => rfl
    | error reason =>
      rw [hattach] at hisSome
      cases hisSome
  obtain ⟨nodes, hnodes, rfl⟩ := ofGraph_eq_ok_iff.mp hnet
  refine ofGraph_eq_ok_iff.mpr ⟨nodes, hnodes, ?_⟩
  rw [show (sortEdges kept.edges).filterMap (link? nodes.toArray) = _ from hlinks,
    show (sortEdges kept.edges).filterMap (dangling? nodes.toArray) = _ from hdangling]
  rfl

/-! ### Questions -/

/-- Two networks have the same answers to every question but those for dangling edges and for the
fingerprint. -/
structure SameAnswers (net other : Network) : Prop where
  /-- They have the same nodes. -/
  nodes : net.nodes = other.nodes
  /-- The nodes before a node are the same. -/
  upstreamNodes : ∀ id, net.upstreamNodes id = other.upstreamNodes id
  /-- The nodes behind a node are the same. -/
  downstreamNodes : ∀ id, net.downstreamNodes id = other.downstreamNodes id
  /-- The objects that can reach a node are the same. -/
  upstreamObjects : ∀ id, net.upstreamObjects id = other.upstreamObjects id
  /-- The variables that can be seen from a node are the same. -/
  visibleVariables : ∀ id, net.visibleVariables id = other.visibleVariables id
  /-- The share of an edge in the objects that reach a node is the same. -/
  branch : ∀ source edge, net.branch source edge = other.branch source edge
  /-- The input ports of merge nodes are the same. -/
  mergePorts? : ∀ id, net.mergePorts? id = other.mergePorts? id
  /-- The closed path that is told is the same. -/
  findCycle? : net.findCycle? = other.findCycle?
  /-- The values of the variables are the same. -/
  evaluate : net.evaluate = other.evaluate

section WithoutDangling

variable (net : Network) (fingerprint : Fingerprint)

theorem require_withoutDangling (id : NodeId) :
    (net.withoutDangling fingerprint).require id = net.require id := by
  have hfind : (net.withoutDangling fingerprint).find? id = net.find? id := rfl
  rw [require, require, hfind]
  cases net.find? id <;> rfl

theorem walkUp_withoutDangling (follow : Link net.size → Bool) (stops : Fin net.size → Bool)
    (start : Fin net.size) :
    (net.withoutDangling fingerprint).walkUp follow stops start
      = net.walkUp follow stops start := by
  have hbefore : (net.withoutDangling fingerprint).before follow = net.before follow := rfl
  rw [walkUp, walkUp, hbefore]
  cases Digraph.walkFrom (Digraph.walkSteps (net.before follow)) (net.before follow) stops .fresh
    start <;> rfl

theorem objectsAt_withoutDangling (v : Fin net.size) :
    (net.withoutDangling fingerprint).objectsAt v = net.objectsAt v := by
  rw [objectsAt, objectsAt, walkUp_withoutDangling]
  rfl

theorem shareOut_withoutDangling (all : List NodeId) (edge : EdgeId) (links : List (Link net.size))
    (free taken : List NodeId) :
    (net.withoutDangling fingerprint).shareOut all edge links free taken
      = net.shareOut all edge links free taken := by
  induction links generalizing free taken with
  | nil => rfl
  | cons link links ih =>
    rw [shareOut, shareOut]
    exact if_congr Iff.rfl rfl (ih _ _)

theorem evaluate_withoutDangling :
    (net.withoutDangling fingerprint).evaluate = net.evaluate := by
  let other := net.withoutDangling fingerprint
  have hstuck : (other.valuePlaces.filter fun v => v ∉ other.valueOrder)
      = net.valuePlaces.filter fun v => v ∉ net.valueOrder := rfl
  rw [evaluate, evaluate]
  dsimp only
  rw [hstuck]
  cases net.valuePlaces.filter fun v => v ∉ net.valueOrder <;> rfl

/-- No other question is about dangling edges or the fingerprint. -/
theorem sameAnswers_withoutDangling : net.SameAnswers (net.withoutDangling fingerprint) where
  nodes := rfl
  upstreamNodes id := by
    rw [upstreamNodes, upstreamNodes, require_withoutDangling]
    rfl
  downstreamNodes id := by
    rw [downstreamNodes, downstreamNodes, require_withoutDangling]
    rfl
  upstreamObjects id := by
    rw [upstreamObjects, upstreamObjects, require_withoutDangling]
    exact congrArg _ (funext fun v => (net.objectsAt_withoutDangling fingerprint v).symm)
  visibleVariables id := by
    rw [visibleVariables, visibleVariables, require_withoutDangling]
    refine congrArg _ (funext fun v => ?_)
    rw [walkUp_withoutDangling]
    rfl
  branch source edge := by
    rw [branch, branch, require_withoutDangling]
    refine congrArg _ (funext fun v => ?_)
    rw [objectsAt_withoutDangling]
    exact congrArg _ (funext fun _ => (net.shareOut_withoutDangling fingerprint _ _ _ _ _).symm)
  mergePorts? _ := rfl
  findCycle? := rfl
  evaluate := (net.evaluate_withoutDangling fingerprint).symm

end WithoutDangling

end Network

end SceneFlow
