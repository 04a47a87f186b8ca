import Mathlib
import SceneFlow.Proofs.Graph.Part

/-!
# Networks of graphs

The nodes of a network are those of its graph with their payloads read, and its links are the edges
that can be attached, in the order of their names. Edges of one name stay in their order, so
dropping edges and sorting can be done in any order. So the network of a graph from which some
drawable nodes are taken away, with the edges that leave them, is a part of the network of the
graph; and so is the network of a graph that is written down in another order.

## Main results

* `Network.sortEdges_filter`, `Network.sortEdges_eq_of_perm`: sorting edges.
* `Network.attach_eq_ok_iff`, `Network.link?_eq_some_iff`: when an edge is attached, and where.
* `Network.mem_links_iff`: the links of the network of a graph.
* `Network.nonempty_part`: when the network of a graph is part of that of another.
-/

namespace SceneFlow

/-- What is told from the images of items is equal if the images are. -/
theorem map_eq_of_map_eq {α β γ δ : Type} {list : List α} {other : List β} {f : α → γ} {g : β → γ}
    {p : α → δ} {q : β → δ} (h : list.map f = other.map g) (hpq : ∀ a b, f a = g b → p a = q b) :
    list.map p = other.map q := by
  induction list generalizing other with
  | nil => rw [List.map_eq_nil_iff.mp h.symm, List.map_nil, List.map_nil]
  | cons a list ih =>
    match other with
    | [] => simp at h
    | b :: other =>
      rw [List.map_cons, List.map_cons, List.cons.injEq] at h
      rw [List.map_cons, List.map_cons, hpq a b h.1, ih h.2]

/-! ### Nodes -/

namespace Node

theorem ofRaws_eq_ok_iff (raws : List RawNode) (nodes : List Node) :
    ofRaws raws = .ok nodes ↔ raws.map ofRaw = nodes.map .ok := by
  induction raws generalizing nodes with
  | nil => cases nodes <;> simp [ofRaws]
  | cons raw rest ih =>
    rw [ofRaws]
    match hraw : ofRaw raw with
    | .error cause => cases nodes <;> simp [hraw, Bind.bind, Except.bind]
    | .ok node =>
      match hrest : ofRaws rest with
      | .error cause =>
        have hnot : ∀ list : List Node, rest.map ofRaw ≠ list.map .ok := fun list heq => by
          have hok := (ih list).mpr heq
          simp [hrest] at hok
        cases nodes with
        | nil => simp [Bind.bind, Except.bind]
        | cons first more => simp [Bind.bind, Except.bind, hraw, hnot more]
      | .ok list =>
        have hlist := (ih list).mp hrest
        cases nodes with
        | nil => simp [Bind.bind, Except.bind]
        | cons first more =>
          simp only [Bind.bind, Except.bind, List.map_cons, hraw, hlist, List.cons.injEq,
            Except.ok.injEq]
          refine and_congr_right fun _ => ⟨congrArg _, fun heq => ?_⟩
          exact List.map_injective_iff.mpr (fun _ _ => Except.ok.inj) heq

/-- The nodes of some documents can be read if the payload of each can. -/
theorem exists_ofRaws_eq_ok_iff (raws : List RawNode) :
    (∃ nodes, ofRaws raws = .ok nodes) ↔ ∀ raw ∈ raws, ∃ node, ofRaw raw = .ok node := by
  simp only [ofRaws_eq_ok_iff]
  constructor
  · rintro ⟨nodes, heq⟩ raw hraw
    have hmem : ofRaw raw ∈ nodes.map .ok := heq ▸ List.mem_map_of_mem hraw
    obtain ⟨node, -, hnode⟩ := List.mem_map.mp hmem
    exact ⟨node, hnode.symm⟩
  · intro h
    induction raws with
    | nil => exact ⟨[], rfl⟩
    | cons raw rest ih =>
      obtain ⟨node, hnode⟩ := h raw List.mem_cons_self
      obtain ⟨nodes, hnodes⟩ := ih fun other hother => h other (List.mem_cons_of_mem _ hother)
      exact ⟨node :: nodes, by rw [List.map_cons, List.map_cons, hnode, hnodes]⟩

theorem id_of_ofRaw {raw : RawNode} {node : Node} (h : ofRaw raw = .ok node) :
    node.id = raw.id := by
  rw [ofRaw] at h
  split at h
  · rw [← Except.ok.inj h]
  · simp at h

end Node

namespace Network

section OfGraph

variable {graph : Graph} {net : Network}

theorem ofGraph_eq_ok_iff : ofGraph graph = .ok net ↔
    ∃ nodes, Node.ofRaws graph.nodes = .ok nodes ∧
      net = ofLinks nodes.toArray ((sortEdges graph.edges).filterMap (link? nodes.toArray))
        ((sortEdges graph.edges).filterMap (dangling? nodes.toArray)) graph.fingerprint := by
  rw [ofGraph]
  match Node.ofRaws graph.nodes with
  | .error cause => simp [Bind.bind, Except.bind]
  | .ok nodes => simp [Bind.bind, Except.bind, eq_comm]

/-- A graph has a network if the payload of every node can be read. -/
theorem exists_ofGraph_eq_ok_iff (graph : Graph) :
    (∃ net, ofGraph graph = .ok net) ↔
      ∀ raw ∈ graph.nodes, ∃ node, Node.ofRaw raw = .ok node := by
  rw [← Node.exists_ofRaws_eq_ok_iff]
  constructor
  · rintro ⟨net, hnet⟩
    obtain ⟨nodes, hnodes, -⟩ := ofGraph_eq_ok_iff.mp hnet
    exact ⟨nodes, hnodes⟩
  · rintro ⟨nodes, hnodes⟩
    exact ⟨_, ofGraph_eq_ok_iff.mpr ⟨nodes, hnodes, rfl⟩⟩

variable (hnet : ofGraph graph = .ok net)
include hnet

theorem links_of_ofGraph : net.links = (sortEdges graph.edges).filterMap (link? net.nodes) := by
  obtain ⟨nodes, -, rfl⟩ := ofGraph_eq_ok_iff.mp hnet
  rfl

theorem dangling_of_ofGraph :
    net.dangling = (sortEdges graph.edges).filterMap (dangling? net.nodes) := by
  obtain ⟨nodes, -, rfl⟩ := ofGraph_eq_ok_iff.mp hnet
  rfl

theorem map_ofRaw_eq : graph.nodes.map Node.ofRaw = net.nodeList.map .ok := by
  obtain ⟨nodes, hnodes, rfl⟩ := ofGraph_eq_ok_iff.mp hnet
  exact (Node.ofRaws_eq_ok_iff _ _).mp hnodes

/-- Every node has been read from one of the graph. -/
theorem exists_raw (v : Fin net.size) :
    ∃ raw ∈ graph.nodes, Node.ofRaw raw = .ok (net.node v) := by
  have hmem : Except.ok (net.node v) ∈ graph.nodes.map Node.ofRaw := by
    rw [map_ofRaw_eq hnet, nodeList_eq, List.map_map]
    exact List.mem_map.mpr ⟨v, mem_places v, rfl⟩
  exact List.mem_map.mp hmem

/-- Every node of the graph has been read. -/
theorem exists_node {raw : RawNode} (hraw : raw ∈ graph.nodes) :
    ∃ v, Node.ofRaw raw = .ok (net.node v) := by
  have hmem : Node.ofRaw raw ∈ net.nodeList.map .ok := by
    rw [← map_ofRaw_eq hnet]
    exact List.mem_map_of_mem hraw
  rw [nodeList_eq, List.map_map] at hmem
  obtain ⟨v, -, hv⟩ := List.mem_map.mp hmem
  exact ⟨v, hv.symm⟩

theorem map_id_eq : net.nodeList.map Node.id = graph.nodes.map RawNode.id :=
  map_eq_of_map_eq (map_ofRaw_eq hnet).symm fun _ _ hnode => Node.id_of_ofRaw hnode.symm

/-- Nodes have names of their own if this is so in the graph. -/
theorem id_injective_of_nodup (h : (graph.nodes.map RawNode.id).Nodup) :
    Function.Injective net.id := by
  rw [← map_id_eq hnet, nodeList_eq, List.map_map] at h
  exact fun u v huv => List.inj_on_of_nodup_map h (mem_places u) (mem_places v) huv

end OfGraph

/-! ### Edges -/

section SortEdges

private theorem edges_trans (a b c : Edge) (hab : decide (a.id.text ≤ b.id.text) = true)
    (hbc : decide (b.id.text ≤ c.id.text) = true) : decide (a.id.text ≤ c.id.text) = true :=
  decide_eq_true ((of_decide_eq_true hab).trans (of_decide_eq_true hbc))

private theorem edges_total (a b : Edge) :
    (decide (a.id.text ≤ b.id.text) || decide (b.id.text ≤ a.id.text)) = true := by
  simpa using le_total a.id.text b.id.text

theorem pairwise_sortEdges (edges : List Edge) :
    (sortEdges edges).Pairwise fun a b => a.id.text ≤ b.id.text :=
  (List.pairwise_mergeSort edges_trans edges_total edges).imp of_decide_eq_true

/-- What stands before and after a mark is told by a predicate that it separates. -/
private theorem append_inj_of_split {α : Type} {p : α → Bool} {pre post pre' post' : List α}
    (h : pre ++ post = pre' ++ post') (hpre : ∀ a ∈ pre, p a = true)
    (hpost : ∀ a ∈ post, p a = false) (hpre' : ∀ a ∈ pre', p a = true)
    (hpost' : ∀ a ∈ post', p a = false) : pre = pre' ∧ post = post' := by
  have hfilter : ∀ {l m : List α}, (∀ a ∈ l, p a = true) → (∀ a ∈ m, p a = false) →
      (l ++ m).filter p = l := fun hl hm => by
    rw [List.filter_append, List.filter_eq_self.mpr hl,
      List.filter_eq_nil_iff.mpr fun a ha => by simp [hm a ha], List.append_nil]
  have heq : pre = pre' := by rw [← hfilter hpre hpost, h, hfilter hpre' hpost']
  exact ⟨heq, List.append_cancel_left (heq ▸ h)⟩

/-- Sorting keeps the order of edges that are not dropped. -/
theorem sortEdges_filter (p : Edge → Bool) (edges : List Edge) :
    sortEdges (edges.filter p) = (sortEdges edges).filter p := by
  induction edges with
  | nil => simp [sortEdges]
  | cons edge edges ih =>
    obtain ⟨pre, post, hsort, hrest, hpre⟩ :=
      List.mergeSort_cons edges_trans edges_total edge edges
    change sortEdges (edge :: edges) = _ at hsort
    change sortEdges edges = _ at hrest
    by_cases hedge : p edge = true
    · obtain ⟨pre', post', hsort', hrest', hpre'⟩ :=
        List.mergeSort_cons edges_trans edges_total edge (edges.filter p)
      change sortEdges (edge :: edges.filter p) = _ at hsort'
      change sortEdges (edges.filter p) = _ at hrest'
      -- Both ways the edges before the first one are those with smaller names.
      have hafter : ∀ {list l m : List Edge}, sortEdges list = l ++ edge :: m →
          ∀ b ∈ m, decide (edge.id.text ≤ b.id.text) = true := fun {list _ _} hlist b hb => by
        have hpairwise := pairwise_sortEdges list
        rw [hlist, List.pairwise_append, List.pairwise_cons] at hpairwise
        exact decide_eq_true (hpairwise.2.1.1 b hb)
      have hsplit := append_inj_of_split
        (hrest'.symm.trans (ih.trans (by rw [hrest, List.filter_append]))) hpre'
        (fun b hb => by simpa using hafter hsort' b hb)
        (fun b hb => hpre b (List.mem_filter.mp hb).1)
        (fun b hb => by simpa using hafter hsort b (List.mem_filter.mp hb).1)
      rw [List.filter_cons_of_pos hedge, hsort', hsort, List.filter_append,
        List.filter_cons_of_pos hedge, hsplit.1, hsplit.2]
    · rw [List.filter_cons_of_neg hedge, ih, hrest, hsort, List.filter_append, List.filter_append,
        List.filter_cons_of_neg hedge]

/-- Edges of different names are sorted in one way. -/
theorem sortEdges_eq_of_perm {edges other : List Edge} (hperm : edges.Perm other)
    (hnodup : (edges.map Edge.id).Nodup) : sortEdges edges = sortEdges other := by
  have hmem : ∀ list : List Edge, ∀ edge, edge ∈ sortEdges list ↔ edge ∈ list :=
    fun _ _ => List.mem_mergeSort
  refine List.Perm.eq_of_pairwise ?_ (pairwise_sortEdges edges) (pairwise_sortEdges other)
    ((List.mergeSort_perm _ _).trans (hperm.trans (List.mergeSort_perm _ _).symm))
  intro a b ha hb hab hba
  exact List.inj_on_of_nodup_map hnodup ((hmem _ _).mp ha) (hperm.mem_iff.mpr ((hmem _ _).mp hb))
    (congrArg EdgeId.mk (le_antisymm hab hba))

/-- The network of a graph whose edges are in the order of their names. -/
def ofSorted (graph : Graph) : Except PayloadError Network :=
  (Node.ofRaws graph.nodes).map fun nodes =>
    ofLinks nodes.toArray (graph.edges.filterMap (link? nodes.toArray))
      (graph.edges.filterMap (dangling? nodes.toArray)) graph.fingerprint

theorem ofGraph_eq_ofSorted {graph : Graph}
    (h : graph.edges.Pairwise fun a b => a.id.text ≤ b.id.text) :
    ofGraph graph = ofSorted graph := by
  have hsort : sortEdges graph.edges = graph.edges :=
    List.mergeSort_of_pairwise (h.imp fun hle => decide_eq_true hle)
  rw [ofGraph, hsort, ofSorted]
  cases Node.ofRaws graph.nodes <;> rfl

end SortEdges

/-! ### Links -/

/-- An edge is attached where its names are found, if it may enter the second node at its port. -/
theorem attach_eq_ok_iff {nodes : Array Node} {edge : Edge} {link : Link nodes.size} :
    attach nodes edge = .ok link ↔
      link.edge = edge ∧ place? nodes edge.source = some link.source ∧
        place? nodes edge.target = some link.target ∧
        nodes[link.target].kind.accepts edge.targetPort = true := by
  obtain ⟨edge', source, target⟩ := link
  rw [attach]
  split
  · simp [*]
  · simp [*]
  · rename_i hsource htarget
    rw [hsource, htarget, Option.some.injEq, Option.some.injEq]
    split
    · rename_i haccepts
      rw [Except.ok.injEq, Link.mk.injEq]
      constructor
      · rintro ⟨rfl, rfl, rfl⟩
        exact ⟨rfl, rfl, rfl, haccepts⟩
      · rintro ⟨rfl, rfl, rfl, -⟩
        exact ⟨rfl, rfl, rfl⟩
    · rename_i haccepts
      refine iff_of_false (by simp) ?_
      rintro ⟨-, -, rfl, haccepts'⟩
      exact haccepts haccepts'

theorem link?_eq_some_iff_attach {nodes : Array Node} {edge : Edge} {link : Link nodes.size} :
    link? nodes edge = some link ↔ attach nodes edge = .ok link := by
  rw [link?]
  cases attach nodes edge <;> simp [Except.toOption]

/-- A name finds the first node of that name. -/
theorem find?_eq_some_iff {net : Network} {id : NodeId} {v : Fin net.size} :
    net.find? id = some v ↔ net.id v = id ∧ ∀ u < v, net.id u ≠ id := by
  rw [find?, place?, Array.findFinIdx?_eq_some_iff]
  simp only [decide_eq_true_eq]
  rfl

/-- A name that finds no node is not that of a node. -/
theorem find?_eq_none_iff {net : Network} {id : NodeId} :
    net.find? id = none ↔ ∀ v, net.id v ≠ id := by
  rw [find?, place?, Array.findFinIdx?_eq_none_iff]
  simp only [decide_eq_true_eq]
  refine ⟨fun h v => h _ (Array.getElem_mem v.2), fun h node hnode => ?_⟩
  obtain ⟨v, hv, rfl⟩ := Array.mem_iff_getElem.mp hnode
  exact h ⟨v, hv⟩

theorem id_of_find? {net : Network} {id : NodeId} {v : Fin net.size} (h : net.find? id = some v) :
    net.id v = id :=
  (find?_eq_some_iff.mp h).1

/-- An edge is attached to the nodes that it names, if it may enter the second at its port. -/
theorem link?_eq_some_iff {net : Network} (h : Function.Injective net.id) {edge : Edge}
    {link : Link net.size} : link? net.nodes edge = some link ↔
      link.edge = edge ∧ net.id link.source = edge.source ∧ net.id link.target = edge.target ∧
        (net.node link.target).kind.accepts edge.targetPort = true := by
  have hplace : ∀ (id : NodeId) (v : Fin net.size),
      place? net.nodes id = some v ↔ net.id v = id :=
    fun id v => ⟨id_of_find?, fun hv => hv ▸ find?_id h v⟩
  rw [link?_eq_some_iff_attach, attach_eq_ok_iff, hplace, hplace]
  rfl

/-- The links of the network of a graph are its edges that can be attached. -/
theorem mem_links_iff {graph : Graph} {net : Network} (hnet : ofGraph graph = .ok net)
    {link : Link net.size} :
    link ∈ net.links ↔ link.edge ∈ graph.edges ∧ net.find? link.edge.source = some link.source ∧
      net.find? link.edge.target = some link.target ∧
        (net.node link.target).kind.accepts link.edge.targetPort = true := by
  rw [links_of_ofGraph hnet, List.mem_filterMap]
  simp only [link?_eq_some_iff_attach, attach_eq_ok_iff]
  constructor
  · rintro ⟨edge, hedge, rfl, hlink⟩
    exact ⟨List.mem_mergeSort.mp hedge, hlink⟩
  · rintro ⟨hedge, hlink⟩
    exact ⟨link.edge, List.mem_mergeSort.mpr hedge, rfl, hlink⟩

/-- Links are in the order of the names of their edges. -/
theorem pairwise_links {graph : Graph} {net : Network} (hnet : ofGraph graph = .ok net) :
    net.links.Pairwise fun a b => a.edge.id.text ≤ b.edge.id.text := by
  rw [links_of_ofGraph hnet, List.pairwise_filterMap]
  refine (pairwise_sortEdges graph.edges).imp fun {a b} hle link hlink link' hlink' => ?_
  rw [(attach_eq_ok_iff.mp (link?_eq_some_iff_attach.mp hlink)).1,
    (attach_eq_ok_iff.mp (link?_eq_some_iff_attach.mp hlink')).1]
  exact hle

/-- So are the links along which objects leave a node. -/
theorem pairwise_objectLinks {graph : Graph} {net : Network} (hnet : ofGraph graph = .ok net)
    (v : Fin net.size) :
    (net.objectLinks v).Pairwise fun a b => a.edge.id.text ≤ b.edge.id.text := by
  rw [objectLinks, outgoing_eq_filter]
  exact ((pairwise_links hnet).filter _).filter _

/-! ### Parts -/

section Part

variable {graph graph' : Graph} {part whole : Network}

/-- Where the nodes of one network are among those of another, an edge between them gives the same
link in both. -/
theorem map_along_link?_eq_some_iff (hid : Function.Injective whole.id)
    (hid' : Function.Injective part.id) {place : Fin part.size → Fin whole.size}
    (hnode : ∀ v, whole.node (place v) = part.node v) {edge : Edge} {link : Link whole.size} :
    (link? part.nodes edge).map (Link.along place) = some link ↔
      link? whole.nodes edge = some link ∧
        (∃ v, place v = link.source) ∧ ∃ v, place v = link.target := by
  have hsame : ∀ v, whole.id (place v) = part.id v := fun v => congrArg Node.id (hnode v)
  rw [link?_eq_some_iff hid, Option.map_eq_some_iff]
  constructor
  · rintro ⟨link', hlink', rfl⟩
    obtain ⟨heq, hsource, htarget, haccepts⟩ := (link?_eq_some_iff hid').mp hlink'
    refine ⟨⟨heq, ?_, ?_, ?_⟩, ⟨link'.source, rfl⟩, link'.target, rfl⟩
    · rw [Link.along, hsame, hsource]
    · rw [Link.along, hsame, htarget]
    · rw [Link.along, hnode, haccepts]
  · obtain ⟨edge', source, target⟩ := link
    rintro ⟨⟨rfl, hsource, htarget, haccepts⟩, ⟨v, rfl⟩, w, rfl⟩
    dsimp only at hsource htarget haccepts
    rw [hsame] at hsource htarget
    rw [hnode] at haccepts
    exact ⟨⟨edge', v, w⟩, (link?_eq_some_iff hid').mpr ⟨rfl, hsource, htarget, haccepts⟩, rfl⟩

/-- The network of a graph is part of that of another if it has all its nodes but some drawable
ones, and all its edges but some that leave the others. -/
theorem nonempty_part (hwhole : ofGraph graph = .ok whole) (hpart : ofGraph graph' = .ok part)
    (hid : Function.Injective whole.id) (hid' : Function.Injective part.id)
    (hnodes : ∀ raw ∈ graph'.nodes, raw ∈ graph.nodes)
    (hdropped : ∀ raw ∈ graph.nodes, raw ∉ graph'.nodes →
      ∀ node, Node.ofRaw raw = .ok node → node.kind.isDrawable = true) (p : Edge → Bool)
    (hedges : sortEdges graph'.edges = (sortEdges graph.edges).filter p)
    (hdangling : ∀ edge ∈ graph.edges, p edge = false →
      ∀ raw ∈ graph'.nodes, raw.id ≠ edge.source) :
    Nonempty (Part part whole) := by
  have hplace : ∀ v, ∃ u, whole.node u = part.node v := fun v => by
    obtain ⟨raw, hraw, hv⟩ := exists_raw hpart v
    obtain ⟨u, hu⟩ := exists_node hwhole (hnodes raw hraw)
    exact ⟨u, Except.ok.inj (hu.symm.trans hv)⟩
  choose place hnode using hplace
  have hsame : ∀ v, whole.id (place v) = part.id v := fun v => congrArg Node.id (hnode v)
  refine ⟨⟨place, fun v w heq => hid' ?_, hnode, ?_, fun u hu => ?_⟩⟩
  · rw [← hsame v, heq, hsame w]
  · rw [links_of_ofGraph hpart, links_of_ofGraph hwhole, hedges, List.map_filterMap,
      List.filterMap_filter, List.filter_filterMap]
    refine List.filterMap_congr fun edge hedge => Option.ext fun link => ?_
    have hedge : edge ∈ graph.edges := List.mem_mergeSort.mp hedge
    rw [Option.filter_eq_some_iff, decide_eq_true_iff,
      ← map_along_link?_eq_some_iff hid hid' hnode]
    split
    · exact Iff.rfl
    · rename_i hnot
      refine iff_of_false nofun fun hlink => ?_
      obtain ⟨link', hlink', rfl⟩ := Option.map_eq_some_iff.mp hlink
      obtain ⟨-, hsource, -, -⟩ := (link?_eq_some_iff hid').mp hlink'
      obtain ⟨raw, hraw, hv⟩ := exists_raw hpart link'.source
      refine hdangling edge hedge (by simpa using hnot) raw hraw ?_
      rw [← hsource, Network.id, Node.id_of_ofRaw hv]
  · obtain ⟨raw, hraw, hnodeu⟩ := exists_raw hwhole u
    refine hdropped raw hraw (fun hkept => ?_) _ hnodeu
    obtain ⟨v, hv⟩ := exists_node hpart hkept
    refine hu v (hid ?_)
    rw [hsame, Network.id, Network.id, Except.ok.inj (hv.symm.trans hnodeu)]

end Part

end Network

/-! ### Small graphs -/

/-- The network of a graph can be looked at without putting edges in order, if they are in order. -/
theorem exists_ofGraph_of_sorted (graph : Graph) (seen : Network → Bool)
    (hsorted : graph.edges.Pairwise fun a b => a.id.text ≤ b.id.text)
    (h : (match Network.ofSorted graph with
      | .ok net => seen net
      | .error _ => false) = true) :
    ∃ net, Network.ofGraph graph = .ok net ∧ seen net = true := by
  rw [← Network.ofGraph_eq_ofSorted hsorted] at h
  match hnet : Network.ofGraph graph with
  | .error _ => simp [hnet] at h
  | .ok net =>
    simp only [hnet] at h
    exact ⟨net, rfl, h⟩

/-- Small numbers are written as literals. -/
instance neZeroHundred : NeZero 100 :=
  ⟨by decide⟩

/-- A small number. -/
def Json.small (n : Fin 100) : Json :=
  .num (.int n (by omega))

/-- A document of a node. -/
def RawNode.small (id kind : String) (data : List (String × Json)) : RawNode :=
  ⟨⟨id⟩, id, kind, .obj data⟩

/-- A document of a circle. -/
def RawNode.circle (id : String) : RawNode :=
  .small id "geometry" [("shape", .str "circle")]

/-- A document of an edge. -/
def Edge.plain (id source target : String) : Edge :=
  ⟨⟨id⟩, ⟨source⟩, ⟨""⟩, ⟨target⟩, ⟨""⟩⟩

/-- A document of an edge to an input of a merge node. -/
def Edge.input (id source target port : String) : Edge :=
  ⟨⟨id⟩, ⟨source⟩, ⟨""⟩, ⟨target⟩, ⟨port⟩⟩

end SceneFlow
