import SceneFlow.Proofs.Digraph.Walk
import SceneFlow.Proofs.Graph.Construction

/-!
# Circles of a network

A network is searched by places, and answers in names. An attached edge joins the names that it
gives to its ends, and its link leads from the first node of the one name to the first node of the
other. So a circle of places is one of names, and the other way round, also where several nodes have
one name: the later ones are joined to nothing.

## Main definitions

* `Network.Leads`: a link leads from one place to another.
* `Network.Joins`: an attached edge joins two names.

## Main results

* `Network.joins_iff`: edges join names where links lead between the places of these.
* `Network.findCycle?_spec`: the search for a circle finds one exactly if there is one.
-/

namespace SceneFlow

namespace Network

variable {graph : Graph} {net : Network} {follow : Link net.size → Bool}

/-- A link that is followed leads from one place to another. -/
def Leads (net : Network) (follow : Link net.size → Bool) (u v : Fin net.size) : Prop :=
  ∃ link ∈ net.links, follow link = true ∧ link.source = u ∧ link.target = v

/-- An attached edge that is followed joins two names. -/
def Joins (net : Network) (follow : Link net.size → Bool) (id other : NodeId) : Prop :=
  ∃ link ∈ net.links, follow link = true ∧ link.edge.source = id ∧ link.edge.target = other

theorem arc_behind_iff {u v : Fin net.size} :
    Digraph.Arc net.behind u v ↔ net.Leads (fun _ => true) u v := by
  simp [Digraph.Arc, mem_behind_iff, Leads]

theorem arc_before_iff {u v : Fin net.size} :
    Digraph.Arc (net.before follow) v u ↔ net.Leads follow u v := by
  simp only [Digraph.Arc, before, Leads, List.mem_map, List.mem_filter, mem_incoming_iff]
  constructor
  · rintro ⟨link, ⟨⟨hlink, htarget⟩, hfollow⟩, hsource⟩
    exact ⟨link, hlink, hfollow, hsource, htarget⟩
  · rintro ⟨link, hlink, hfollow, hsource, htarget⟩
    exact ⟨link, ⟨⟨hlink, htarget⟩, hfollow⟩, hsource⟩

/-- Edges join names where links lead between the places of these. -/
theorem joins_iff (hnet : ofGraph graph = .ok net) {id other : NodeId} :
    net.Joins follow id other ↔
      ∃ u v, net.find? id = some u ∧ net.find? other = some v ∧ net.Leads follow u v := by
  constructor
  · rintro ⟨link, hlink, hfollow, rfl, rfl⟩
    obtain ⟨-, hsource, htarget, -⟩ := (mem_links_iff hnet).mp hlink
    exact ⟨link.source, link.target, hsource, htarget, link, hlink, hfollow, rfl, rfl⟩
  · rintro ⟨u, v, hu, hv, link, hlink, hfollow, rfl, rfl⟩
    obtain ⟨-, hsource, htarget, -⟩ := (mem_links_iff hnet).mp hlink
    refine ⟨link, hlink, hfollow, ?_, ?_⟩
    · rw [← id_of_find? hsource, id_of_find? hu]
    · rw [← id_of_find? htarget, id_of_find? hv]

/-- A place that a link leads from or to is the one that its name finds. -/
theorem Leads.find?_id (hnet : ofGraph graph = .ok net) {u v : Fin net.size}
    (h : net.Leads follow u v) :
    net.find? (net.id u) = some u ∧ net.find? (net.id v) = some v := by
  obtain ⟨link, hlink, -, rfl, rfl⟩ := h
  obtain ⟨-, hsource, htarget, -⟩ := (mem_links_iff hnet).mp hlink
  rw [id_of_find? hsource, id_of_find? htarget]
  exact ⟨hsource, htarget⟩

theorem Leads.joins (hnet : ofGraph graph = .ok net) {u v : Fin net.size}
    (h : net.Leads follow u v) : net.Joins follow (net.id u) (net.id v) :=
  (joins_iff hnet).mpr ⟨u, v, (h.find?_id hnet).1, (h.find?_id hnet).2, h⟩

/-- Paths of edges between names are paths of links between the places of these. -/
theorem transGen_joins_iff (hnet : ofGraph graph = .ok net) {id other : NodeId} :
    Relation.TransGen (net.Joins follow) id other ↔
      ∃ u v, net.find? id = some u ∧ net.find? other = some v ∧
        Relation.TransGen (net.Leads follow) u v := by
  constructor
  · intro h
    induction h with
    | single h =>
      obtain ⟨u, v, hu, hv, hlead⟩ := (joins_iff hnet).mp h
      exact ⟨u, v, hu, hv, .single hlead⟩
    | tail _ h ih =>
      obtain ⟨u, v, hu, hv, hpath⟩ := ih
      obtain ⟨v', w, hv', hw, hlead⟩ := (joins_iff hnet).mp h
      obtain rfl : v = v' := Option.some.inj (hv.symm.trans hv')
      exact ⟨u, w, hu, hw, hpath.tail hlead⟩
  · rintro ⟨u, v, hu, hv, hpath⟩
    rw [← id_of_find? hu, ← id_of_find? hv]
    exact hpath.lift net.id fun _ _ h => h.joins hnet

/-- A closed path of places is a loop of names. -/
theorem isLoop_map_id (hnet : ofGraph graph = .ok net) {next : Fin net.size → List (Fin net.size)}
    {path : List (Fin net.size)} (h : Digraph.IsClosedPath next path)
    (hnext : ∀ u v, Digraph.Arc next u v → net.Leads follow u v) :
    Digraph.IsLoop (net.Joins follow) (path.map net.id) := by
  refine h.isLoop_map (fun u hu w hw heq => ?_) fun u w harc => (hnext u w harc).joins hnet
  obtain ⟨u', hu'⟩ := h.exists_arc hu
  obtain ⟨w', hw'⟩ := h.exists_arc hw
  have hu := ((hnext u u' hu').find?_id hnet).1
  rw [heq, ((hnext w w' hw').find?_id hnet).1] at hu
  exact (Option.some.inj hu).symm

/-- The search for a circle finds none exactly if no attached edges run in one, and what it finds is
a closed path of attached edges that meets no other name twice. -/
theorem findCycle?_spec (hnet : ofGraph graph = .ok net) :
    (net.findCycle? = none ↔ ∀ id, ¬ Relation.TransGen (net.Joins fun _ => true) id id) ∧
      ∀ path, net.findCycle? = some path → Digraph.IsLoop (net.Joins fun _ => true) path := by
  refine ⟨?_, fun path hpath => ?_⟩
  · rw [findCycle?, Option.map_eq_none_iff, Digraph.closedPath?_eq_none_iff, Digraph.Acyclic,
      show Digraph.Arc net.behind = net.Leads fun _ => true from
        funext₂ fun _ _ => propext arc_behind_iff]
    constructor
    · intro h id hid
      obtain ⟨u, v, hu, hv, hpath⟩ := (transGen_joins_iff hnet).mp hid
      obtain rfl : u = v := Option.some.inj (hu.symm.trans hv)
      exact h u hpath
    · exact fun h v hv => h (net.id v) (hv.lift net.id fun _ _ h => h.joins hnet)
  · rw [findCycle?, Option.map_eq_some_iff] at hpath
    obtain ⟨places, hplaces, rfl⟩ := hpath
    exact isLoop_map_id hnet (Digraph.isClosedPath_of_closedPath? hplaces) fun _ _ =>
      arc_behind_iff.mp

end Network

/-- The circle `c` runs into the circle of `i` and `j`, which has a second entry, a shortcut and a
node of the name `i` beside it. -/
def circling : Graph where
  nodes :=
    [.circle "c", .small "i" "insert" [], .small "j" "insert" [], .small "i" "insert" []]
  edges :=
    [.plain "e1" "c" "i", .plain "e2" "c" "i", .plain "e3" "i" "j", .plain "e4" "j" "i",
      .plain "e5" "j" "j"]

theorem findCycle?_spec_circling :
    ∃ net, Network.ofGraph circling = .ok net ∧
      (¬ ∀ id, ¬ Relation.TransGen (net.Joins fun _ => true) id id) ∧
      Digraph.IsLoop (net.Joins fun _ => true) [⟨"i"⟩, ⟨"j"⟩, ⟨"i"⟩] := by
  obtain ⟨net, hnet, hcycle⟩ := exists_ofGraph_of_sorted circling
    (fun net => net.findCycle? = some [⟨"i"⟩, ⟨"j"⟩, ⟨"i"⟩]) (by decide) (by decide +kernel)
  have hcycle := of_decide_eq_true hcycle
  obtain ⟨hnone, hloop⟩ := Network.findCycle?_spec hnet
  exact ⟨net, hnet, fun h => by simp [hnone.mpr h] at hcycle, hloop _ hcycle⟩

end SceneFlow
