import SceneFlow.Proofs.Digraph.Resumption
import SceneFlow.Proofs.Graph.Construction
import SceneFlow.Graph.Query

/-!
# Walks along and against the links

A network is walked along its links or against them. The links that are followed from a node are
taken in the order of the names of their edges. Whichever links are followed, wherever the walk
stops and whatever is done before, it is the recursive depth-first search: it makes the same visits
in the same order, and ends with the same nodes done or on the same closed path.

## Main definitions

* `Direction`: the two ways to walk.
* `Network.followed`: the links that are followed from a node.

## Main results

* `Network.walkFrom_eq_search`: a walk is a recursive search.
* `Network.walkUp_eq_search`: the order in which what lies before a node is visited.
-/

namespace SceneFlow

/-- The way to walk. -/
inductive Direction where
  /-- Against the links. -/
  | up
  /-- Along the links. -/
  | down

namespace Direction

variable {n : Nat}

/-- The end of a link from which it is followed. -/
def near : Direction → Link n → Fin n
  | up, link => link.target
  | down, link => link.source

/-- The end of a link to which it is followed. -/
def far : Direction → Link n → Fin n
  | up, link => link.source
  | down, link => link.target

end Direction

namespace Network

variable {graph : Graph} {net : Network} {follow : Link net.size → Bool}

/-- The links that are followed from a node. -/
def followed (net : Network) (way : Direction) (follow : Link net.size → Bool)
    (v : Fin net.size) : List (Link net.size) :=
  match way with
  | .up => (net.incoming v).filter follow
  | .down => (net.outgoing v).filter follow

/-- The nodes to which links are followed from a node. -/
def neighbors (net : Network) (way : Direction) (follow : Link net.size → Bool)
    (v : Fin net.size) : List (Fin net.size) :=
  (net.followed way follow v).map way.far

theorem neighbors_up : net.neighbors .up follow = net.before follow :=
  rfl

theorem neighbors_down : net.neighbors .down (fun _ => true) = net.behind := by
  funext v
  rw [neighbors, followed, List.filter_true]
  rfl

/-- The links that are followed from a node are those that are to be followed, of all links that
have an end there, in their order. -/
theorem followed_eq_filter (way : Direction) (v : Fin net.size) :
    net.followed way follow v = net.links.filter fun link => follow link && way.near link = v := by
  cases way with
  | up => rw [followed, incoming_eq_filter, List.filter_filter]; rfl
  | down => rw [followed, outgoing_eq_filter, List.filter_filter]; rfl

theorem pairwise_followed (hnet : ofGraph graph = .ok net) (way : Direction) (v : Fin net.size) :
    (net.followed way follow v).Pairwise fun a b => a.edge.id.text ≤ b.edge.id.text := by
  rw [followed_eq_filter]
  exact (pairwise_links hnet).filter _

/-- A walk from a node that is not done is the recursive search that takes the links to be followed
from each node in the order of the names of their edges: it makes the same visits, no node twice,
and ends with the same nodes done or on the same closed path. The walks that look back from a node
and those that look for a circle are such walks. -/
theorem walkFrom_eq_search (hnet : ofGraph graph = .ok net) (way : Direction)
    (follow : Link net.size → Bool) (stops : Fin net.size → Bool) {done : Digraph.Done net.size}
    {start : Fin net.size} (hstart : done.get start = false) :
    (net.neighbors .up follow = net.before follow ∧
        net.neighbors .down (fun _ => true) = net.behind) ∧
      (∀ v, net.followed way follow v =
          (net.links.filter fun link => follow link && way.near link = v) ∧
        (net.followed way follow v).Pairwise fun a b => a.edge.id.text ≤ b.edge.id.text) ∧
      (Digraph.search (net.neighbors way follow) stops done start).visited.Nodup ∧
      Digraph.walkFrom (Digraph.walkSteps (net.neighbors way follow)) (net.neighbors way follow)
          stops (.of [] done) start =
        (Digraph.search (net.neighbors way follow) stops done start).result ∧
      Digraph.Accomplishes
        (fun steps => Digraph.walkFrom steps (net.neighbors way follow) stops (.of [] done) start)
        (Digraph.search (net.neighbors way follow) stops done start) :=
  ⟨⟨neighbors_up, neighbors_down⟩,
    fun v => ⟨followed_eq_filter way v, pairwise_followed hnet way v⟩,
    (Digraph.finds_search done start).nodup, Digraph.accomplishes_walkFrom hstart _ stops⟩

/-- What lies before a node is visited in the order of the recursive search. -/
theorem walkUp_eq_search (follow : Link net.size → Bool) (stops : Fin net.size → Bool)
    (start : Fin net.size) :
    net.walkUp follow stops start =
      match
        (Digraph.search (net.before follow) stops (.replicate net.size false) start).outcome with
      | .ok _ =>
        .ok (Digraph.search (net.before follow) stops (.replicate net.size false) start).visited
      | .error path => .error (.circularDependency (path.reverse.map net.id)) := by
  have hstart : (Vector.replicate net.size false).get start = false := by simp
  rw [walkUp, Digraph.fresh_eq_of, (Digraph.accomplishes_walkFrom hstart _ stops).1,
    Digraph.Search.result]
  cases (Digraph.search (net.before follow) stops (.replicate net.size false) start).outcome with
  | ok done => exact congrArg Except.ok (List.reverse_reverse _)
  | error path => rfl

end Network

/-- The nodes `b` and `c` run in a circle, to which `s` leads directly and through `a`. -/
def roundabout : Graph where
  nodes :=
    [.circle "s", .small "a" "insert" [], .small "b" "insert" [], .small "c" "insert" []]
  edges :=
    [.plain "e1" "s" "b", .plain "e2" "s" "a", .plain "e3" "a" "c", .plain "e4" "b" "c",
      .plain "e5" "c" "b"]

/-- The names of the nodes that a walk has visited, in their order, or of the closed path on which
it has failed. -/
def Network.namesOf (net : Network) :
    Except (List (Fin net.size)) (Digraph.Trail net.size) → Except (List NodeId) (List NodeId)
  | .ok trail => .ok (trail.visited.reverse.map net.id)
  | .error path => .error (path.map net.id)

/-- The search that stops at `c` does not run into the circle, and the other one does. -/
theorem walkFrom_eq_search_roundabout :
    ∃ net start, Network.ofGraph roundabout = .ok net ∧ net.find? ⟨"s"⟩ = some start ∧
      (Vector.replicate net.size false).get start = false ∧
      net.namesOf (Digraph.search (net.neighbors .down fun _ => true) (fun v => net.id v = ⟨"c"⟩)
        (.replicate net.size false) start).result = .ok [⟨"s"⟩, ⟨"b"⟩, ⟨"c"⟩, ⟨"a"⟩] ∧
      net.namesOf (Digraph.search (net.neighbors .down fun _ => true) (fun _ => false)
        (.replicate net.size false) start).result = .error [⟨"b"⟩, ⟨"c"⟩, ⟨"b"⟩] := by
  obtain ⟨net, hnet, hseen⟩ := exists_ofGraph_of_sorted roundabout
    (fun net => (net.find? ⟨"s"⟩).any fun start =>
      net.namesOf (Digraph.walkFrom (Digraph.walkSteps (net.neighbors .down fun _ => true))
        (net.neighbors .down fun _ => true) (fun v => net.id v = ⟨"c"⟩)
        (.of [] (.replicate net.size false)) start) = .ok [⟨"s"⟩, ⟨"b"⟩, ⟨"c"⟩, ⟨"a"⟩] ∧
      net.namesOf (Digraph.walkFrom (Digraph.walkSteps (net.neighbors .down fun _ => true))
        (net.neighbors .down fun _ => true) (fun _ => false)
        (.of [] (.replicate net.size false)) start) = .error [⟨"b"⟩, ⟨"c"⟩, ⟨"b"⟩])
    (by decide) (by decide +kernel)
  obtain ⟨start, hfind, hwalks⟩ := (Option.any_eq_true _ _).mp hseen
  have hstart : (Vector.replicate net.size false).get start = false := by simp
  obtain ⟨-, -, -, hstops, -⟩ :=
    Network.walkFrom_eq_search hnet .down (fun _ => true) (fun v => net.id v = ⟨"c"⟩) hstart
  obtain ⟨-, -, -, hcircle, -⟩ :=
    Network.walkFrom_eq_search hnet .down (fun _ => true) (fun _ => false) hstart
  rw [hstops, hcircle] at hwalks
  exact ⟨net, start, hnet, hfind, hstart, of_decide_eq_true hwalks⟩

end SceneFlow
