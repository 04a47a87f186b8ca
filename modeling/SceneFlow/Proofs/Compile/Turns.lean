import SceneFlow.Proofs.Compile.Delivery
import SceneFlow.Proofs.Compile.Traffic
import SceneFlow.Proofs.Digraph.Counting
import SceneFlow.Proofs.Graph.Cycles

/-!
# The order of turns

The nodes of any network take their turns in a topological order of the links that carry objects.
The nodes on a circle of such links have no turn, nor have those behind one, since some of their
tokens would never arrive; every other node has one, behind all nodes that send it tokens. Nothing
is assumed of the network: it may have circles, parallel links and links from a node to itself.

The order can be made by counting, for every node, the links by which objects are still to come. No
count ever goes below zero.

## Main definitions

* `Network.indegree`: how many links bring objects to a node.

## Main results

* `Network.mem_objectOrder_iff`: which nodes have a turn.
* `Network.objectOrder_spec`: the order is topological, and counting makes it.
-/

namespace SceneFlow

namespace Network

variable {net : Network}

/-- How many links bring objects to a node. -/
def indegree (net : Network) (v : Fin net.size) : Nat :=
  (net.links.filter net.carriesObjects).countP fun link => link.target = v

theorem arc_objectsBehind_iff {u v : Fin net.size} :
    Digraph.Arc net.objectsBehind u v ↔ net.Leads net.carriesObjects u v :=
  mem_objectsBehind_iff

/-- Every link that carries objects is an arc of its own. -/
theorem indegree_eq_count (net : Network) (v : Fin net.size) :
    net.indegree v = (net.places.flatMap net.objectsBehind).count v := by
  rw [count_flatMap_objectsBehind net.nodup_places mem_places, indegree, objectLinksInto,
    List.countP_eq_length_filter, List.filter_filter]

/-- The nodes that have no turn are those on a circle of links that carry objects, and those to
which such links lead from a circle. -/
theorem mem_objectOrder_iff (net : Network) (v : Fin net.size) :
    v ∈ net.objectOrder ↔
      ¬ ∃ u, Relation.TransGen (net.Leads net.carriesObjects) u u ∧
        Relation.ReflTransGen (net.Leads net.carriesObjects) u v := by
  have hrelation : (fun u w => u ∈ net.places ∧ w ∈ net.objectsBehind u) =
      net.Leads net.carriesObjects :=
    funext₂ fun _ _ => propext ((and_iff_right (mem_places _)).trans arc_objectsBehind_iff)
  rw [objectOrder, Digraph.mem_schedule_iff net.nodup_places fun _ _ w _ => mem_places w,
    and_iff_right (mem_places v), hrelation, ← Digraph.not_acc_iff, not_not]

/-- A node has its turn behind the sources of all links that bring it objects. -/
theorem source_mem_of_objectOrder_eq {before behind : List (Fin net.size)} {v : Fin net.size}
    (horder : net.objectOrder = before ++ v :: behind) {link : Link net.size}
    (hlink : link ∈ net.links) (hobjects : net.carriesObjects link = true)
    (htarget : link.target = v) : link.source ∈ before :=
  Digraph.ordered_schedule net.nodup_places (fun _ _ w _ => mem_places w) before v behind horder
    link.source (mem_places _) (arc_objectsBehind_iff.mpr ⟨link, hlink, hobjects, rfl, htarget⟩)

/-- The order of turns is topological. It lists no node twice, and exactly the nodes that neither
lie on a circle of links that carry objects nor can be reached from one along such links. Every
node is listed behind the sources of all links that bring it objects. And the order can be made by
counting down, from the number of these links, which comes to an end without any count going below
zero. -/
theorem objectOrder_spec (net : Network) :
    net.objectOrder.Nodup ∧
    (∀ v, v ∈ net.objectOrder ↔
      ¬ ∃ u, Relation.TransGen (net.Leads net.carriesObjects) u u ∧
        Relation.ReflTransGen (net.Leads net.carriesObjects) u v) ∧
    (∀ before v behind, net.objectOrder = before ++ v :: behind →
      ∀ link ∈ net.links, net.carriesObjects link = true → link.target = v →
        link.source ∈ before) ∧
    ∃ counts, Digraph.Countdown.run net.objectsBehind net.size (.start net.places net.indegree) =
      some ⟨counts, [], net.objectOrder⟩ := by
  refine ⟨net.nodup_objectOrder, net.mem_objectOrder_iff,
    fun before v behind horder link hlink => source_mem_of_objectOrder_eq horder hlink, ?_⟩
  obtain ⟨counts, hrun, -⟩ := Digraph.exists_run_eq net.nodup_places
    (fun _ _ w _ => mem_places w) net.indegree_eq_count
  rw [places, List.length_finRange] at hrun
  exact ⟨counts, hrun⟩

end Network

/-- The nodes `i` and `j` lie on a circle, `j` has a link to itself too, and the canvas `s` is
behind them. Two parallel links lead from the circle `a` to `k`. -/
def circled : Network :=
  .ofLinks
    #[⟨⟨"a"⟩, "", .geometry .plainCircle⟩, ⟨⟨"i"⟩, "", .insert ⟨.always, 0⟩⟩,
      ⟨⟨"j"⟩, "", .insert ⟨.always, 0⟩⟩, ⟨⟨"k"⟩, "", .insert ⟨.always, 0⟩⟩,
      ⟨⟨"s"⟩, "", .terminal .video .small⟩]
    [⟨⟨⟨"e1"⟩, ⟨"a"⟩, ⟨""⟩, ⟨"i"⟩, ⟨""⟩⟩, 0, 1⟩,
      ⟨⟨⟨"e2"⟩, ⟨"i"⟩, ⟨""⟩, ⟨"j"⟩, ⟨""⟩⟩, 1, 2⟩,
      ⟨⟨⟨"e3"⟩, ⟨"j"⟩, ⟨""⟩, ⟨"i"⟩, ⟨""⟩⟩, 2, 1⟩,
      ⟨⟨⟨"e4"⟩, ⟨"j"⟩, ⟨""⟩, ⟨"j"⟩, ⟨""⟩⟩, 2, 2⟩,
      ⟨⟨⟨"e5"⟩, ⟨"a"⟩, ⟨""⟩, ⟨"k"⟩, ⟨""⟩⟩, 0, 3⟩,
      ⟨⟨⟨"e6"⟩, ⟨"a"⟩, ⟨""⟩, ⟨"k"⟩, ⟨""⟩⟩, 0, 3⟩,
      ⟨⟨⟨"e7"⟩, ⟨"j"⟩, ⟨""⟩, ⟨"s"⟩, ⟨""⟩⟩, 2, 4⟩,
      ⟨⟨⟨"e8"⟩, ⟨"k"⟩, ⟨""⟩, ⟨"s"⟩, ⟨""⟩⟩, 3, 4⟩]
    [] ⟨0, 0⟩

/-- Only `a` and, behind it, `k` have a turn, and a circle leads to the canvas. -/
theorem objectOrder_spec_circled :
    circled.objectOrder = [⟨0, by decide⟩] ++ ⟨3, by decide⟩ :: [] ∧
      (∀ link ∈ circled.links, circled.carriesObjects link = true → link.target = ⟨3, by decide⟩ →
        link.source = ⟨0, by decide⟩) ∧
      (∃ u, Relation.TransGen (circled.Leads circled.carriesObjects) u u ∧
        Relation.ReflTransGen (circled.Leads circled.carriesObjects) u ⟨4, by decide⟩) := by
  obtain ⟨-, hmem, hbehind, -⟩ := Network.objectOrder_spec circled
  have horder : circled.objectOrder = [⟨0, by decide⟩] ++ ⟨3, by decide⟩ :: [] := by
    decide +kernel
  refine ⟨horder, fun link hlink hobjects htarget => ?_, ?_⟩
  · exact List.mem_singleton.mp (hbehind _ _ _ horder link hlink hobjects htarget)
  · refine not_not.mp (mt (hmem ⟨4, by decide⟩).mpr ?_)
    rw [horder]
    decide

end SceneFlow
