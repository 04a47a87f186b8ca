import Mathlib
import SceneFlow.Proofs.Compile.Tracing

/-!
# How many objects come into being

A duplicate node looks at the number of objects only when its turn comes, and no other node does.
So whether the limit is kept depends on the order of turns, unless an object comes to a duplicate
node: then all drawable nodes have had their turns before, and the last duplicate node looks at
all objects.

## Main definitions

* `Network.Roomy`: the limit is kept in every order of turns, or in none.

## Main results

* `Network.births_le_limit`: in a roomy network without errors the limit is kept by all objects.
* `Network.births_prefix_le`: what has come into being in some turns is part of it.
-/

namespace SceneFlow

/-- Whether a node makes copies. -/
def NodeKind.isDuplicate : NodeKind → Bool
  | .duplicate _ => true
  | _ => false

theorem NodeKind.exists_of_isDuplicate {kind : NodeKind} (h : kind.isDuplicate = true) :
    ∃ data, kind = .duplicate data := by
  match kind with
  | .duplicate data => exact ⟨data, rfl⟩

namespace Network

variable {limits : Limits} {net : Network}

/-- If no object comes to any duplicate node, and there is one, the drawable nodes alone keep the
limit. -/
def Roomy (net : Network) (limit : Nat) : Prop :=
  (∃ v, (net.node v).kind.isDuplicate = true) →
    (∀ v, (net.node v).kind.isDuplicate = true → net.objectLinksInto v = []) →
      (net.places.countP fun v => (net.node v).kind.isDrawable) ≤ limit

/-! ### Sums of births -/

theorem births_append (resolver : Resolver) (turns more : List (Fin net.size)) :
    net.births resolver (turns ++ more) =
      net.births resolver turns + net.births resolver more := by
  rw [births, births, births, List.map_append, List.sum_append]

theorem births_perm (resolver : Resolver) {turns other : List (Fin net.size)}
    (h : turns.Perm other) : net.births resolver turns = net.births resolver other :=
  (h.map _).sum_eq

/-- What has come into being in some turns is part of what comes into being in all. -/
theorem births_prefix_le (h : Sound limits net) (resolver : Resolver) {turns : List (Fin net.size)}
    (hinit : turns <+: net.objectOrder) :
    net.births resolver turns ≤ net.births resolver net.places := by
  obtain ⟨more, hmore⟩ := hinit
  rw [← births_perm resolver (objectOrder_perm h), ← hmore, births_append]
  exact Nat.le_add_right _ _

/-- Objects come into being at drawable and at duplicate nodes. -/
theorem births_eq_zero {node : Node} (hdrawable : node.kind.isDrawable = false)
    (hduplicate : node.kind.isDuplicate = false) (count : Nat) : node.births count = 0 := by
  rw [Node.births]
  cases hkind : node.kind with
  | geometry _ => simp [hkind, NodeKind.isDrawable] at hdrawable
  | duplicate _ => simp [hkind, NodeKind.isDuplicate] at hduplicate
  | insert _ | filter _ | merge _ | constant _ | result _ | animation _ | textStyle _
  | terminal _ _ | comparison _ | logic _ | math _ | unknown _ => rfl

/-! ### Drawable nodes have their turns first -/

theorem mem_sources_iff (v : Fin net.size) :
    v ∈ net.places.filter (fun v => v ∉ net.places.flatMap net.objectsBehind) ↔
      net.objectLinksInto v = [] := by
  rw [List.mem_filter, decide_eq_true_iff, and_iff_right (mem_places v), objectLinksInto,
    List.filter_eq_nil_iff]
  simp only [List.mem_flatMap, mem_objectsBehind_iff, not_exists, not_and, Bool.and_eq_true,
    decide_eq_true_iff]
  exact ⟨fun h link hlink htarget hobjects => h _ (mem_places _) link hlink hobjects rfl htarget,
    fun h u _ link hlink hobjects _ htarget => h link hlink htarget hobjects⟩

/-- A node to which objects come has its turn behind the nodes to which none come. -/
theorem notMem_of_linked {turns : List (Fin net.size)} {v w : Fin net.size}
    (hinit : turns ++ [v] <+: net.objectOrder) (hv : net.objectLinksInto v = [])
    (hw : net.objectLinksInto w ≠ []) : w ∉ turns := by
  have hsources : (net.places.filter fun v => v ∉ net.places.flatMap net.objectsBehind) <+:
      net.objectOrder :=
    Digraph.sources_prefix_schedule net.nodup_places fun _ _ w _ => mem_places w
  intro hmem
  have hnotSource : w ∉ net.places.filter fun v => v ∉ net.places.flatMap net.objectsBehind :=
    fun hsource => hw ((mem_sources_iff w).mp hsource)
  rcases List.prefix_or_prefix_of_prefix hinit hsources with hshort | hlong
  · exact hnotSource (hshort.subset (List.mem_append_left _ hmem))
  · -- The nodes to which no objects come have all had their turns, and `v` among them.
    rcases List.prefix_concat_iff.mp hlong with heq | hlong
    · exact hnotSource (heq ▸ List.mem_append_left _ hmem)
    · have hnodup := net.nodup_objectOrder.sublist hinit.sublist
      rw [List.nodup_append] at hnodup
      exact hnodup.2.2 v (hlong.subset ((mem_sources_iff v).mpr hv)) v
        (List.mem_singleton_self v) rfl

/-- No objects come to drawable nodes. -/
theorem objectLinksInto_eq_nil (h : Sound limits net) {v : Fin net.size}
    (hv : (net.node v).kind.isDrawable = true) : net.objectLinksInto v = [] := by
  refine List.filter_eq_nil_iff.mpr fun link hlink hinto => ?_
  simp only [Bool.and_eq_true, decide_eq_true_iff] at hinto
  obtain ⟨rfl, hobjects⟩ := hinto
  rw [(kind_of_mem_links h hlink hobjects).1] at hv
  cases hv

theorem arriving_eq_nil (h : Sound limits net) (resolver : Resolver) {v : Fin net.size}
    (hv : net.objectLinksInto v = []) : net.arriving resolver v = [] := by
  have hperm := arriving_perm h resolver v
  rw [hv, List.flatMap_nil] at hperm
  exact hperm.eq_nil

/-! ### The limit -/

theorem births_duplicate {node : Node} {settings : FlowSettings} {created : Nat}
    {tokens : List Token} (hduplicate : node.kind.isDuplicate = true)
    (h : node.Unhindered settings created tokens) :
    created + node.births tokens.length ≤ settings.limit := by
  rw [Node.Unhindered] at h
  rw [Node.births]
  obtain ⟨data, hkind⟩ := NodeKind.exists_of_isDuplicate hduplicate
  rw [hkind] at h ⊢
  exact h

section Limit

variable {settings : FlowSettings} (h : Sound limits net)
  (hquiet : Finding.NoError (net.flow settings).findings)
include h hquiet

/-- When a duplicate node has looked at the number of objects behind all drawable nodes, the limit
is kept from there on. -/
theorem births_le_limit_of_linked {w : Fin net.size}
    (hduplicate : (net.node w).kind.isDuplicate = true) (hw : net.objectLinksInto w ≠ [])
    {turns : List (Fin net.size)} (hinit : turns <+: net.objectOrder) (hmem : w ∈ turns) :
    net.births settings.resolver turns ≤ settings.limit := by
  induction turns using List.reverseRecOn with
  | nil => cases hmem
  | append_singleton turns v ih =>
    have hsmooth := (noError_flow_iff net settings).mp hquiet turns v hinit
    rw [births_concat]
    by_cases hv : (net.node v).kind.isDuplicate = true
    · exact births_duplicate hv hsmooth.unhindered
    · have hmem : w ∈ turns := by
        refine (List.mem_append.mp hmem).resolve_right fun hlast => hv ?_
        rwa [← List.mem_singleton.mp hlast]
      have hdrawable : (net.node v).kind.isDrawable = false :=
        Bool.eq_false_iff.mpr fun hdrawable =>
          notMem_of_linked hinit (objectLinksInto_eq_nil h hdrawable) hw hmem
      rw [births_eq_zero hdrawable (Bool.eq_false_iff.mpr hv), Nat.add_zero]
      exact ih ((List.prefix_append _ _).trans hinit) hmem

/-- In a roomy network all objects together keep the limit if there is a duplicate node. -/
theorem births_le_limit (hroomy : net.Roomy settings.limit)
    (hduplicate : ∃ v, (net.node v).kind.isDuplicate = true) :
    net.births settings.resolver net.places ≤ settings.limit := by
  by_cases hlinked : ∀ v, (net.node v).kind.isDuplicate = true → net.objectLinksInto v = []
  · -- Only drawable nodes bring objects into being.
    refine le_trans (le_of_eq ?_) (hroomy hduplicate hlinked)
    have hone : ∀ v, (net.node v).births (net.arriving settings.resolver v).length =
        if (net.node v).kind.isDrawable = true then 1 else 0 := by
      intro v
      by_cases hv : (net.node v).kind.isDuplicate = true
      · rw [arriving_eq_nil h _ (hlinked v hv), Node.births]
        obtain ⟨data, hkind⟩ := NodeKind.exists_of_isDuplicate hv
        simp [hkind, NodeKind.isDrawable]
      · split
        · rename_i hdrawable
          obtain ⟨data, hkind⟩ := NodeKind.exists_of_isDrawable hdrawable
          rw [Node.births, hkind]
        · rename_i hdrawable
          exact births_eq_zero (Bool.eq_false_iff.mpr hdrawable) (Bool.eq_false_iff.mpr hv) _
    rw [births]
    simp only [hone]
    induction net.places with
    | nil => rfl
    | cons v list ih => rw [List.map_cons, List.sum_cons, ih, List.countP_cons, Nat.add_comm]
  · simp only [not_forall] at hlinked
    obtain ⟨w, hw, hlinks⟩ := hlinked
    rw [← births_perm _ (objectOrder_perm h)]
    exact births_le_limit_of_linked h hquiet hw hlinks (List.prefix_refl _) (mem_objectOrder h w)

end Limit

end Network

end SceneFlow
