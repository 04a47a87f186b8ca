import SceneFlow.Proofs.Digraph.Walk

/-!
# What depth-first walks visit

A walk gets from a vertex to its neighbours if it expands the vertex. Where nothing has been met
before, it visits every vertex that it gets to from its start, once, unless the vertices that it
expands run in a circle. Then it fails, and the closed path it returns is one of expanded vertices
that it gets to.

## Main definitions

* `Digraph.Meets`: a walk from one vertex gets to another.
* `Digraph.Exploring`: what is true of the visited vertices after every step of a walk.

## Main results

* `Digraph.visited_walkFrom`: the vertices that a walk visits.
* `Digraph.isClosedPath_walkFrom`: the closed path on which a walk fails.
* `Digraph.not_transGen_of_walkFrom`: a walk that does not fail gets to no circle.
-/

namespace SceneFlow.Digraph

variable {n : Nat} {next : Fin n → List (Fin n)} {stops : Fin n → Bool} {start : Fin n}

/-- A walk from one vertex gets to another: every vertex on the way is expanded and has the next
one as a neighbour. -/
def Meets (next : Fin n → List (Fin n)) (stops : Fin n → Bool) (start v : Fin n) : Prop :=
  Relation.ReflTransGen (fun u w => Expands next stops w u) start v

/-- What is true of the visited vertices after every step of a walk from vertices without marks. -/
structure Exploring (next : Fin n → List (Fin n)) (stops : Fin n → Bool) (start : Fin n)
    (stack : List (Frame n)) (visited : List (Fin n)) (marks : Marks n) : Prop where
  /-- The visited vertices are those that have been met. -/
  mem_iff : ∀ v, v ∈ visited ↔ marks.get v ≠ .unseen
  /-- No vertex is visited twice. -/
  nodup : visited.Nodup
  /-- The start is visited. -/
  start_mem : start ∈ visited
  /-- The walk gets to the visited vertices. -/
  meets : ∀ v ∈ visited, Meets next stops start v
  /-- The vertices of the stack are expanded. -/
  expanded : ∀ v ∈ stack.map Frame.vertex, stops v = false
  /-- What is met when a finished vertex is expanded is finished. -/
  closed : ∀ v w, marks.get v = .finished → Expands next stops w v → marks.get w = .finished

/-! ### Steps -/

namespace Exploring

variable {stack below : List (Frame n)} {visited : List (Fin n)} {marks : Marks n} {v u : Fin n}
  {ahead : List (Fin n)}

/-- The walk gets to the vertices of the stack. -/
theorem meets_of_mem_stack (h : Exploring next stops start stack visited marks)
    (hwalk : Walking next stops stack marks) (hv : v ∈ stack.map Frame.vertex) :
    Meets next stops start v := by
  refine h.meets v ((h.mem_iff v).mpr ?_)
  rw [(hwalk.active_iff v).mpr hv]
  simp

theorem finish (h : Exploring next stops start (⟨v, []⟩ :: below) visited marks)
    (hwalk : Walking next stops (⟨v, []⟩ :: below) marks) :
    Exploring next stops start below visited (marks.set v .finished v.isLt) := by
  have hactive : marks.get v = .active := (hwalk.active_iff v).mpr (by simp)
  have hneighbors : ∀ w ∈ next v, marks.get w = .finished := fun w hw => by
    simpa using hwalk.stacked.1 w hw
  refine ⟨fun w => ?_, h.nodup, h.start_mem, h.meets,
    fun w hw => h.expanded w (List.mem_cons_of_mem v hw), fun w x hw hx => ?_⟩
  · rw [h.mem_iff, get_set_ne_unseen_iff (by simp)]
    refine ⟨.inr, fun hw => hw.elim (fun heq => ?_) id⟩
    simp [heq, hactive]
  · have hold : marks.get x = .finished := by
      rw [get_set] at hw
      split at hw
      · rename_i hvw
        exact hneighbors x (hvw ▸ hx.2)
      · exact h.closed w x hw hx
    rw [get_set, hold, ite_self]

theorem skip (h : Exploring next stops start (⟨v, u :: ahead⟩ :: below) visited marks) :
    Exploring next stops start (⟨v, ahead⟩ :: below) visited marks :=
  ⟨h.mem_iff, h.nodup, h.start_mem, h.meets, h.expanded, h.closed⟩

/-- A neighbour that has not been met is visited. -/
theorem visit (h : Exploring next stops start (⟨v, u :: ahead⟩ :: below) visited marks)
    (hwalk : Walking next stops (⟨v, u :: ahead⟩ :: below) marks) (hunseen : marks.get u = .unseen)
    (mark : Mark) (hmark : mark ≠ .unseen) :
    (∀ w, w ∈ u :: visited ↔ (marks.set u mark u.isLt).get w ≠ .unseen) ∧
      (u :: visited).Nodup ∧ ∀ w ∈ u :: visited, Meets next stops start w := by
  have hmeets : Meets next stops start u :=
    (h.meets_of_mem_stack hwalk (v := v) (by simp)).tail
      ⟨h.expanded v (by simp), hwalk.stacked.2.1 u List.mem_cons_self⟩
  refine ⟨fun w => ?_, List.nodup_cons.mpr ⟨fun hmem => ?_, h.nodup⟩,
    List.forall_mem_cons.mpr ⟨hmeets, h.meets⟩⟩
  · rw [get_set_ne_unseen_iff hmark, List.mem_cons, h.mem_iff]
  · exact (h.mem_iff u).mp hmem hunseen

theorem stop (h : Exploring next stops start (⟨v, u :: ahead⟩ :: below) visited marks)
    (hwalk : Walking next stops (⟨v, u :: ahead⟩ :: below) marks) (hunseen : marks.get u = .unseen)
    (hstop : stops u = true) :
    Exploring next stops start (⟨v, ahead⟩ :: below) (u :: visited)
      (marks.set u .finished u.isLt) := by
  obtain ⟨hmem, hnodup, hmeets⟩ := h.visit hwalk hunseen .finished (by simp)
  refine ⟨hmem, hnodup, List.mem_cons_of_mem u h.start_mem, hmeets, h.expanded, fun w x hw hx => ?_⟩
  have hne : u ≠ w := fun heq => by
    rw [← heq, Expands, hstop] at hx
    exact absurd hx.1 (by simp)
  rw [get_set, if_neg hne] at hw
  rw [get_set, h.closed w x hw hx, ite_self]

theorem enter (h : Exploring next stops start (⟨v, u :: ahead⟩ :: below) visited marks)
    (hwalk : Walking next stops (⟨v, u :: ahead⟩ :: below) marks) (hunseen : marks.get u = .unseen)
    (hstop : stops u = false) :
    Exploring next stops start (⟨u, next u⟩ :: ⟨v, ahead⟩ :: below) (u :: visited)
      (marks.set u .active u.isLt) := by
  obtain ⟨hmem, hnodup, hmeets⟩ := h.visit hwalk hunseen .active (by simp)
  refine ⟨hmem, hnodup, List.mem_cons_of_mem u h.start_mem, hmeets,
    List.forall_mem_cons.mpr ⟨hstop, h.expanded⟩, fun w x hw hx => ?_⟩
  have hne : u ≠ w := fun heq => by
    rw [get_set, if_pos heq] at hw
    simp at hw
  rw [get_set, if_neg hne] at hw
  have hold := h.closed w x hw hx
  rw [get_set, if_neg fun heq => by simp [← heq, hunseen] at hold, hold]

/-- When a walk is over, it has visited everything that it gets to. -/
theorem mem_visited_iff (h : Exploring next stops start [] visited marks)
    (hwalk : Walking next stops [] marks) : v ∈ visited ↔ Meets next stops start v := by
  refine ⟨h.meets v, fun hmeets => ?_⟩
  induction hmeets with
  | refl => exact h.start_mem
  | @tail u w _ hw hu =>
    have hfinished := h.closed u w (hwalk.eq_finished ((h.mem_iff u).mp hu)) hw
    exact (h.mem_iff w).mpr (by simp [hfinished])

end Exploring

/-! ### Whole walks -/

/-- What has come of a walk: it has visited everything that it gets to, which holds no infinite
path, or it has found a closed path of expanded vertices. -/
def Explored (next : Fin n → List (Fin n)) (stops : Fin n → Bool) (start : Fin n) :
    Except (List (Fin n)) (Trail n) → Prop
  | .ok trail => trail.visited.Nodup ∧ (∀ v, v ∈ trail.visited ↔ Meets next stops start v) ∧
      Acc (Expands next stops) start
  | .error path => IsClosedPath next path ∧
      ∀ v ∈ path, stops v = false ∧ Meets next stops start v

/-- The vertices of a closed path are on the stack. -/
theorem mem_of_mem_closedPath {stack : List (Frame n)} {u v : Fin n}
    (hu : u ∈ stack.map Frame.vertex) (hv : v ∈ closedPath stack u) :
    v ∈ stack.map Frame.vertex := by
  rw [closedPath, List.mem_append, List.mem_cons, List.mem_reverse, List.mem_singleton] at hv
  rcases hv with (rfl | hv) | rfl
  · exact hu
  · exact List.takeWhile_subset _ hv
  · exact hu

/-- Every step keeps what is true of the visited vertices. -/
theorem walkInvariant_exploring :
    WalkInvariant next stops (fun stack visited marks =>
      Exploring next stops start stack visited marks ∧ Walking next stops stack marks)
      (Explored next stops start) where
  met := fun _ _ _ _ _ ⟨_, hwalk⟩ => hwalk.met
  finish := fun _ _ _ _ ⟨h, hwalk⟩ => ⟨h.finish hwalk, hwalk.finish⟩
  skip := fun _ _ _ _ _ _ hmark ⟨h, hwalk⟩ => ⟨h.skip, hwalk.skip hmark⟩
  stop := fun _ _ _ _ _ _ hmark hstop ⟨h, hwalk⟩ =>
    ⟨h.stop hwalk hmark hstop, hwalk.stop hmark hstop⟩
  enter := fun _ _ _ _ _ _ hmark hstop ⟨h, hwalk⟩ =>
    ⟨h.enter hwalk hmark hstop, hwalk.enter hmark⟩
  close := fun _ u _ _ _ _ hmark ⟨h, hwalk⟩ => by
    refine ⟨hwalk.isClosedPath hmark, fun w hw => ?_⟩
    have hmem := mem_of_mem_closedPath ((hwalk.active_iff u).mp hmark) hw
    exact ⟨h.expanded w hmem, h.meets_of_mem_stack hwalk hmem⟩
  done := fun _ _ ⟨h, hwalk⟩ => ⟨h.nodup, fun _ => h.mem_visited_iff hwalk,
    hwalk.finished start (hwalk.eq_finished ((h.mem_iff start).mp h.start_mem))⟩

theorem explored_walkFrom (next : Fin n → List (Fin n)) (stops : Fin n → Bool) (start : Fin n) :
    Explored next stops start (walkFrom (walkSteps next) next stops .fresh start) := by
  rw [walkFrom]
  split
  · rename_i hstop
    -- Nothing is met when the start is not expanded.
    have hnone : ∀ w, ¬ Expands next stops w start := fun w hw => by simp [hw.1] at hstop
    refine ⟨List.nodup_singleton _, fun v => ?_, ⟨start, fun w hw => absurd hw (hnone w)⟩⟩
    rw [List.mem_singleton, Meets, Relation.ReflTransGen.cases_head_iff]
    refine ⟨fun heq => .inl heq.symm, fun h => ?_⟩
    obtain heq | ⟨w, hw, -⟩ := h
    · exact heq.symm
    · exact absurd hw (hnone w)
  · rename_i hstop
    rw [Bool.not_eq_true] at hstop
    refine walkInvariant_exploring.walk _ _ _ _ ⟨⟨fun v => ?_, List.nodup_singleton _,
      List.mem_singleton_self _, fun v hv => ?_, by simpa using hstop, fun v w hv => ?_⟩,
      walking_fresh.start start⟩ (walkCost_start_le (by simp [Marks.fresh]))
    · rw [get_set_ne_unseen_iff (by simp), List.mem_singleton, or_iff_left (by simp [Marks.fresh])]
    · rw [List.mem_singleton.mp hv]
      exact .refl
    · rw [get_set] at hv
      split at hv <;> simp [Marks.fresh] at hv

/-- A walk visits every vertex that it gets to, once. -/
theorem visited_walkFrom {trail : Trail n}
    (h : walkFrom (walkSteps next) next stops .fresh start = .ok trail) :
    trail.visited.Nodup ∧ ∀ v, v ∈ trail.visited ↔ Meets next stops start v := by
  have hexplored := explored_walkFrom next stops start
  rw [h] at hexplored
  exact ⟨hexplored.1, hexplored.2.1⟩

/-- A walk fails on a closed path of expanded vertices that it gets to. -/
theorem isClosedPath_walkFrom {path : List (Fin n)}
    (h : walkFrom (walkSteps next) next stops .fresh start = .error path) :
    IsClosedPath next path ∧ ∀ v ∈ path, stops v = false ∧ Meets next stops start v := by
  have hexplored := explored_walkFrom next stops start
  rw [h] at hexplored
  exact hexplored

/-- A walk that does not fail gets to no circle. -/
theorem not_transGen_of_walkFrom {trail : Trail n}
    (h : walkFrom (walkSteps next) next stops .fresh start = .ok trail) {v : Fin n}
    (hv : Meets next stops start v) :
    ¬ Relation.TransGen (fun u w => Expands next stops w u) v v := by
  have hexplored := explored_walkFrom next stops start
  rw [h] at hexplored
  have hacc : Acc (Expands next stops) v := by
    induction hv with
    | refl => exact hexplored.2.2
    | tail _ hw ih => exact ih.inv hw
  exact not_transGen_of_acc hacc

end SceneFlow.Digraph
