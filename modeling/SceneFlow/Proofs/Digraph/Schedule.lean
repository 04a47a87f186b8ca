import Mathlib
import SceneFlow.Digraph.Schedule

/-!
# Schedules are topological orders

A schedule lists vertices once each, every one behind the sources of all arcs to it. It leaves out
a vertex only if it also leaves out the source of some arc to it, so a graph without infinite
descent along its arcs is listed in full. The vertices without arcs to them come first.

## Main definitions

* `Digraph.Ordered`: every vertex of a list stands behind the sources of the arcs to it.
* `Digraph.Pending`: what is true of the state of a schedule after every step.

## Main results

* `Digraph.nodup_schedule`, `Digraph.ordered_schedule`: a schedule is a topological order.
* `Digraph.mem_schedule_iff`: exactly the accessible vertices are listed.
* `Digraph.sources_prefix_schedule`: the vertices without arcs to them come first.
-/

namespace SceneFlow.Digraph

variable {V : Type} [DecidableEq V] {next : V → List V} {vertices : List V}

/-- Every vertex of the list stands behind the sources of all arcs to it. -/
def Ordered (next : V → List V) (vertices list : List V) : Prop :=
  ∀ pre v post, list = pre ++ v :: post → ∀ u ∈ vertices, v ∈ next u → u ∈ pre

omit [DecidableEq V] in
theorem Ordered.append {list more : List V} (hlist : Ordered next vertices list)
    (hmore : ∀ v ∈ more, ∀ u ∈ vertices, v ∈ next u → u ∈ list) :
    Ordered next vertices (list ++ more) := by
  intro pre v post heq u hu harc
  rcases List.append_eq_append_iff.mp heq with ⟨mid, rfl, hmid⟩ | ⟨mid, rfl, hmid⟩
  · have hv : v ∈ more := by simp [hmid]
    exact List.mem_append_left _ (hmore v hv u hu harc)
  · cases mid with
    | nil =>
      have hv : v ∈ more := by
        rw [List.nil_append] at hmid
        simp [← hmid]
      simpa using hmore v hv u hu harc
    | cons w mid =>
      obtain ⟨rfl, -⟩ := List.cons.inj hmid
      exact hlist pre v mid rfl u hu harc

/-- Releasing the targets of a vertex takes their arcs from those waiting, and frees each target
for which none is left. -/
theorem release_spec (targets waiting ready rest : List V)
    (hwaiting : (targets ++ rest).Perm waiting) :
    (release targets waiting ready).1.Perm rest ∧
      ∃ freed : List V, (release targets waiting ready).2 = ready ++ freed ∧ freed.Nodup ∧
        ∀ v, v ∈ freed ↔ v ∈ targets ∧ v ∉ rest := by
  induction targets generalizing waiting ready with
  | nil => exact ⟨hwaiting.symm, [], by simp [release]⟩
  | cons target targets ih =>
    have hrest : (targets ++ rest).Perm (waiting.erase target) := by
      simpa using hwaiting.erase target
    have hmem : target ∈ waiting.erase target ↔ target ∈ targets ∨ target ∈ rest := by
      rw [← hrest.mem_iff, List.mem_append]
    rw [release]
    obtain ⟨hleft, freed, hready, hnodup, hfreed⟩ :=
      ih (waiting.erase target)
        (if target ∈ waiting.erase target then ready else ready ++ [target]) hrest
    refine ⟨hleft, ?_⟩
    by_cases hagain : target ∈ waiting.erase target
    · refine ⟨freed, by rw [hready, if_pos hagain], hnodup, fun v => ?_⟩
      rw [hfreed, List.mem_cons]
      refine ⟨fun h => ⟨.inr h.1, h.2⟩, fun ⟨hv, hnot⟩ => ⟨?_, hnot⟩⟩
      rcases hv with rfl | hv
      · exact (hmem.mp hagain).resolve_right hnot
      · exact hv
    · have hlast := not_or.mp (mt hmem.mpr hagain)
      refine ⟨target :: freed, by rw [hready, if_neg hagain, List.append_assoc]; rfl,
        List.nodup_cons.mpr ⟨fun h => hlast.1 ((hfreed target).mp h).1, hnodup⟩, fun v => ?_⟩
      rw [List.mem_cons, List.mem_cons, hfreed]
      constructor
      · rintro (rfl | h)
        · exact ⟨.inl rfl, hlast.2⟩
        · exact ⟨.inr h.1, h.2⟩
      · rintro ⟨rfl | h, hnot⟩
        · exact .inl rfl
        · exact .inr ⟨h, hnot⟩

/-- What is true of a schedule when the vertices `done` are listed: the arcs waiting are those of
the other vertices, and the queue holds the vertices that no waiting arc enters. -/
structure Pending (next : V → List V) (vertices done waiting ready : List V) : Prop where
  /-- Each arc of a vertex that is not listed is waiting. -/
  waiting_perm : waiting.Perm ((vertices.filter (· ∉ done)).flatMap next)
  /-- No vertex is listed or queued twice. -/
  nodup : (done ++ ready).Nodup
  /-- Only vertices of the graph are listed or queued. -/
  subset : ∀ v ∈ done ++ ready, v ∈ vertices
  /-- The vertices that no waiting arc enters are those listed or queued. -/
  free_iff : ∀ v ∈ vertices, v ∉ waiting ↔ v ∈ done ++ ready
  /-- They stand behind the sources of the arcs to them. -/
  ordered : Ordered next vertices (done ++ ready)

namespace Pending

variable {done waiting ready : List V} {v : V}

theorem mem_waiting (h : Pending next vertices done waiting ready) {w : V} :
    w ∈ waiting ↔ ∃ u ∈ vertices, u ∉ done ∧ w ∈ next u := by
  simp [h.waiting_perm.mem_iff, and_assoc]

/-- The arcs waiting are those of a queued vertex and those of the vertices behind it. -/
theorem waiting_split (h : Pending next vertices done waiting (v :: ready))
    (hvertices : vertices.Nodup) :
    (next v ++ (vertices.filter (· ∉ done ++ [v])).flatMap next).Perm waiting := by
  have hv : v ∈ vertices.filter (· ∉ done) := by
    have hnot : v ∉ done := fun hmem =>
      List.disjoint_of_nodup_append h.nodup hmem List.mem_cons_self
    simpa using ⟨h.subset v (by simp), hnot⟩
  have herase : (vertices.filter (· ∉ done)).erase v = vertices.filter (· ∉ done ++ [v]) := by
    rw [(hvertices.filter _).erase_eq_filter, List.filter_filter]
    congr 1
    funext w
    by_cases hw : w = v <;> simp [hw]
  rw [← herase, ← List.flatMap_cons]
  exact ((List.perm_cons_erase hv).symm.flatMap_right next).trans h.waiting_perm.symm

/-- One step of a schedule keeps the state as it should be. -/
theorem step (h : Pending next vertices done waiting (v :: ready)) (hvertices : vertices.Nodup)
    (hclosed : ∀ u ∈ vertices, ∀ w ∈ next u, w ∈ vertices) :
    Pending next vertices (done ++ [v]) (release (next v) waiting ready).1
      (release (next v) waiting ready).2 := by
  obtain ⟨hrest, freed, hready, hfreed, hmem⟩ :=
    release_spec (next v) waiting ready _ (h.waiting_split hvertices)
  have hlist : done ++ [v] ++ (ready ++ freed) = (done ++ v :: ready) ++ freed := by simp
  have hv : v ∈ vertices := h.subset v (by simp)
  have hwait : ∀ w, w ∈ waiting ↔ w ∈ next v ∨ w ∈ (release (next v) waiting ready).1 := by
    intro w
    rw [← (h.waiting_split hvertices).mem_iff, List.mem_append, hrest.mem_iff]
  have hfreed_iff : ∀ w, w ∈ freed ↔ w ∈ next v ∧ w ∉ (release (next v) waiting ready).1 := by
    intro w
    rw [hmem, hrest.mem_iff]
  -- A freed vertex was waited for before, hence neither listed nor queued.
  have hnew : ∀ w ∈ freed, w ∉ done ++ v :: ready := by
    intro w hw hold
    have hnext := (hmem w).mp hw
    exact (h.free_iff w (hclosed v hv w hnext.1)).mpr hold ((hwait w).mpr (.inl hnext.1))
  rw [hready]
  refine ⟨hrest, ?_, ?_, ?_, ?_⟩
  · rw [hlist, List.nodup_append]
    exact ⟨h.nodup, hfreed, fun a ha b hb heq => hnew b hb (heq ▸ ha)⟩
  · intro w hw
    rw [hlist, List.mem_append] at hw
    exact hw.elim (h.subset w) fun hw => hclosed v hv w ((hmem w).mp hw).1
  · intro w hw
    rw [hlist, List.mem_append, ← h.free_iff w hw, hfreed_iff, hwait]
    tauto
  · rw [hlist]
    refine h.ordered.append fun w hw u hu harc => ?_
    by_contra hnot
    refine ((hmem w).mp hw).2 (List.mem_flatMap.mpr ⟨u, ?_, harc⟩)
    have hu' : u ∉ done ++ [v] := fun hmem => hnot (by
      rcases List.mem_append.mp hmem with hmem | hmem
      · exact List.mem_append_left _ hmem
      · simp [List.mem_singleton.mp hmem])
    simpa using ⟨hu, by simpa using hu'⟩

end Pending

theorem pending_start (next : V → List V) (hvertices : vertices.Nodup) :
    Pending next vertices [] (vertices.flatMap next)
      (vertices.filter fun v => v ∉ vertices.flatMap next) := by
  have hready : ∀ v, v ∈ vertices.filter (fun v => v ∉ vertices.flatMap next) ↔
      v ∈ vertices ∧ v ∉ vertices.flatMap next := by
    intro v
    rw [List.mem_filter, decide_eq_true_iff]
  refine ⟨by simp, by simpa using hvertices.filter _, fun v hv => ((hready v).mp hv).1,
    fun v hv => ?_, ?_⟩
  · rw [List.nil_append, hready]
    exact ⟨fun h => ⟨hv, h⟩, And.right⟩
  · intro pre v post heq u hu harc
    have hv := (hready v).mp (by rw [List.nil_append] at heq; rw [heq]; simp)
    exact absurd (List.mem_flatMap.mpr ⟨u, hu, harc⟩) hv.2

/-- What is listed from a sound state on is a topological order, and complete. -/
theorem scheduleFrom_spec (hvertices : vertices.Nodup)
    (hclosed : ∀ u ∈ vertices, ∀ w ∈ next u, w ∈ vertices) (fuel : Nat)
    (done waiting ready : List V) (h : Pending next vertices done waiting ready)
    (hfuel : (vertices.filter (· ∉ done)).length ≤ fuel) :
    ∃ waiting', Pending next vertices (done ++ scheduleFrom next fuel waiting ready) waiting' [] ∧
      ready <+: scheduleFrom next fuel waiting ready := by
  induction fuel generalizing done waiting ready with
  | zero =>
    have hdone : ∀ v ∈ vertices, v ∈ done := by
      simpa [List.filter_eq_nil_iff] using hfuel
    have hready : ready = [] := by
      refine List.eq_nil_iff_forall_not_mem.mpr fun v hv => ?_
      exact List.disjoint_of_nodup_append h.nodup
        (hdone v (h.subset v (List.mem_append_right _ hv))) hv
    subst hready
    exact ⟨waiting, by simpa [scheduleFrom] using h, List.nil_prefix⟩
  | succ fuel ih =>
    cases ready with
    | nil => exact ⟨waiting, by simpa [scheduleFrom] using h, List.nil_prefix⟩
    | cons v ready =>
      have hv : v ∈ vertices ∧ v ∉ done :=
        ⟨h.subset v (by simp), fun hmem =>
          List.disjoint_of_nodup_append h.nodup hmem List.mem_cons_self⟩
      have hless : (vertices.filter (· ∉ done ++ [v])).length ≤ fuel := by
        have hsub : vertices.filter (· ∉ done ++ [v]) =
            (vertices.filter (· ∉ done)).filter (· ≠ v) := by
          rw [List.filter_filter]
          congr 1
          funext w
          by_cases hw : w = v <;> simp [hw]
        rw [hsub]
        have hlt : ((vertices.filter (· ∉ done)).filter (· ≠ v)).length <
            (vertices.filter (· ∉ done)).length := by
          refine List.length_filter_lt_length_iff_exists.mpr ⟨v, ?_, by simp⟩
          simpa using hv
        omega
      obtain ⟨waiting', hpending, hinit⟩ := ih (done ++ [v]) _ _ (h.step hvertices hclosed) hless
      obtain ⟨-, freed, hready, -⟩ :=
        release_spec (next v) waiting ready _ (h.waiting_split hvertices)
      refine ⟨waiting', by simpa [scheduleFrom] using hpending, ?_⟩
      rw [scheduleFrom, List.cons_prefix_cons]
      refine ⟨rfl, List.IsPrefix.trans ?_ hinit⟩
      rw [hready]
      exact List.prefix_append _ _

section Schedule

variable (hvertices : vertices.Nodup) (hclosed : ∀ u ∈ vertices, ∀ w ∈ next u, w ∈ vertices)
include hvertices hclosed

theorem pending_schedule :
    ∃ waiting, Pending next vertices (schedule vertices next) waiting [] := by
  obtain ⟨waiting, h, -⟩ := scheduleFrom_spec hvertices hclosed vertices.length [] _ _
    (pending_start next hvertices) (by simp)
  exact ⟨waiting, h⟩

/-- The vertices without arcs to them come first. -/
theorem sources_prefix_schedule :
    (vertices.filter fun v => v ∉ vertices.flatMap next) <+: schedule vertices next :=
  (scheduleFrom_spec hvertices hclosed vertices.length [] _ _
    (pending_start next hvertices) (by simp)).elim fun _ h => h.2

theorem nodup_schedule : (schedule vertices next).Nodup := by
  obtain ⟨_, h⟩ := pending_schedule hvertices hclosed
  simpa using h.nodup

theorem subset_of_mem_schedule {v : V} (hv : v ∈ schedule vertices next) : v ∈ vertices := by
  obtain ⟨_, h⟩ := pending_schedule hvertices hclosed
  exact h.subset v (by simpa using hv)

/-- Every vertex of a schedule stands behind the sources of all arcs to it. -/
theorem ordered_schedule : Ordered next vertices (schedule vertices next) := by
  obtain ⟨_, h⟩ := pending_schedule hvertices hclosed
  simpa using h.ordered

/-- A vertex is left out only if the source of an arc to it is left out too. -/
theorem exists_notMem_schedule {v : V} (hv : v ∈ vertices) (hnot : v ∉ schedule vertices next) :
    ∃ u ∈ vertices, u ∉ schedule vertices next ∧ v ∈ next u := by
  obtain ⟨waiting, h⟩ := pending_schedule hvertices hclosed
  refine h.mem_waiting.mp (by_contra fun hfree => hnot ?_)
  simpa using (h.free_iff v hv).mp hfree

/-- A schedule lists exactly the vertices from which one cannot go against the arcs forever. -/
theorem mem_schedule_iff {v : V} :
    v ∈ schedule vertices next ↔
      v ∈ vertices ∧ Acc (fun u w => u ∈ vertices ∧ w ∈ next u) v := by
  constructor
  · intro hv
    refine ⟨subset_of_mem_schedule hvertices hclosed hv, ?_⟩
    -- Induction on the part of the list before the vertex: the sources of its arcs are in there.
    obtain ⟨pre, post, heq⟩ := List.append_of_mem hv
    induction hlen : pre.length using Nat.strong_induction_on generalizing v pre post with
    | _ k ih =>
      refine ⟨v, fun u hu => ?_⟩
      have hpre := ordered_schedule hvertices hclosed pre v post heq u hu.1 hu.2
      obtain ⟨pre', mid, rfl⟩ := List.append_of_mem hpre
      have heq' : schedule vertices next = pre' ++ u :: (mid ++ v :: post) := by simp [heq]
      refine ih pre'.length ?_ (by simp [heq']) pre' _ heq' rfl
      simp at hlen
      omega
  · rintro ⟨hv, hacc⟩
    induction hacc with
    | intro v _ ih =>
      by_contra hnot
      obtain ⟨u, hu, hnotu, harc⟩ := exists_notMem_schedule hvertices hclosed hv hnot
      exact hnotu (ih u ⟨hu, harc⟩ hu)

end Schedule

end SceneFlow.Digraph
