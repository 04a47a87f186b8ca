import Mathlib

/-!
# Acyclic graphs

A directed graph is given by the neighbours of each vertex. It is acyclic if no path along its arcs
leads back to where it started. On finitely many vertices this is the same as saying that arcs can
be followed only finitely often, in either direction.

## Main definitions

* `Digraph.Arc`: there is an arc from one vertex to another.
* `Digraph.Acyclic`: no vertex lies on a cycle.
* `Digraph.IsClosedPath`: a path that ends where it starts and meets no other vertex twice.
* `Digraph.IsLoop`: the same of a path along any relation.

## Main results

* `Digraph.Acyclic.wellFounded`: arcs can be gone against only finitely often.
* `Digraph.not_acc_iff`: what lies on a cycle or behind one.
* `Digraph.acyclic_of_acc`: if arcs can be followed only finitely often, the graph is acyclic.
* `Digraph.IsClosedPath.not_acyclic`: a closed path is a cycle.
* `Digraph.IsClosedPath.isLoop_map`: a closed path is a loop of the names of its vertices.
-/

namespace SceneFlow.Digraph

variable {V : Type} {next : V → List V}

/-- There is an arc from one vertex to another. -/
def Arc (next : V → List V) (u v : V) : Prop :=
  v ∈ next u

/-- No path along the arcs leads back to its start. -/
def Acyclic (next : V → List V) : Prop :=
  ∀ v, ¬ Relation.TransGen (Arc next) v v

/-- A path that ends where it starts and meets no other vertex twice. -/
def IsClosedPath (next : V → List V) (path : List V) : Prop :=
  ∃ v mid, path = v :: mid ++ [v] ∧ (v :: mid).Nodup ∧ path.IsChain (Arc next)

/-- From where a relation can be gone against only finitely often, it leads nowhere back. -/
theorem not_transGen_of_acc {r : V → V → Prop} {v : V} (h : Acc r v) :
    ¬ Relation.TransGen (fun u w => r w u) v v := by
  intro hv
  have hswap : Relation.TransGen r v v := Relation.transGen_swap.mpr hv
  have hacc := h.transGen
  clear h hv
  induction hacc with
  | intro v _ ih => exact ih v hswap hswap

theorem acyclic_of_acc (h : ∀ v, Acc (fun w u => Arc next u w) v) : Acyclic next :=
  fun v => not_transGen_of_acc (h v)

/-- On finitely many vertices a relation that leads no vertex back to itself is well founded. -/
private theorem wellFounded_of_no_cycle [Finite V] {r : V → V → Prop}
    (h : ∀ v, ¬ Relation.TransGen r v v) : WellFounded r := by
  have : IsTrans V (Relation.TransGen r) := ⟨fun _ _ _ => Relation.TransGen.trans⟩
  have : Std.Irrefl (Relation.TransGen r) := ⟨h⟩
  exact Subrelation.wf Relation.TransGen.single
    (Finite.wellFounded_of_trans_of_irrefl (Relation.TransGen r))

/-- On finitely many vertices a relation can be gone against forever exactly from those to which it
leads from a cycle. -/
theorem not_acc_iff [Finite V] {r : V → V → Prop} {v : V} :
    ¬ Acc r v ↔ ∃ u, Relation.TransGen r u u ∧ Relation.ReflTransGen r u v := by
  constructor
  · intro hnot
    by_contra hnone
    -- If no cycle leads to `v`, there is none in the part of the relation that leads to `v`.
    have hwf : WellFounded fun u w => r u w ∧ Relation.ReflTransGen r w v :=
      wellFounded_of_no_cycle fun u hu => by
        obtain ⟨w, -, -, hend⟩ := Relation.TransGen.tail'_iff.mp hu
        exact hnone ⟨u, Relation.TransGen.mono (fun _ _ h => h.1) u u hu, hend⟩
    refine hnot (hwf.induction (C := fun w => Relation.ReflTransGen r w v → Acc r w) v ?_ .refl)
    exact fun w ih hw => ⟨w, fun u hu => ih u ⟨hu, hw⟩ (hw.head hu)⟩
  · rintro ⟨u, hcycle, hpath⟩ hacc
    have hu : Acc r u := hpath.head_induction_on hacc fun hstep _ ih => ih.inv hstep
    exact not_transGen_of_acc hu (Relation.transGen_swap.mpr hcycle)

/-- In a finite acyclic graph one can go against the arcs only finitely often. -/
theorem Acyclic.wellFounded [Finite V] (h : Acyclic next) : WellFounded (Arc next) :=
  wellFounded_of_no_cycle h

/-- Dropping arcs keeps a graph acyclic. -/
theorem Acyclic.mono {more : V → List V} (h : Acyclic more) (hsub : ∀ u, next u ⊆ more u) :
    Acyclic next :=
  fun v hv => h v (Relation.TransGen.mono (fun u _ harc => hsub u harc) v v hv)

/-- A map that carries arcs to arcs pulls acyclicity back. -/
theorem Acyclic.comap {W : Type} {other : W → List W} (f : V → W) (h : Acyclic other)
    (harc : ∀ u v, Arc next u v → Arc other (f u) (f v)) : Acyclic next :=
  fun v hv => h (f v) (hv.lift f harc)

/-! ### Closed paths -/

/-- A path along a relation that ends where it starts, and meets nothing else twice. -/
structure IsLoop {α : Type} (r : α → α → Prop) (path : List α) : Prop where
  /-- It leads somewhere. -/
  two_le_length : 2 ≤ path.length
  /-- It ends where it starts. -/
  head?_eq_getLast? : path.head? = path.getLast?
  /-- Nothing is met twice before its end. -/
  nodup_dropLast : path.dropLast.Nodup
  /-- It follows the relation. -/
  isChain : path.IsChain r

/-- What leads along a relation back to its start is a cycle. -/
theorem transGen_of_isChain {r : V → V → Prop} {v : V} {mid : List V}
    (h : (v :: mid ++ [v]).IsChain r) : Relation.TransGen r v v := by
  cases mid with
  | nil =>
    have hstep : r v v := by simpa using h
    exact .single hstep
  | cons w mid =>
    obtain ⟨hfirst, hrest⟩ := List.isChain_cons_cons.mp h
    have hreach : Relation.ReflTransGen r w v :=
      List.relationReflTransGen_of_exists_isChain_cons (mid ++ [v]) hrest (by simp)
    exact Relation.TransGen.head' hfirst hreach

namespace IsClosedPath

variable {path : List V}

/-- A closed path is a cycle. -/
theorem not_acyclic (h : IsClosedPath next path) : ¬ Acyclic next := by
  obtain ⟨v, mid, rfl, -, hchain⟩ := h
  exact fun hacyclic => hacyclic v (transGen_of_isChain hchain)

/-- Where a closed path is left along a relation, there is a cycle of the relation on it. -/
theorem exists_transGen {r : V → V → Prop} (h : IsClosedPath next path)
    (hr : ∀ u ∈ path, ∀ w ∈ path, Arc next u w → r u w) :
    ∃ v ∈ path, Relation.TransGen r v v := by
  obtain ⟨v, mid, rfl, -, hchain⟩ := h
  exact ⟨v, by simp, transGen_of_isChain
    (hchain.imp_of_mem_imp fun u w hu hw harc => hr u hu w hw harc)⟩

/-- From every vertex of a closed path there is an arc. -/
theorem exists_arc (h : IsClosedPath next path) {u : V} (hu : u ∈ path) : ∃ w, Arc next u w := by
  obtain ⟨v, mid, rfl, -, hchain⟩ := h
  have hmem : u ∈ v :: mid := by
    rcases List.mem_append.mp hu with hu | hu
    · exact hu
    · rw [List.mem_singleton.mp hu]
      exact List.mem_cons_self
  obtain ⟨pre, post, heq⟩ := List.append_of_mem hmem
  rw [heq, List.append_assoc, List.cons_append] at hchain
  have hrest := (List.isChain_append.mp hchain).2.1
  cases post with
  | nil => exact ⟨v, (List.isChain_cons_cons.mp hrest).1⟩
  | cons w post => exact ⟨w, (List.isChain_cons_cons.mp hrest).1⟩

/-- A closed path is one against the arcs too, read from its end. -/
theorem reverse {other : V → List V} (h : IsClosedPath next path)
    (harc : ∀ u w, Arc next u w → Arc other w u) : IsClosedPath other path.reverse := by
  obtain ⟨v, mid, rfl, hnodup, hchain⟩ := h
  obtain ⟨hv, hmid⟩ := List.nodup_cons.mp hnodup
  refine ⟨v, mid.reverse, by simp, List.nodup_cons.mpr ⟨by simpa using hv, ?_⟩, ?_⟩
  · exact List.nodup_reverse.mpr hmid
  · exact List.isChain_reverse.mpr (hchain.imp fun u w => harc u w)

/-- A closed path whose vertices have names of their own is a loop of names. -/
theorem isLoop_map {α : Type} {f : V → α} {r : α → α → Prop} (h : IsClosedPath next path)
    (hf : ∀ u ∈ path, ∀ w ∈ path, f u = f w → u = w)
    (hr : ∀ u w, Arc next u w → r (f u) (f w)) : IsLoop r (path.map f) := by
  obtain ⟨v, mid, rfl, hnodup, hchain⟩ := h
  refine ⟨by simp, ?_, ?_, ?_⟩
  · rw [List.map_append, List.map_cons, List.map_singleton, List.getLast?_concat,
      List.cons_append, List.head?_cons]
  · rw [List.map_append, List.map_singleton, List.dropLast_concat]
    exact hnodup.map_on fun u hu w hw => hf u (List.mem_append_left _ hu) w
      (List.mem_append_left _ hw)
  · exact (List.isChain_map f).mpr (hchain.imp fun u w => hr u w)

end IsClosedPath

end SceneFlow.Digraph
