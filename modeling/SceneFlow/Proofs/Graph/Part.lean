import Mathlib
import SceneFlow.Proofs.Compile.Tracing
import SceneFlow.Proofs.Value.Evaluation

/-!
# Parts of networks

A part of a network has all its nodes but some drawable ones, in any order, and the links between
its nodes. A network whose nodes are put in another order is a part of itself in this sense. Since
no value leaves a drawable node, the variables of a part have the values that they have in the
whole.

## Main definitions

* `Network.Part`: how one network is part of another.

## Main results

* `Network.Part.objectLinksInto_eq`, `Network.Part.valueLinksInto_eq`: the links into a node of a
  part are those of the whole.
* `Network.Part.get?_eq`: the values of a part are those of the whole.
-/

namespace SceneFlow

/-- A link between other places. -/
def Link.along {n m : Nat} (place : Fin n → Fin m) (link : Link n) : Link m :=
  ⟨link.edge, place link.source, place link.target⟩

namespace Network

/-- How one network is part of another. -/
structure Part (part whole : Network) where
  /-- Where the nodes of the part are in the whole. -/
  place : Fin part.size → Fin whole.size
  /-- No two of them are at one place. -/
  injective : Function.Injective place
  /-- They are the same nodes. -/
  node_eq : ∀ v, whole.node (place v) = part.node v
  /-- The links of the part are those of the whole between its nodes, in their order. -/
  links_eq : part.links.map (Link.along place) = whole.links.filter fun link =>
    (∃ v, place v = link.source) ∧ ∃ v, place v = link.target
  /-- The other nodes of the whole are drawable. -/
  outside : ∀ u, (∀ v, place v ≠ u) → (whole.node u).kind.isDrawable = true

namespace Part

variable {part whole : Network} (h : Part part whole)

theorem id_eq (v : Fin part.size) : whole.id (h.place v) = part.id v :=
  congrArg Node.id (h.node_eq v)

theorem carriesObjects_along (link : Link part.size) :
    whole.carriesObjects (link.along h.place) = part.carriesObjects link := by
  rw [carriesObjects, carriesObjects, Link.along, h.node_eq]

/-- Nodes that are not drawable are in the part. -/
theorem exists_place {u : Fin whole.size} (hu : (whole.node u).kind.isDrawable = false) :
    ∃ v, h.place v = u := by
  by_contra hnot
  have hdrawable := h.outside u fun v hv => hnot ⟨v, hv⟩
  simp [hu] at hdrawable

/-! ### Links into nodes of the part -/

/-- The links of the whole from nodes of the part into one of them. -/
theorem filter_links_eq (v : Fin part.size) (p : Link whole.size → Bool) :
    (whole.links.filter fun link => link.target = h.place v && p link).filter
        (fun link => ∃ u, h.place u = link.source) =
      ((part.links.filter fun link => link.target = v && p (link.along h.place)).map
        (Link.along h.place)) := by
  have hwhole : (whole.links.filter fun link => link.target = h.place v && p link).filter
      (fun link => ∃ u, h.place u = link.source) =
      (part.links.map (Link.along h.place)).filter fun link =>
        link.target = h.place v && p link := by
    rw [h.links_eq, List.filter_filter, List.filter_filter]
    refine List.filter_congr fun link _ => ?_
    by_cases htarget : link.target = h.place v
    · have hin : ∃ u, h.place u = link.target := ⟨v, htarget.symm⟩
      simp [htarget, Bool.and_comm]
    · simp [htarget]
  rw [hwhole, List.filter_map]
  refine congrArg _ (List.filter_congr fun link _ => ?_)
  simp [Link.along, h.injective.eq_iff]

/-- Objects enter a node of a part along the links of the whole, but for those from nodes that are
not in the part. -/
theorem objectLinksInto_eq (v : Fin part.size) :
    (whole.objectLinksInto (h.place v)).filter (fun link => ∃ u, h.place u = link.source) =
      (part.objectLinksInto v).map (Link.along h.place) := by
  rw [objectLinksInto, objectLinksInto, h.filter_links_eq]
  simp only [h.carriesObjects_along]

/-- Values enter a node of a part along the links of the whole. -/
theorem valueLinksInto_eq (v : Fin part.size) :
    whole.valueLinksInto (h.place v) =
      (part.valueLinksInto v).map (Link.along h.place) := by
  have hfilter : ∀ (net : Network) (w : Fin net.size), net.valueLinksInto w =
      net.links.filter fun link => link.target = w && !net.carriesObjects link := fun net w => by
    rw [valueLinksInto, incoming_eq_filter, List.filter_filter]
    exact List.filter_congr fun link _ => Bool.and_comm _ _
  have hsource : ∀ link ∈ whole.valueLinksInto (h.place v), ∃ u, h.place u = link.source := by
    intro link hlink
    have hvalue : (whole.node link.source).kind.isValue = true := by
      simpa [carriesObjects] using (List.mem_filter.mp hlink).2
    exact h.exists_place (NodeKind.isDrawable_of_isValue hvalue)
  have hall : (whole.valueLinksInto (h.place v)).filter
      (fun link => ∃ u, h.place u = link.source) = whole.valueLinksInto (h.place v) :=
    List.filter_eq_self.mpr fun link hlink => decide_eq_true (hsource link hlink)
  rw [← hall, hfilter, hfilter, h.filter_links_eq]
  simp only [h.carriesObjects_along]

/-! ### Values -/

variable {limits limits' : Limits}

/-- A value node of a part has the value that it has in the whole. -/
theorem valueAt_eq (hpart : Sound limits part) (hwhole : Sound limits' whole)
    {v : Fin part.size} (hv : (part.node v).kind.isValue = true) :
    whole.valueAt (h.place v) = part.valueAt v := by
  induction v using (acyclic_valuesBehind hpart).wellFounded.induction with
  | _ v ih =>
    rw [Network.valueAt_eq hpart hv, Network.valueAt_eq hwhole (by rw [h.node_eq, hv]), h.node_eq,
      h.valueLinksInto_eq, List.map_map]
    refine congrArg _ (List.map_congr_left fun link hlink => ?_)
    obtain ⟨hsource, harc⟩ := mem_valuesBehind_of_mem hv hlink
    exact congrArg (Prod.mk _) (ih _ harc (mem_valuePlaces.mp hsource))

include h in
/-- The values of a part are those of the whole. -/
theorem get?_eq (hpart : Sound limits part) (hwhole : Sound limits' whole)
    {values values' : VariableValues} (hvalues : part.evaluate = .ok values)
    (hvalues' : whole.evaluate = .ok values') (id : NodeId) :
    values'.get? id = values.get? id := by
  refine Option.ext fun value => ?_
  rw [get?_eq_some_iff hwhole hvalues', get?_eq_some_iff hpart hvalues]
  constructor
  · rintro ⟨u, hu, rfl, hvalue⟩
    obtain ⟨v, rfl⟩ := h.exists_place (NodeKind.isDrawable_of_isValue hu)
    rw [h.node_eq] at hu
    rw [h.valueAt_eq hpart hwhole hu] at hvalue
    exact ⟨v, hu, (h.id_eq v).symm, hvalue⟩
  · rintro ⟨v, hv, rfl, hvalue⟩
    exact ⟨h.place v, by rw [h.node_eq, hv], h.id_eq v,
      by rw [h.valueAt_eq hpart hwhole hv, hvalue]⟩

end Part

end Network

end SceneFlow
