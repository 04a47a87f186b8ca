import SceneFlow.Proofs.Value.Dataflow

/-!
# Values of nodes that share a name

If nodes share a name, all edges with that name are attached to the first of them. But the value
that is looked up under the name is that of the last value node among them. No edge enters that
node unless it is the first, so its value is what it makes of no values at all.

## Main definitions

* `Network.Overtakes`: a node is a value node that comes after another of the same name.

## Main results

* `Network.valueLinksInto_eq_nil`: no values arrive at a node that is not the first of its name.
* `Network.lookup_spec`: what is looked up under a name, by the node that the name finds.
-/

namespace SceneFlow

namespace Network

variable {graph : Graph} {net : Network} {u v w : Fin net.size} {id : NodeId}
  {values : VariableValues}

/-- The node `u` is a value node that comes after `v` and has its name. -/
def Overtakes (net : Network) (u v : Fin net.size) : Prop :=
  v < u ∧ net.id u = net.id v ∧ (net.node u).kind.isValue = true

instance decidableOvertakes (net : Network) (u v : Fin net.size) : Decidable (net.Overtakes u v) :=
  inferInstanceAs (Decidable (_ ∧ _ ∧ _))

theorem Overtakes.trans (h : net.Overtakes w u) (h' : net.Overtakes u v) : net.Overtakes w v :=
  ⟨h'.1.trans h.1, h.2.1.trans h'.2.1, h.2.2⟩

/-- Of the nodes that overtake a node, one is overtaken by none. -/
theorem Overtakes.exists_last (h : net.Overtakes u v) :
    ∃ w, net.Overtakes w v ∧ ∀ x, ¬ net.Overtakes x w := by
  obtain ⟨w, hw⟩ := (Set.toFinite {x | net.Overtakes x v}).exists_maximal ⟨u, h⟩
  exact ⟨w, hw.prop, fun x hx => hw.not_gt (hx.trans hw.prop) hx.1⟩

/-! ### Links -/

/-- No values arrive at a node that is not the first of its name. -/
theorem valueLinksInto_eq_nil (hnet : ofGraph graph = .ok net) (hlt : u < v)
    (hid : net.id u = net.id v) : net.valueLinksInto v = [] := by
  refine List.eq_nil_iff_forall_not_mem.mpr fun link hlink => ?_
  obtain ⟨hmem, rfl⟩ := mem_incoming_iff.mp (List.mem_filter.mp hlink).1
  obtain ⟨hname, hfirst⟩ := find?_eq_some_iff.mp ((mem_links_iff hnet).mp hmem).2.2.1
  exact hfirst u hlt (hid.trans hname)

/-! ### What is looked up -/

/-- Of value nodes with one name, the value of the last one is looked up. -/
theorem get?_id_of_not_overtakes (hvalues : net.evaluate = .ok values)
    (hv : (net.node v).kind.isValue = true) (hlast : ∀ u, ¬ net.Overtakes u v) :
    values.get? (net.id v) = net.valueAt v := by
  obtain rfl := eq_of_evaluate hvalues
  exact get?_map_valuePlaces_of_last net.valueAt hv fun u hlt hu hid => hlast u ⟨hlt, hid, hu⟩

/-- Under a name that value nodes do not have, no value is looked up. -/
theorem get?_eq_none (hvalues : net.evaluate = .ok values)
    (hid : ∀ v, (net.node v).kind.isValue = true → net.id v ≠ id) : values.get? id = none := by
  obtain rfl := eq_of_evaluate hvalues
  exact get?_map_valuePlaces_eq_none net.valueAt hid

/-- If no node overtakes the one that a name finds, its value is looked up under the name. -/
theorem get?_of_not_overtakes (hvalues : net.evaluate = .ok values) (hfind : net.find? id = some v)
    (hlast : ∀ u, ¬ net.Overtakes u v) :
    values.get? id = if (net.node v).kind.isValue then net.valueAt v else none := by
  obtain ⟨rfl, hfirst⟩ := find?_eq_some_iff.mp hfind
  split
  · exact get?_id_of_not_overtakes hvalues ‹_› hlast
  · rename_i hv
    refine get?_eq_none hvalues fun u hu hid => ?_
    -- Another node of the name comes before or overtakes.
    rcases lt_trichotomy u v with hlt | rfl | hlt
    · exact hfirst u hlt hid
    · exact hv hu
    · exact hlast u ⟨hlt, hid, hu⟩

/-- Otherwise it is what the last node that overtakes makes of no values. -/
theorem get?_of_overtakes (hnet : ofGraph graph = .ok net) (hvalues : net.evaluate = .ok values)
    (h : net.Overtakes u v) (hlast : ∀ w, ¬ net.Overtakes w u) :
    values.get? (net.id v) = (net.node u).kind.value [] := by
  obtain ⟨hlt, hid, hu⟩ := h
  rw [← hid, get?_id_of_not_overtakes hvalues hu hlast, solves_valueAt hvalues u hu,
    valueLinksInto_eq_nil hnet hlt hid.symm, List.map_nil]

/-- Where the evaluation succeeds, the equations for the values of a network have one solution. A
name finds the first node that has it, and all edges with that name are attached there. The value of
this node is looked up under the name unless a later value node has the name too. Then it is the
last one whose value is looked up, and to this one no values arrive. -/
theorem lookup_spec (hnet : ofGraph graph = .ok net) (hvalues : net.evaluate = .ok values) :
    (∀ link ∈ net.links, net.find? link.edge.source = some link.source ∧
        net.find? link.edge.target = some link.target) ∧
      (∀ id, net.find? id = none → values.get? id = none) ∧
      ∃ value, net.Solves value ∧
        (∀ other, net.Solves other →
          ∀ v, (net.node v).kind.isValue = true → other v = value v) ∧
        ∀ id v, net.find? id = some v →
          (net.id v = id ∧ ∀ u < v, net.id u ≠ id) ∧
          ((∀ u, ¬ net.Overtakes u v) →
            values.get? id = if (net.node v).kind.isValue then value v else none) ∧
          ((∃ u, net.Overtakes u v) → ∃ u, net.Overtakes u v ∧ (∀ w, ¬ net.Overtakes w u) ∧
            values.get? id = (net.node u).kind.value []) := by
  refine ⟨fun link hlink => ?_, fun id hid => ?_, net.valueAt, solves_valueAt hvalues,
    fun other hother v hv => hother.eq_valueAt (mem_valueOrder_of_evaluate hvalues hv),
    fun id v hfind => ⟨find?_eq_some_iff.mp hfind, get?_of_not_overtakes hvalues hfind, ?_⟩⟩
  · obtain ⟨-, hsource, htarget, -⟩ := (mem_links_iff hnet).mp hlink
    exact ⟨hsource, htarget⟩
  · exact get?_eq_none hvalues fun v _ => find?_eq_none_iff.mp hid v
  · rintro ⟨u, hu⟩
    obtain ⟨w, hw, hlast⟩ := hu.exists_last
    refine ⟨w, hw, hlast, ?_⟩
    rw [← id_of_find? hfind]
    exact get?_of_overtakes hnet hvalues hw hlast

end Network

/-- Two constants `x` with different values, and the variable `r` that shows the first. -/
def namesakes : Graph where
  nodes :=
    [.small "x" "constant" [("value", .bool true)], .small "x" "constant" [("value", .bool false)],
      .small "r" "result" []]
  edges := [.input "e" "x" "r" "value"]

/-- The value of the second constant is looked up, although the first one is found. -/
theorem exists_evaluate_namesakes :
    ∃ net values u v w, Network.ofGraph namesakes = .ok net ∧ net.evaluate = .ok values ∧
      net.find? ⟨"x"⟩ = some v ∧ (net.node v).kind.isValue = true ∧ net.Overtakes u v ∧
      net.find? ⟨"r"⟩ = some w ∧ (net.node w).kind.isValue = true ∧
      (∀ x, ¬ net.Overtakes x w) ∧
      (net.valueAt v).bind Json.toBool? = some true ∧
      (values.get? ⟨"x"⟩).bind Json.toBool? = some false := by
  obtain ⟨net, values, hnet, hvalues, hseen⟩ := exists_evaluate_of_sorted namesakes
    (fun net values =>
      ((net.find? ⟨"x"⟩).any fun v =>
          (net.node v).kind.isValue && decide (∃ u, net.Overtakes u v) &&
            (net.valueAt v).bind Json.toBool? == some true) &&
        ((net.find? ⟨"r"⟩).any fun w =>
          (net.node w).kind.isValue && decide (∀ x, ¬ net.Overtakes x w)) &&
        (values.get? ⟨"x"⟩).bind Json.toBool? == some false)
    (by decide) (by decide +kernel)
  simp only [Bool.and_eq_true, Option.any_eq_true, decide_eq_true_eq, beq_iff_eq] at hseen
  obtain ⟨⟨⟨v, hv, ⟨hkind, u, hu⟩, hown⟩, w, hw, hkind', hlast⟩, hvalue⟩ := hseen
  exact ⟨net, values, u, v, w, hnet, hvalues, hv, hkind, hu, hw, hkind', hlast, hown, hvalue⟩

theorem lookup_spec_namesakes :
    ∃ net values value u v w, Network.ofGraph namesakes = .ok net ∧
      net.evaluate = .ok values ∧ net.Solves value ∧
      net.find? ⟨"x"⟩ = some v ∧ net.Overtakes u v ∧
      values.get? ⟨"x"⟩ = (net.node u).kind.value [] ∧
      net.find? ⟨"r"⟩ = some w ∧ (∀ x, ¬ net.Overtakes x w) ∧
      values.get? ⟨"r"⟩ = value w := by
  obtain ⟨net, values, u, v, w, hnet, hvalues, hv, -, hu, hw, hkind, hlast, -, -⟩ :=
    exists_evaluate_namesakes
  obtain ⟨-, -, value, hsolves, -, hlookup⟩ := Network.lookup_spec hnet hvalues
  obtain ⟨u, hu, -, hvalue⟩ := (hlookup _ v hv).2.2 ⟨u, hu⟩
  have hvalue' := (hlookup _ w hw).2.1 hlast
  rw [if_pos hkind] at hvalue'
  exact ⟨net, values, value, u, v, w, hnet, hvalues, hsolves, hv, hu, hvalue, hw, hlast, hvalue'⟩

/-- What is looked up under a name need not be the value of the node that the name finds. -/
theorem exists_lookup_ne :
    ∃ graph net values value id v, Network.ofGraph graph = .ok net ∧ net.evaluate = .ok values ∧
      net.Solves value ∧ net.find? id = some v ∧ (net.node v).kind.isValue = true ∧
      values.get? id ≠ value v := by
  obtain ⟨net, values, -, v, -, hnet, hvalues, hv, hkind, -, -, -, -, hown, hvalue⟩ :=
    exists_evaluate_namesakes
  refine ⟨namesakes, net, values, net.valueAt, ⟨"x"⟩, v, hnet, hvalues,
    Network.solves_valueAt hvalues, hv, hkind, fun heq => ?_⟩
  rw [heq, hown] at hvalue
  cases hvalue

end SceneFlow
