import SceneFlow.Proofs.Value.Dataflow

/-!
# Undefined operands

What a node makes of an undefined operand is undefined. The value that it holds for a free port does
not stand in for it, and nothing that arrives at another port does. A variable differs: if what
arrives at its port is undefined, it has the value that arrives first of all, as if its port were
free. So it is undefined only if that value is undefined too, or not of the declared type.

## Main definitions

* `NodeKind.operandPorts`: the ports at which a node needs values.

## Main results

* `NodeKind.value_eq_none`, `Variable.value_eq_first`: what nodes make of an undefined operand.
* `Network.undefined_of_operand`: what the value of a node is then.
-/

namespace SceneFlow

/-- The ports at which a node needs values. -/
def NodeKind.operandPorts : NodeKind → List String
  | .result _ => ["value"]
  | .comparison _ | .math _ => ["a", "b"]
  | .logic data => if data.op = .not then ["a"] else ["a", "b"]
  | _ => []

/-! ### Operations -/

section Operations

variable {inputs : Inputs} {port : String} {input : PortId × Option Json}

/-- What arrives first at a port is the operand, also if it is undefined. -/
theorem Inputs.operand_eq (h : inputs.find? (fun input => input.1.text = port) = some input)
    (fallback : Option Json) : inputs.operand port fallback = input.2 := by
  rw [operand, h]

/-- The value of a variable at whose port an undefined value arrives is the one that arrives first
of all, if it is of the declared type. -/
theorem Variable.value_eq_first (data : Variable)
    (h : inputs.find? (fun input => input.1.text = "value") = some input)
    (hinput : input.2 = none) :
    data.value inputs = inputs.first.filter fun value =>
      data.valueType.all fun type => type.holds value := by
  rw [Variable.value, Inputs.operand_eq h, hinput, Option.none_or]
  match inputs.first, data.valueType with
  | none, _ => rfl
  | some _, none => rfl
  | some value, some type => exact (Option.filter_some).symm

/-- Other nodes than variables make nothing of an undefined operand. -/
theorem NodeKind.value_eq_none {kind : NodeKind} (hvariable : kind.isVariable = false)
    (hport : port ∈ kind.operandPorts)
    (h : inputs.find? (fun input => input.1.text = port) = some input) (hinput : input.2 = none) :
    kind.value inputs = none := by
  have hoperand : ∀ fallback, inputs.operand port fallback = none := fun fallback => by
    rw [Inputs.operand_eq h, hinput]
  match kind with
  | .comparison data =>
    rcases List.mem_pair.mp hport with rfl | rfl <;>
      simp [NodeKind.value, Comparison.value, hoperand]
  | .math data =>
    rcases List.mem_pair.mp hport with rfl | rfl <;>
      simp [NodeKind.value, Arithmetic.value, hoperand]
  | .logic data =>
    rw [NodeKind.operandPorts] at hport
    split at hport
    · obtain rfl := List.mem_singleton.mp hport
      simp [NodeKind.value, Logic.value, hoperand]
    · rcases List.mem_pair.mp hport with rfl | rfl
      · simp [NodeKind.value, Logic.value, hoperand]
      · simp [NodeKind.value, Logic.value, *]

end Operations

/-- Only value nodes need values. -/
theorem NodeKind.isValue_of_mem_operandPorts {kind : NodeKind} {port : String}
    (h : port ∈ kind.operandPorts) : kind.isValue = true := by
  cases kind <;> first | rfl | cases h

theorem NodeKind.exists_of_isVariable {kind : NodeKind} (h : kind.isVariable = true) :
    ∃ data, kind = .result data := by
  match kind with
  | .result data => exact ⟨data, rfl⟩

/-! ### Networks -/

namespace Network

variable {graph : Graph} {net : Network} {v : Fin net.size} {port : String}
  {link : Link net.size} {values : VariableValues}

/-- The value of a value node from those that are looked up under the names of the nodes before
it. -/
theorem get?_id_eq_value (hid : Function.Injective net.id) (hvalues : net.evaluate = .ok values)
    (hv : (net.node v).kind.isValue = true) : values.get? (net.id v) =
      (net.node v).kind.value ((net.valueLinksInto v).map fun link =>
        (link.edge.targetPort, values.get? (net.id link.source))) := by
  rw [get?_id_eq hid hvalues hv, solves_valueAt hvalues v hv]
  refine congrArg _ (List.map_congr_left fun link hlink => ?_)
  rw [get?_id_eq hid hvalues (mem_valuePlaces.mp (mem_valuesBehind_of_mem hv hlink).1)]

theorem find?_map_valueLinksInto (value : Fin net.size → Option Json)
    (h : (net.valueLinksInto v).find? (fun link => link.edge.targetPort.text = port) = some link) :
    ((net.valueLinksInto v).map fun link => (link.edge.targetPort, value link.source)).find?
        (fun input => input.1.text = port) =
      some (link.edge.targetPort, value link.source) := by
  rw [List.find?_map]
  exact congrArg (Option.map _) h

theorem first_map_valueLinksInto (value : Fin net.size → Option Json) :
    Inputs.first
        ((net.valueLinksInto v).map fun link => (link.edge.targetPort, value link.source)) =
      (net.valueLinksInto v).head?.bind fun link => value link.source := by
  cases net.valueLinksInto v <;> rfl

/-- What arrives first at one of the operand ports of a node is undefined. -/
def LacksOperand (net : Network) (values : VariableValues) (v : Fin net.size) : Prop :=
  ∃ port ∈ (net.node v).kind.operandPorts, ∃ link,
    (net.valueLinksInto v).find? (fun link => link.edge.targetPort.text = port) = some link ∧
      values.get? (net.id link.source) = none

instance decidableLacksOperand (net : Network) (values : VariableValues) (v : Fin net.size) :
    Decidable (net.LacksOperand values v) :=
  decidable_of_iff (∃ port ∈ (net.node v).kind.operandPorts,
      ((net.valueLinksInto v).find? fun link => link.edge.targetPort.text = port).any
        fun link => (values.get? (net.id link.source)).isNone) <| by
    simp only [LacksOperand, Option.any_eq_true, Option.isNone_iff_eq_none]

/-- The values arrive at a node in the order of the names of their edges. If the first one at an
operand port is undefined, the value of the node is undefined too; but a variable then has the value
that arrives first of all, and is undefined only if that is undefined or not of its type. -/
theorem undefined_of_operand (hnet : ofGraph graph = .ok net)
    (hid : (graph.nodes.map RawNode.id).Nodup) (hvalues : net.evaluate = .ok values) :
    (∀ v, (net.valueLinksInto v).Pairwise fun a b => a.edge.id.text ≤ b.edge.id.text) ∧
      ∀ v, net.LacksOperand values v →
        (((net.node v).kind.isVariable = true → ∀ first,
            (net.valueLinksInto v).head? = some first → values.get? (net.id first.source) = none) →
          values.get? (net.id v) = none) ∧
        ∀ data, (net.node v).kind = .result data → values.get? (net.id v) =
          ((net.valueLinksInto v).head?.bind fun first =>
            values.get? (net.id first.source)).filter fun value =>
              data.valueType.all fun type => type.holds value := by
  refine ⟨pairwise_valueLinksInto hnet, ?_⟩
  rintro v ⟨port, hport, link, hlink, hundefined⟩
  have hvalue := get?_id_eq_value (id_injective_of_nodup hnet hid) hvalues
    (NodeKind.isValue_of_mem_operandPorts hport)
  have hinput := find?_map_valueLinksInto (fun u => values.get? (net.id u)) hlink
  have hvariable : ∀ data, (net.node v).kind = .result data → values.get? (net.id v) =
      ((net.valueLinksInto v).head?.bind fun first => values.get? (net.id first.source)).filter
        fun value => data.valueType.all fun type => type.holds value := fun data hdata => by
    rw [hdata] at hvalue hport
    obtain rfl := List.mem_singleton.mp hport
    rw [hvalue, ← first_map_valueLinksInto fun u => values.get? (net.id u)]
    exact data.value_eq_first hinput hundefined
  refine ⟨fun hfirst => ?_, hvariable⟩
  cases hkind : (net.node v).kind.isVariable with
  | false =>
    rw [hvalue]
    exact NodeKind.value_eq_none hkind hport hinput hundefined
  | true =>
    obtain ⟨data, hdata⟩ := NodeKind.exists_of_isVariable hkind
    rw [hvariable data hdata, Option.bind_eq_none_iff.mpr (hfirst hkind)]
    rfl

end Network

/-- The connective `u` has no operand and no value. It runs into a port of the comparison `c`, which
holds values for both its ports, and into the port of the variable `r`, at which the constant `k`
arrives before it. -/
def overruled : Graph where
  nodes :=
    [.small "k" "constant" [("value", .bool true)], .small "u" "boolean" [("op", .str "not")],
      .small "c" "comparison" [("a", .bool true), ("b", .bool true), ("op", .str "eq")],
      .small "r" "result" []]
  edges := [.plain "e1" "k" "r", .input "e2" "u" "c" "a", .input "e3" "u" "r" "value"]

/-- The comparison and the variable lack an operand, and the variable has a value. -/
theorem exists_evaluate_overruled :
    ∃ net values v w, Network.ofGraph overruled = .ok net ∧ net.evaluate = .ok values ∧
      net.find? ⟨"c"⟩ = some v ∧ net.LacksOperand values v ∧
      (net.node v).kind.isVariable = false ∧
      net.find? ⟨"r"⟩ = some w ∧ net.LacksOperand values w ∧
      (net.node w).kind.isVariable = true ∧
      (values.get? ⟨"r"⟩).bind Json.toBool? = some true := by
  obtain ⟨net, values, hnet, hvalues, hseen⟩ := exists_evaluate_of_sorted overruled
    (fun net values =>
      ((net.find? ⟨"c"⟩).any fun v =>
          net.LacksOperand values v && (net.node v).kind.isVariable == false) &&
        ((net.find? ⟨"r"⟩).any fun v =>
          net.LacksOperand values v && (net.node v).kind.isVariable) &&
        (values.get? ⟨"r"⟩).bind Json.toBool? == some true)
    (by decide) (by decide +kernel)
  simp only [Bool.and_eq_true, Option.any_eq_true, decide_eq_true_eq, beq_iff_eq] at hseen
  obtain ⟨⟨⟨v, hv, hlacks, hkind⟩, w, hw, hlacks', hkind'⟩, hvalue⟩ := hseen
  exact ⟨net, values, v, w, hnet, hvalues, hv, hlacks, hkind, hw, hlacks', hkind', hvalue⟩

theorem undefined_of_operand_overruled :
    ∃ net values v w data, Network.ofGraph overruled = .ok net ∧
      (overruled.nodes.map RawNode.id).Nodup ∧ net.evaluate = .ok values ∧
      net.id v = ⟨"c"⟩ ∧ net.LacksOperand values v ∧ values.get? ⟨"c"⟩ = none ∧
      net.id w = ⟨"r"⟩ ∧ net.LacksOperand values w ∧ (net.node w).kind = .result data ∧
      values.get? ⟨"r"⟩ = ((net.valueLinksInto w).head?.bind fun first =>
        values.get? (net.id first.source)).filter fun value =>
          data.valueType.all fun type => type.holds value := by
  obtain ⟨net, values, v, w, hnet, hvalues, hv, hlacks, hkind, hw, hlacks', hkind', -⟩ :=
    exists_evaluate_overruled
  have hid : (overruled.nodes.map RawNode.id).Nodup := by decide
  obtain ⟨data, hdata⟩ := NodeKind.exists_of_isVariable hkind'
  obtain ⟨-, hundefined⟩ := Network.undefined_of_operand hnet hid hvalues
  have hnone := (hundefined v hlacks).1 fun hvariable => by simp [hkind] at hvariable
  have hfirst := (hundefined w hlacks').2 data hdata
  rw [Network.id_of_find? hv] at hnone
  rw [Network.id_of_find? hw] at hfirst
  exact ⟨net, values, v, w, data, hnet, hid, hvalues, Network.id_of_find? hv, hlacks, hnone,
    Network.id_of_find? hw, hlacks', hdata, hfirst⟩

/-- A variable has a value although the one that arrives at its port is undefined. -/
theorem exists_value_of_lacksOperand :
    ∃ graph net values v, Network.ofGraph graph = .ok net ∧
      (graph.nodes.map RawNode.id).Nodup ∧ net.evaluate = .ok values ∧
      net.LacksOperand values v ∧ values.get? (net.id v) ≠ none := by
  obtain ⟨net, values, -, w, hnet, hvalues, -, -, -, hw, hlacks, -, hvalue⟩ :=
    exists_evaluate_overruled
  refine ⟨overruled, net, values, w, hnet, by decide, hvalues, hlacks, fun hnone => ?_⟩
  rw [Network.id_of_find? hw] at hnone
  simp [hnone] at hvalue

end SceneFlow
