import SceneFlow.Proofs.Compile.Delivery
import SceneFlow.Proofs.Compile.Invariant
import SceneFlow.Proofs.Compile.Outcome
import SceneFlow.Proofs.Compile.Tracing
import SceneFlow.Proofs.Graph.Upstream
import SceneFlow.Proofs.Motion.Rendering
import SceneFlow.Proofs.Value.Evaluation

/-!
# Networks that validation accepts

Whatever comes behind validation relies on it. The values are evaluated and the objects sent in
orders that leave out circles; a token is sent to nodes that do not expect one only if a link leads
there; an object is made of a token only if its drawable node is found, and a scene only if the
terminal is one. In an accepted network none of these things goes wrong. To say so, the steps that
could fail are given here with their guards, and proved to be the steps of a run.

## Main definitions

* `Network.validate`: the terminal of an accepted network.
* `Network.materialize`, `Network.materializeAll`, `Network.assemble?`: how tokens become objects,
  and objects a scene, where the nodes that this takes may be missing.
* `Network.Accepted`: what can be relied on behind validation.

## Main results

* `Network.validate_eq_some_iff`: the networks that validation accepts are the sound ones.
* `Network.prepare_eq_ok_iff_validate`: what is prepared has been accepted.
* `Network.Sound.accepted`, `Network.accepted_of_validate`: everything that can be relied on is the
  case in the networks that validation accepts.
-/

namespace SceneFlow

/-! ### Steps with guards -/

namespace Network

/-- The only terminal of a network, unless validation finds an error. -/
def validate (net : Network) (limits : Limits) : Option (Fin net.size) :=
  if (net.findings limits).any Finding.isError then none
  else
    match net.places.filter fun v => (net.node v).kind.isTerminal with
    | [terminal] => some terminal
    | _ => none

/-- The object that a delivered token becomes, and what is found. There is none if the node that
the token comes from is not there or not drawable, which is not told, and none if its transform
cannot be read, which is. -/
def materialize (net : Network) (resolver : Resolver) (token : Token) :
    Option SceneObject × List Finding :=
  match (net.find? token.origin).map fun v => (net.node v).kind with
  | some (.geometry data) =>
    match { token with geometry := data }.object resolver with
    | (.ok object, notes) => (some object, notes)
    | (.error finding, notes) => (none, notes ++ [finding])
  | _ => (none, [])

/-- What delivered tokens become, the motions only of those that become objects. -/
def materializeAll (net : Network) (resolver : Resolver) (delivered : List Token) : Cast :=
  let results := delivered.map fun token => (token, net.materialize resolver token)
  { objects := results.filterMap fun (_, object, _) => object
    motions := results.flatMap fun (token, object, _) =>
      if object.isSome then token.objectMotions else []
    findings := results.flatMap fun (_, _, notes) => notes }

/-- The scene of a terminal, and what is found of its times. Other nodes have none. -/
def assemble? (net : Network) (terminal : Fin net.size) (cast : Cast) :
    Option (Scene × List Finding) :=
  match (net.node terminal).kind with
  | .terminal output canvas => some (cast.scene output canvas)
  | _ => none

end Network

/-- The node that a token comes from is a drawable node, with the shape of the token. -/
def Token.Grounded (net : Network) (token : Token) : Prop :=
  ∃ v, net.find? token.origin = some v ∧ (net.node v).kind = .geometry token.geometry

namespace Network

/-- What can be relied on behind validation, which has given the terminal. -/
structure Accepted (net : Network) (terminal : Fin net.size) : Prop where
  /-- No edges run in a circle. -/
  findCycle? : net.findCycle? = none
  /-- The values of the variables can be evaluated. -/
  evaluate : ∃ values, net.evaluate = .ok values
  /-- The objects that can reach a node can be told. -/
  upstreamObjects : ∀ v, ∃ objects, net.upstreamObjects (net.id v) = .ok objects
  /-- The variables that can be seen from a node can be told. -/
  visibleVariables : ∀ v, ∃ refs, net.visibleVariables (net.id v) = .ok refs
  /-- No node has two turns. -/
  nodup_objectOrder : net.objectOrder.Nodup
  /-- Every node has its turn. -/
  mem_objectOrder : ∀ v, v ∈ net.objectOrder
  /-- Nothing is sent to drawable nodes and value nodes. -/
  sent : ∀ settings, ∀ parcel ∈ (net.flow settings).sent,
    (net.node parcel.1).kind.isDrawable = false ∧ (net.node parcel.1).kind.isValue = false
  /-- Tokens come from drawable nodes. -/
  grounded : ∀ settings token, net.HasToken settings token → token.Grounded net
  /-- If a token does not become an object, an error is told. -/
  materialize : ∀ settings token, net.HasToken settings token →
    (net.materialize settings.resolver token).1 = none →
      (net.materialize settings.resolver token).2.any Finding.isError = true
  /-- Delivered tokens become what they become without guards. -/
  materializeAll : ∀ settings,
    net.materializeAll settings.resolver (net.flow settings).delivered =
      .ofTokens settings.resolver (net.flow settings).delivered
  /-- The terminal has a scene, and it is the scene of the only terminal. -/
  assemble? : ∃ output canvas, net.terminal? = some (output, canvas) ∧
    ∀ cast, net.assemble? terminal cast = some (cast.scene output canvas)

variable {limits : Limits} {net : Network} {terminal : Fin net.size} {settings : FlowSettings}
  {token : Token}

/-! ### Validation -/

/-- The networks that validation accepts are the sound ones, and it gives their terminal. -/
theorem validate_eq_some_iff :
    net.validate limits = some terminal ↔
      Sound limits net ∧ (net.node terminal).kind.isTerminal = true := by
  rw [validate]
  split
  · rename_i herror
    refine iff_of_false (by simp) fun ⟨hsound, _⟩ => ?_
    rw [← sound_iff, Finding.noError_iff_any, herror] at hsound
    cases hsound
  · rename_i herror
    have hsound : Sound limits net := by
      rw [← sound_iff, Finding.noError_iff_any]
      exact Bool.eq_false_iff.mpr herror
    obtain ⟨only, honly⟩ :=
      (exists_filter_eq_singleton_iff net.nodup_places mem_places _).mpr hsound.terminal
    have hmem : ∀ v, (net.node v).kind.isTerminal = true ↔ v = only := fun v => by
      have hv : v ∈ net.places.filter (fun v => (net.node v).kind.isTerminal) ↔ v ∈ [only] := by
        rw [honly]
      simpa [mem_places] using hv
    rw [honly, hmem, and_iff_right hsound, Option.some.injEq, eq_comm]

/-- What is prepared has been accepted by validation, and its values have been evaluated. -/
theorem prepare_eq_ok_iff_validate {prepared : Prepared} :
    net.prepare limits = .ok prepared ↔
      ∃ terminal output canvas values, net.validate limits = some terminal ∧
        (net.node terminal).kind = .terminal output canvas ∧ net.evaluate = .ok values ∧
        prepared = ⟨net, output, canvas, limits.instances, values, net.findings limits⟩ := by
  rw [prepare_eq_ok_iff]
  constructor
  · rintro ⟨hsound, output, canvas, values, hterminal, hvalues, rfl⟩
    obtain ⟨v, output', canvas', hkind, -, hterminal'⟩ := hsound.exists_terminal
    obtain ⟨rfl, rfl⟩ := Prod.mk.inj (Option.some.inj (hterminal'.symm.trans hterminal))
    exact ⟨v, output', canvas', values, validate_eq_some_iff.mpr ⟨hsound, by rw [hkind]; rfl⟩,
      hkind, hvalues, rfl⟩
  · rintro ⟨v, output, canvas, values, hvalidate, hkind, hvalues, rfl⟩
    obtain ⟨hsound, hv⟩ := validate_eq_some_iff.mp hvalidate
    obtain ⟨u, output', canvas', hkind', huniq, hterminal⟩ := hsound.exists_terminal
    obtain rfl := huniq v hv
    rw [hkind, NodeKind.terminal.injEq] at hkind'
    exact ⟨hsound, output, canvas, values, by rw [hterminal, hkind'.1, hkind'.2], hvalues, rfl⟩

/-! ### Tokens -/

/-- In a sound network all tokens come from drawable nodes. -/
theorem Sound.invariant_grounded (h : Sound limits net) (settings : FlowSettings) :
    net.Invariant settings (fun _ => Token.Grounded net) fun _ => Token.Grounded net where
  seed v data hkind := ⟨v, find?_id h.id_injective v, hkind⟩
  join v _ harrived r hr := Token.of_mem_join (fun _ _ ht _ => ht) harrived hr
  carry v _ t _ ht r hr := by
    cases Node.carries_of_mem_carry hr with
    | pass | insert | restyle | copy => exact ht
    | animate data hkind hanimate =>
      obtain ⟨rendered, -, rfl⟩ := Animation.animate_fst_eq_some_iff.mp hanimate
      exact ht
  move _ _ _ _ ht := ht

/-- Where links lead to neither drawable nor value nodes, nothing is sent there. -/
theorem Sound.kind_of_mem_sent (h : Sound limits net) (settings : FlowSettings)
    {parcel : Fin net.size × List Token} (hparcel : parcel ∈ (net.flow settings).sent) :
    (net.node parcel.1).kind.isDrawable = false ∧ (net.node parcel.1).kind.isValue = false := by
  suffices hturns : ∀ (turns : List (Fin net.size)) (flow : Flow net.size),
      (∀ p ∈ flow.sent, ∃ u, p.1 ∈ net.objectsBehind u) →
        ∀ p ∈ (turns.foldl (net.turn settings) flow).sent, ∃ u, p.1 ∈ net.objectsBehind u by
    obtain ⟨u, hu⟩ := hturns net.objectOrder (.start net.size)
      (fun _ hmem => absurd hmem List.not_mem_nil) parcel hparcel
    obtain ⟨link, hlink, hobjects, -, htarget⟩ := mem_objectsBehind_iff.mp hu
    rw [← htarget]
    exact kind_of_mem_links h hlink hobjects
  intro turns
  induction turns with
  | nil => exact fun _ hflow => hflow
  | cons v turns ih =>
    intro flow hflow
    rw [List.foldl_cons]
    refine ih _ fun p hp => ?_
    rcases mem_sent_turn hp with hp | ⟨hbehind, -⟩
    · exact hflow p hp
    · exact ⟨v, hbehind⟩

/-! ### Objects and scenes -/

/-- Of a token that comes from a drawable node, the guards let the object be made. -/
theorem materialize_of_grounded (resolver : Resolver) (h : token.Grounded net) :
    net.materialize resolver token =
      match token.object resolver with
      | (.ok object, notes) => (some object, notes)
      | (.error finding, notes) => (none, notes ++ [finding]) := by
  obtain ⟨v, hv, hkind⟩ := h
  rw [materialize, hv, Option.map_some, hkind]

/-- If a token from a drawable node does not become an object, an error is told. -/
theorem any_isError_materialize (resolver : Resolver) (h : token.Grounded net)
    (hnone : (net.materialize resolver token).1 = none) :
    (net.materialize resolver token).2.any Finding.isError = true := by
  rw [materialize_of_grounded resolver h] at hnone ⊢
  rcases hobject : token.object resolver with ⟨finding | object, notes⟩
  · obtain ⟨_, _, _, rfl⟩ := Cast.gravity_object (congrArg Prod.fst hobject)
    rw [List.any_append, Bool.or_eq_true]
    exact .inr (by simp [Finding.isError_iff, Finding.gravity])
  · simp [hobject] at hnone

/-- Tokens from drawable nodes become what they become without guards. -/
theorem materializeAll_eq (resolver : Resolver) {delivered : List Token}
    (h : ∀ token ∈ delivered, token.Grounded net) :
    net.materializeAll resolver delivered = .ofTokens resolver delivered := by
  simp only [materializeAll, Cast.ofTokens, List.filterMap_map, List.flatMap_map, Cast.mk.injEq]
  refine ⟨List.filterMap_congr fun token htoken => ?_, List.flatMap_congr fun token htoken => ?_,
    List.flatMap_congr fun token htoken => ?_⟩
  all_goals
    simp only [Function.comp_apply, materialize_of_grounded resolver (h token htoken)]
    rcases token.object resolver with ⟨finding | object, notes⟩ <;> rfl

/-! ### What can be relied on -/

/-- Everything that can be relied on behind validation is the case in sound networks. -/
theorem Sound.accepted (h : Sound limits net)
    (hterminal : (net.node terminal).kind.isTerminal = true) : net.Accepted terminal where
  findCycle? := by
    rw [Network.findCycle?, Option.map_eq_none_iff, Digraph.closedPath?_eq_none_iff]
    exact h.acyclic
  evaluate := ⟨_, evaluate_eq_ok h⟩
  upstreamObjects v := exists_upstreamObjects_eq_ok h.acyclic (find?_id h.id_injective v)
  visibleVariables v := exists_visibleVariables_eq_ok h.acyclic (find?_id h.id_injective v)
  nodup_objectOrder := net.nodup_objectOrder
  mem_objectOrder := Network.mem_objectOrder h
  sent settings _ := h.kind_of_mem_sent settings
  grounded settings _ := (h.invariant_grounded settings).of_hasToken
  materialize settings _ htoken :=
    any_isError_materialize settings.resolver ((h.invariant_grounded settings).of_hasToken htoken)
  materializeAll settings := materializeAll_eq settings.resolver fun _ htoken =>
    (h.invariant_grounded settings).of_hasToken (.inr (.inr htoken))
  assemble? := by
    obtain ⟨v, output, canvas, hkind, huniq, honly⟩ := h.exists_terminal
    obtain rfl := huniq terminal hterminal
    exact ⟨output, canvas, honly, fun cast => by rw [Network.assemble?, hkind]⟩

/-- Whatever network validation gives a terminal of, what comes behind can rely on it. -/
theorem accepted_of_validate (h : net.validate limits = some terminal) : net.Accepted terminal := by
  obtain ⟨hsound, hterminal⟩ := validate_eq_some_iff.mp h
  exact hsound.accepted hterminal

end Network

/-- The terminal of the network in which a circle is split again behind a merge node. -/
def splitAgainTerminal : Fin splitAgain.size :=
  ⟨2, by decide⟩

theorem accepted_splitAgain :
    splitAgain.validate .standard = some splitAgainTerminal ∧
      splitAgain.Accepted splitAgainTerminal := by
  have hvalidate : splitAgain.validate .standard = some splitAgainTerminal := by
    decide +kernel
  exact ⟨hvalidate, Network.accepted_of_validate hvalidate⟩

end SceneFlow
