import Mathlib
import SceneFlow.Proofs.Compile.Traffic

/-!
# What holds of all tokens of a run

A property of tokens holds wherever they arrive if it holds of the tokens that start at drawable
nodes, and if every node and every link keeps it. This needs neither a sound network nor a run
without errors: whatever a node leaves out, the tokens that do go on are made of those that came.

## Main definitions

* `Node.Carries`: what a node makes of one token, case by case.
* `Network.passage`: what a node makes of the tokens that a flow has brought to it.
* `Network.HasToken`: a token occurs in a run.
* `Network.Invariant`: nodes and links keep a property of tokens.

## Main results

* `Network.Invariant.of_mem_arrived`, `Network.Invariant.of_mem_out`,
  `Network.Invariant.of_mem_delivered`: the property holds of all tokens of a run.
* `Network.Invariant.of_hasToken`: so does one that does not depend on the place.
-/

namespace SceneFlow

namespace Node

variable {node : Node} {settings : FlowSettings} {created : Nat} {tokens : List Token}
  {token : Token}

/-- Whatever leaves a node is what the node makes of the tokens if nothing stops it. -/
theorem mem_work_of_mem_out (h : token ∈ (node.pass settings created tokens).out) :
    token ∈ node.work settings.resolver tokens := by
  rcases node.out_pass_eq settings created tokens with hnone | hall
  · rw [hnone] at h
    exact absurd h List.not_mem_nil
  · rw [hall, sends] at h
    split at h
    · exact absurd h List.not_mem_nil
    · exact h

/-- What a node makes of one token. -/
inductive Carries (node : Node) (resolver : Resolver) (token : Token) : Token → Prop where
  /-- It lets the token pass as it is. -/
  | pass : Carries node resolver token token
  /-- An insert node places it. -/
  | insert (data : Insertion) (hkind : node.kind = .insert data) :
    Carries node resolver token (token.insert data.delay)
  /-- An animation node moves it. -/
  | animate (data : Animation) (hkind : node.kind = .animation data) {result : Token}
    (h : (data.animate resolver node.id token).1 = some result) :
    Carries node resolver token result
  /-- A text style is laid over it. -/
  | restyle (data : TextStyle) (hkind : node.kind = .textStyle data) :
    Carries node resolver token (token.restyle data.style)
  /-- A duplicate node copies it. -/
  | copy (data : Duplication) (hkind : node.kind = .duplicate data) (number : Nat) :
    Carries node resolver token (token.copy node.id data.offset number)

theorem carries_of_mem_carry {resolver : Resolver} {result : Token}
    (h : result ∈ node.carry resolver token) : node.Carries resolver token result := by
  rw [carry] at h
  cases hkind : node.kind with
  | merge _ | terminal _ _ =>
    rw [hkind] at h
    rw [List.mem_singleton.mp h]
    exact .pass
  | filter data =>
    rw [hkind] at h
    dsimp only at h
    split at h
    · rw [List.mem_singleton.mp h]
      exact .pass
    · exact absurd h List.not_mem_nil
  | insert data =>
    rw [hkind] at h
    dsimp only at h
    split at h
    · exact absurd h List.not_mem_nil
    · rw [List.mem_singleton.mp h]
      exact .insert data hkind
  | animation data =>
    rw [hkind] at h
    exact .animate data hkind (Option.mem_toList.mp h)
  | textStyle data =>
    rw [hkind] at h
    rw [List.mem_singleton.mp h]
    exact .restyle data hkind
  | duplicate data =>
    rw [hkind] at h
    rcases List.mem_cons.mp h with rfl | h
    · exact .pass
    · obtain ⟨i, -, rfl⟩ := List.mem_map.mp h
      exact .copy data hkind (i + 1)
  | geometry _ | unknown _ | constant _ | result _ | comparison _ | logic _ | math _ =>
    rw [hkind] at h
    exact absurd h List.not_mem_nil

/-- A terminal delivers what arrives at it, and no other node delivers anything. -/
theorem delivered_pass (node : Node) (settings : FlowSettings) (created : Nat)
    (tokens : List Token) :
    (node.pass settings created tokens).delivered =
      if node.kind.isTerminal then tokens else [] := by
  rw [pass]
  cases node.kind with
  | duplicate _ =>
    dsimp only [Duplication.pass]
    split <;> rfl
  | insert _ | unknown _ =>
    dsimp only
    split <;> rfl
  | _ => rfl

/-- Only a terminal delivers tokens, and only such as have arrived. -/
theorem mem_of_mem_delivered (h : token ∈ (node.pass settings created tokens).delivered) :
    token ∈ tokens ∧ node.kind.isTerminal = true := by
  rw [delivered_pass] at h
  split at h
  · rename_i hterminal
    exact ⟨h, hterminal⟩
  · exact absurd h List.not_mem_nil

end Node

namespace Network

variable {net : Network} {settings : FlowSettings} {v : Fin net.size} {token : Token}

/-! ### Turns in a run -/

/-- What a node makes of the tokens that a flow has brought to it, nothing if they are too many. -/
def passage (net : Network) (settings : FlowSettings) (flow : Flow net.size) (v : Fin net.size) :
    Passage :=
  if !(net.node v).kind.isMerge && settings.limit < (flow.arrived v).length then .stopped []
  else (net.node v).pass settings flow.created (flow.arrived v)

/-- A turn sends what the node makes to the nodes behind it. -/
theorem mem_sent_turn {flow : Flow net.size} {parcel : Fin net.size × List Token}
    (h : parcel ∈ (net.turn settings flow v).sent) :
    parcel ∈ flow.sent ∨
      parcel.1 ∈ net.objectsBehind v ∧ parcel.2 = (net.passage settings flow v).out := by
  rw [turn] at h
  rw [passage]
  dsimp only at h
  split at h
  · exact .inl h
  · rename_i hroom
    rw [if_neg hroom]
    rcases List.mem_append.mp h with h | h
    · exact .inl h
    · obtain ⟨target, htarget, rfl⟩ := List.mem_map.mp h
      exact .inr ⟨htarget, rfl⟩

/-- A turn delivers what the node delivers. -/
theorem delivered_turn (flow : Flow net.size) :
    (net.turn settings flow v).delivered =
      flow.delivered ++ (net.passage settings flow v).delivered := by
  rw [turn, passage]
  dsimp only
  split
  · exact (List.append_nil _).symm
  · rfl

/-- The turn of a node sends nothing to nodes that are not behind it. -/
theorem arrived_turn {flow : Flow net.size} {u : Fin net.size} (h : u ∉ net.objectsBehind v) :
    (net.turn settings flow v).arrived u = flow.arrived u := by
  have hnone : ∀ tokens : List Token,
      ((net.objectsBehind v).map fun target => (target, tokens)).filter
        (fun parcel => parcel.1 = u) = [] := by
    intro tokens
    refine List.filter_eq_nil_iff.mpr fun parcel hparcel => ?_
    obtain ⟨target, htarget, rfl⟩ := List.mem_map.mp hparcel
    simpa using fun heq : target = u => h (heq ▸ htarget)
  rw [turn]
  dsimp only
  split
  · rfl
  · rw [Flow.arrived, List.filter_append, hnone, List.append_nil]
    rfl

/-- When the turn of a node comes in a run, all tokens for it have arrived. -/
theorem arrived_foldl_turn (settings : FlowSettings) {pre post : List (Fin net.size)}
    (horder : net.objectOrder = pre ++ v :: post) :
    (pre.foldl (net.turn settings) (.start net.size)).arrived v =
      (net.flow settings).arrived v := by
  have hkeep : ∀ (turns : List (Fin net.size)) (flow : Flow net.size),
      (∀ u ∈ turns, v ∉ net.objectsBehind u) →
        (turns.foldl (net.turn settings) flow).arrived v = flow.arrived v := by
    intro turns
    induction turns with
    | nil => exact fun _ _ => rfl
    | cons u turns ih =>
      intro flow hturns
      obtain ⟨hu, hturns⟩ := List.forall_mem_cons.mp hturns
      rw [List.foldl_cons, ih _ hturns, arrived_turn hu]
  rw [flow, horder, List.foldl_append,
    hkeep (v :: post) _ fun u hu => notMem_objectsBehind horder hu]

/-- A token occurs in a run: it arrives at a node, leaves a node or is delivered. -/
def HasToken (net : Network) (settings : FlowSettings) (token : Token) : Prop :=
  (∃ v, token ∈ (net.flow settings).arrived v) ∨
    (∃ pre v post, net.objectOrder = pre ++ v :: post ∧
      token ∈ (net.passage settings (pre.foldl (net.turn settings) (.start net.size)) v).out) ∨
    token ∈ (net.flow settings).delivered

/-! ### Invariants -/

/-- Nodes and links keep a property of tokens: `arrives` of a token at a node that it enters and
`leaves` of one at a node that it leaves. -/
structure Invariant (net : Network) (settings : FlowSettings)
    (arrives leaves : Fin net.size → Token → Prop) : Prop where
  /-- It holds of the tokens that start. -/
  seed : ∀ v data, (net.node v).kind = .geometry data → leaves v (.seed (net.id v) data)
  /-- Merge nodes keep it. -/
  join : ∀ v, (net.node v).kind.isMerge = true →
    (∀ t ∈ (net.flow settings).arrived v, arrives v t) →
      ∀ r ∈ Token.join ((net.flow settings).arrived v), leaves v r
  /-- The other nodes keep it. -/
  carry : ∀ v, (net.node v).kind.isMerge = false →
    ∀ t ∈ (net.flow settings).arrived v, arrives v t →
      ∀ r ∈ (net.node v).carry settings.resolver t, leaves v r
  /-- Links keep it. -/
  move : ∀ u, ∀ v ∈ net.objectsBehind u, ∀ t, leaves u t → arrives v t

namespace Invariant

variable {arrives leaves : Fin net.size → Token → Prop}

/-- What a node makes of tokens with the property has it. -/
theorem of_mem_work (h : net.Invariant settings arrives leaves)
    (harrived : ∀ t ∈ (net.flow settings).arrived v, arrives v t)
    (htoken : token ∈ (net.node v).work settings.resolver ((net.flow settings).arrived v)) :
    leaves v token := by
  rw [Node.work] at htoken
  split at htoken
  · rename_i data hkind
    rw [List.mem_singleton.mp htoken]
    exact h.seed v data hkind
  · rename_i data hkind
    exact h.join v (by rw [hkind]; rfl) harrived token htoken
  · rename_i hmerge
    obtain ⟨t, ht, hmem⟩ := List.mem_flatMap.mp htoken
    refine h.carry v ?_ t ht (harrived t ht) token hmem
    cases hkind : (net.node v).kind with
    | merge data => exact absurd hkind (hmerge data)
    | _ => rfl

theorem of_mem_passage (h : net.Invariant settings arrives leaves)
    {pre post : List (Fin net.size)} (horder : net.objectOrder = pre ++ v :: post)
    (harrived : ∀ t ∈ (net.flow settings).arrived v, arrives v t)
    (htoken : token ∈
      (net.passage settings (pre.foldl (net.turn settings) (.start net.size)) v).out) :
    leaves v token := by
  rw [passage] at htoken
  split at htoken
  · exact absurd htoken List.not_mem_nil
  · have hwork := Node.mem_work_of_mem_out htoken
    rw [arrived_foldl_turn settings horder] at hwork
    exact h.of_mem_work harrived hwork

/-- The property holds of all tokens that have been sent in some turns. -/
theorem of_mem_sent (h : net.Invariant settings arrives leaves) {pre post : List (Fin net.size)}
    (horder : net.objectOrder = pre ++ post) {parcel : Fin net.size × List Token}
    (hparcel : parcel ∈ (pre.foldl (net.turn settings) (.start net.size)).sent) :
    ∀ t ∈ parcel.2, arrives parcel.1 t := by
  induction pre using List.reverseRecOn generalizing post parcel with
  | nil => exact absurd hparcel List.not_mem_nil
  | append_singleton pre v ih =>
    rw [List.append_assoc, List.singleton_append] at horder
    rw [List.foldl_append, List.foldl_cons, List.foldl_nil] at hparcel
    rcases mem_sent_turn hparcel with hparcel | ⟨hbehind, hout⟩
    · exact ih horder hparcel
    · have harrived : ∀ t ∈ (net.flow settings).arrived v, arrives v t := by
        intro t ht
        rw [← arrived_foldl_turn settings horder] at ht
        obtain ⟨sent, hsent, ht⟩ := List.mem_flatMap.mp ht
        obtain ⟨hsent, hplace⟩ := List.mem_filter.mp hsent
        have heq : sent.1 = v := of_decide_eq_true hplace
        exact heq ▸ ih horder hsent t ht
      intro t ht
      rw [hout] at ht
      exact h.move v _ hbehind t (h.of_mem_passage horder harrived ht)

/-- The property holds of the tokens that arrive at a node. -/
theorem of_mem_arrived (h : net.Invariant settings arrives leaves)
    (htoken : token ∈ (net.flow settings).arrived v) : arrives v token := by
  obtain ⟨parcel, hparcel, htoken⟩ := List.mem_flatMap.mp htoken
  obtain ⟨hparcel, hplace⟩ := List.mem_filter.mp hparcel
  have heq : parcel.1 = v := of_decide_eq_true hplace
  exact heq ▸ h.of_mem_sent (List.append_nil _).symm hparcel token htoken

/-- The property holds of the tokens that leave a node. -/
theorem of_mem_out (h : net.Invariant settings arrives leaves) {pre post : List (Fin net.size)}
    (horder : net.objectOrder = pre ++ v :: post)
    (htoken : token ∈
      (net.passage settings (pre.foldl (net.turn settings) (.start net.size)) v).out) :
    leaves v token :=
  h.of_mem_passage horder (fun _ => h.of_mem_arrived) htoken

/-- The property holds of the tokens that are delivered. -/
theorem of_mem_delivered (h : net.Invariant settings arrives leaves)
    (htoken : token ∈ (net.flow settings).delivered) :
    ∃ v, (net.node v).kind.isTerminal = true ∧ arrives v token := by
  suffices hturns : ∀ pre post, net.objectOrder = pre ++ post →
      token ∈ (pre.foldl (net.turn settings) (.start net.size)).delivered →
        ∃ v, (net.node v).kind.isTerminal = true ∧ arrives v token from
    hturns _ _ (List.append_nil _).symm htoken
  intro pre
  induction pre using List.reverseRecOn with
  | nil => exact fun _ _ hmem => absurd hmem List.not_mem_nil
  | append_singleton pre v ih =>
    intro post horder hmem
    rw [List.append_assoc, List.singleton_append] at horder
    rw [List.foldl_append, List.foldl_cons, List.foldl_nil, delivered_turn] at hmem
    rcases List.mem_append.mp hmem with hmem | hmem
    · exact ih _ horder hmem
    · rw [passage] at hmem
      split at hmem
      · exact absurd hmem List.not_mem_nil
      · obtain ⟨harrived, hterminal⟩ := Node.mem_of_mem_delivered hmem
        rw [arrived_foldl_turn settings horder] at harrived
        exact ⟨v, hterminal, h.of_mem_arrived harrived⟩

/-- A property that does not depend on the place holds of all tokens of a run. -/
theorem of_hasToken {holds : Token → Prop}
    (h : net.Invariant settings (fun _ => holds) fun _ => holds)
    (htoken : net.HasToken settings token) : holds token := by
  rcases htoken with ⟨v, htoken⟩ | ⟨pre, v, post, horder, htoken⟩ | htoken
  · exact h.of_mem_arrived htoken
  · exact h.of_mem_out horder htoken
  · obtain ⟨-, -, hholds⟩ := h.of_mem_delivered htoken
    exact hholds

end Invariant

end Network

end SceneFlow
