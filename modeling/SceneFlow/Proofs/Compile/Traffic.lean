import Mathlib
import SceneFlow.Proofs.Compile.Validation
import SceneFlow.Proofs.Digraph.Schedule

/-!
# The traffic of tokens

The flow of objects through a sound network, without its bounds: which tokens arrive at every node
and which leave it. Since every node has its turn behind the nodes before it, all tokens for a node
have arrived when its turn comes, so the traffic satisfies one equation for every node. The flow is
this traffic as long as no error is found, and no error is found exactly if every node can treat
the traffic that arrives at it.

## Main definitions

* `Node.carry`, `Node.work`: what a node makes of one token and of all that arrive.
* `Network.arriving`, `Network.departing`: the traffic at a node.
* `Network.Smooth`: a node treats its traffic without an error.

## Main results

* `Network.arriving_perm`: what arrives at a node is what leaves the nodes before it.
* `Network.noError_flow_iff`: the flow finds no error exactly if every node is smooth.
* `Network.arrived_flow`, `Network.delivered_flow`: a flow without errors is the traffic.
-/

namespace SceneFlow

/-! ### What a node makes of tokens -/

namespace Node

/-- What a node makes of one token, where it treats tokens one by one. -/
def carry (node : Node) (resolver : Resolver) (token : Token) : List Token :=
  match node.kind with
  | .merge _ | .terminal _ _ => [token]
  | .filter data => if data.admits token.origin then [token] else []
  | .insert data =>
    match data.mode with
    | .never => []
    | .always => [token.insert data.delay]
  | .animation data => (data.animate resolver node.id token).1.toList
  | .textStyle data => [token.restyle data.style]
  | .duplicate data => token.duplicate node.id data.offset data.count.toNat
  | _ => []

/-- What a node makes of the tokens that arrive at it, when nothing stops it. -/
def work (node : Node) (resolver : Resolver) (tokens : List Token) : List Token :=
  match node.kind with
  | .geometry data => [.seed node.id data]
  | .merge _ => Token.join tokens
  | _ => tokens.flatMap (node.carry resolver)

/-- The tokens that leave a node. What a terminal makes of tokens is delivered instead. -/
def sends (node : Node) (resolver : Resolver) (tokens : List Token) : List Token :=
  if node.kind.isTerminal then [] else node.work resolver tokens

theorem sends_geometry {node : Node} {data : Geometry} (hkind : node.kind = .geometry data)
    (resolver : Resolver) (tokens : List Token) :
    node.sends resolver tokens = [.seed node.id data] := by
  simp [sends, work, hkind, NodeKind.isTerminal]

/-- The tokens that a node delivers. -/
def delivers (node : Node) (tokens : List Token) : List Token :=
  if node.kind.isTerminal then tokens else []

/-- How many objects come into being at a node at which a number of tokens arrive. -/
def births (node : Node) (count : Nat) : Nat :=
  match node.kind with
  | .geometry _ => 1
  | .duplicate data => data.count.toNat * count
  | _ => 0

/-- Nothing stops a node from treating tokens when `created` objects exist. -/
def Unhindered (node : Node) (settings : FlowSettings) (created : Nat) (tokens : List Token) :
    Prop :=
  match node.kind with
  | .animation data =>
    ∀ token ∈ tokens, (data.animate settings.resolver node.id token).1.isSome
  | .duplicate data => created + data.count.toNat * tokens.length ≤ settings.limit
  | .unknown _ => tokens = []
  | _ => True

end Node

/-- An animation node reports an error exactly if it loses the token. -/
theorem Animation.noError_animate_iff (animation : Animation) (resolver : Resolver)
    (node : NodeId) (token : Token) :
    Finding.NoError (animation.animate resolver node token).2 ↔
      (animation.animate resolver node token).1.isSome := by
  have hnotes : ∀ stale : List StaleBinding, Finding.NoError (stale.map Finding.stale) := by
    intro stale finding hfinding
    obtain ⟨binding, -, rfl⟩ := List.mem_map.mp hfinding
    rfl
  rw [animate]
  match render resolver token.name token.cursor animation.tracks with
  | (.error problem, stale) => simp [Finding.gravity]
  | (.ok rendered, stale) => simpa using hnotes stale

namespace Node

theorem noError_pass_iff (node : Node) (settings : FlowSettings) (created : Nat)
    (tokens : List Token) :
    Finding.NoError (node.pass settings created tokens).findings ↔
      node.Unhindered settings created tokens := by
  rw [pass, Unhindered]
  match node.kind with
  | .animation data =>
    dsimp only
    rw [List.flatMap_map]
    constructor
    · intro h token htoken
      exact (data.noError_animate_iff _ _ _).mp fun finding hfinding =>
        h finding (List.mem_flatMap.mpr ⟨token, htoken, hfinding⟩)
    · intro h finding hfinding
      obtain ⟨token, htoken, hmem⟩ := List.mem_flatMap.mp hfinding
      exact (data.noError_animate_iff _ _ _).mpr (h token htoken) finding hmem
  | .duplicate data =>
    dsimp only [Duplication.pass]
    split
    · rename_i hlimit
      simp [Passage.stopped, Finding.gravity, hlimit]
    · rename_i hlimit
      simpa using hlimit
  | .unknown type =>
    dsimp only
    rw [distinct_eq_eraseDups]
    cases tokens with
    | nil => simp [Passage.stopped]
    | cons token rest => simp [Passage.stopped, List.eraseDups_cons, Finding.gravity]
  | .insert data =>
    dsimp only
    cases data.mode <;> simp [Passage.through]
  | .geometry _ | .merge _ | .filter _ | .textStyle _ | .terminal _ _ => simp [Passage.through]
  | .constant _ | .result _ | .comparison _ | .logic _ | .math _ => simp [Passage.stopped]

private theorem filter_eq_flatMap {α : Type} (p : α → Bool) (list : List α) :
    list.filter p = list.flatMap fun a => if p a then [a] else [] := by
  induction list with
  | nil => rfl
  | cons a list ih => by_cases ha : p a <;> simp [ha, ih]

/-- What a node that nothing stops makes of tokens. -/
theorem pass_eq {node : Node} {settings : FlowSettings} {created : Nat} {tokens : List Token}
    (h : node.Unhindered settings created tokens) :
    (node.pass settings created tokens).out = node.sends settings.resolver tokens ∧
      (node.pass settings created tokens).delivered = node.delivers tokens ∧
      (node.pass settings created tokens).created = node.births tokens.length := by
  rw [pass, sends, delivers, births, work]
  rw [Unhindered] at h
  unfold carry
  match hkind : node.kind with
  | .animation data =>
    simp [NodeKind.isTerminal, List.filterMap_eq_flatMap_toList, List.flatMap_map]
  | .duplicate data =>
    rw [hkind] at h
    dsimp only [Duplication.pass] at h ⊢
    rw [if_neg (by omega)]
    exact ⟨rfl, rfl, rfl⟩
  | .unknown type =>
    rw [hkind] at h
    dsimp only at h
    subst h
    simp [Passage.stopped, NodeKind.isTerminal, distinct_eq_eraseDups]
  | .insert data =>
    dsimp only
    cases data.mode <;> simp [Passage.through, NodeKind.isTerminal, List.map_eq_flatMap]
  | .filter data =>
    simp [Passage.through, NodeKind.isTerminal, filter_eq_flatMap]
  | .textStyle data => simp [Passage.through, NodeKind.isTerminal, List.map_eq_flatMap]
  | .geometry _ | .merge _ | .terminal _ _ => simp [Passage.through, NodeKind.isTerminal]
  | .constant _ | .result _ | .comparison _ | .logic _ | .math _ =>
    simp [Passage.stopped, NodeKind.isTerminal]

/-- A node that is stopped sends nothing. -/
theorem out_pass_eq (node : Node) (settings : FlowSettings) (created : ℕ)
    (tokens : List Token) :
    (node.pass settings created tokens).out = [] ∨
      (node.pass settings created tokens).out = node.sends settings.resolver tokens := by
  cases hkind : node.kind with
  | animation data =>
    refine .inr ?_
    rw [pass, sends, work]
    unfold carry
    simp [hkind, NodeKind.isTerminal, List.filterMap_eq_flatMap_toList, List.flatMap_map]
  | duplicate data =>
    by_cases hroom : settings.limit < created + data.count.toNat * tokens.length
    · exact .inl (by simp [pass, hkind, Duplication.pass, hroom, Passage.stopped])
    · refine .inr (pass_eq ?_).1
      rw [Unhindered, hkind]
      exact Nat.not_lt.mp hroom
  | unknown type =>
    refine .inl ?_
    rw [pass, hkind]
    dsimp only
    split <;> rfl
  | _ => exact .inr (pass_eq (by rw [Unhindered, hkind]; trivial)).1

end Node

namespace Network

variable {limits : Limits} {net : Network}

/-! ### The order of turns -/

theorem acyclic_objectsBehind (h : Sound limits net) : Digraph.Acyclic net.objectsBehind :=
  h.acyclic.mono fun _ => List.Sublist.subset (List.filter_sublist.map Link.target)

theorem nodup_objectOrder (net : Network) : net.objectOrder.Nodup :=
  Digraph.nodup_schedule net.nodup_places fun _ _ w _ => mem_places w

/-- In a sound network every node has its turn. -/
theorem mem_objectOrder (h : Sound limits net) (v : Fin net.size) : v ∈ net.objectOrder := by
  refine (Digraph.mem_schedule_iff net.nodup_places fun _ _ w _ => mem_places w).mpr
    ⟨mem_places v, ?_⟩
  exact Subrelation.accessible (fun harc => harc.2) ((acyclic_objectsBehind h).wellFounded.apply v)

theorem objectOrder_perm (h : Sound limits net) : net.objectOrder.Perm net.places :=
  (List.perm_ext_iff_of_nodup net.nodup_objectOrder net.nodup_places).mpr fun v =>
    ⟨fun _ => mem_places v, fun _ => mem_objectOrder h v⟩

/-- No object runs from a node to one whose turn is not behind its own. -/
theorem notMem_objectsBehind {pre post : List (Fin net.size)} {u v : Fin net.size}
    (horder : net.objectOrder = pre ++ v :: post) (hu : u ∈ v :: post) :
    v ∉ net.objectsBehind u := by
  intro harc
  have hpre := Digraph.ordered_schedule net.nodup_places (fun _ _ w _ => mem_places w) pre v post
    horder u (mem_places u) harc
  have hnodup := net.nodup_objectOrder
  rw [horder] at hnodup
  exact List.disjoint_of_nodup_append hnodup hpre hu

/-! ### Traffic -/

/-- The tokens that some parcels hold for a node. -/
def received {n : Nat} (sent : List (Fin n × List Token)) (v : Fin n) : List Token :=
  (sent.filter fun parcel => parcel.1 = v).flatMap Prod.snd

/-- The turn of a node that nothing stops. -/
def handOn (net : Network) (resolver : Resolver) (sent : List (Fin net.size × List Token))
    (v : Fin net.size) : List (Fin net.size × List Token) :=
  sent ++ (net.objectsBehind v).map fun target =>
    (target, (net.node v).sends resolver (received sent v))

/-- The tokens that are handed to links when nothing stops any node. -/
def parcels (net : Network) (resolver : Resolver) : List (Fin net.size × List Token) :=
  net.objectOrder.foldl (net.handOn resolver) []

/-- The tokens that arrive at a node. -/
def arriving (net : Network) (resolver : Resolver) (v : Fin net.size) : List Token :=
  received (net.parcels resolver) v

/-- What a node makes of the tokens that arrive at it. -/
def made (net : Network) (resolver : Resolver) (v : Fin net.size) : List Token :=
  (net.node v).work resolver (net.arriving resolver v)

/-- The tokens that leave a node. -/
def departing (net : Network) (resolver : Resolver) (v : Fin net.size) : List Token :=
  (net.node v).sends resolver (net.arriving resolver v)

theorem departing_eq (net : Network) (resolver : Resolver) (v : Fin net.size) :
    net.departing resolver v =
      if (net.node v).kind.isTerminal then [] else net.made resolver v :=
  rfl

theorem received_append {n : Nat} (sent more : List (Fin n × List Token)) (v : Fin n) :
    received (sent ++ more) v = received sent v ++ received more v := by
  simp [received]

theorem received_eq_nil {n : Nat} {sent : List (Fin n × List Token)} {v : Fin n}
    (h : ∀ parcel ∈ sent, parcel.1 ≠ v) : received sent v = [] := by
  rw [received, List.filter_eq_nil_iff.mpr fun parcel hparcel => by simpa using h parcel hparcel]
  rfl

theorem received_map {n : Nat} (targets : List (Fin n)) (tokens : List Token) (v : Fin n) :
    received (targets.map fun target => (target, tokens)) v =
      (targets.filter fun target => target = v).flatMap fun _ => tokens := by
  rw [received, List.filter_map, List.flatMap_map]
  rfl

/-- Turns only add parcels, and only for the nodes behind those that have their turns. -/
theorem exists_foldl_handOn_eq (net : Network) (resolver : Resolver)
    (turns : List (Fin net.size)) (sent : List (Fin net.size × List Token)) :
    ∃ more, turns.foldl (net.handOn resolver) sent = sent ++ more ∧
      ∀ parcel ∈ more, ∃ u ∈ turns, parcel.1 ∈ net.objectsBehind u := by
  induction turns generalizing sent with
  | nil => exact ⟨[], by simp⟩
  | cons v turns ih =>
    obtain ⟨more, heq, hmore⟩ := ih (net.handOn resolver sent v)
    refine ⟨_, by rw [List.foldl_cons, heq, handOn, List.append_assoc], fun parcel hparcel => ?_⟩
    rcases List.mem_append.mp hparcel with hparcel | hparcel
    · obtain ⟨target, htarget, rfl⟩ := List.mem_map.mp hparcel
      exact ⟨v, List.mem_cons_self, htarget⟩
    · obtain ⟨u, hu, harc⟩ := hmore parcel hparcel
      exact ⟨u, List.mem_cons_of_mem v hu, harc⟩

/-- When the turn of a node comes, all tokens for it have arrived. -/
theorem received_foldl_handOn (resolver : Resolver) {pre post : List (Fin net.size)}
    {v : Fin net.size} (horder : net.objectOrder = pre ++ v :: post) :
    received (pre.foldl (net.handOn resolver) []) v = net.arriving resolver v := by
  obtain ⟨more, heq, hmore⟩ :=
    net.exists_foldl_handOn_eq resolver (v :: post) (pre.foldl (net.handOn resolver) [])
  have hnone : received more v = [] := received_eq_nil fun parcel hparcel heq => by
    obtain ⟨u, hu, harc⟩ := hmore parcel hparcel
    exact notMem_objectsBehind horder hu (heq ▸ harc)
  rw [arriving, parcels, horder, List.foldl_append, heq, received_append, hnone, List.append_nil]

theorem foldl_handOn_eq (resolver : Resolver) {pre post : List (Fin net.size)}
    (horder : net.objectOrder = pre ++ post) :
    pre.foldl (net.handOn resolver) [] =
      pre.flatMap fun v => (net.objectsBehind v).map fun target =>
        (target, net.departing resolver v) := by
  induction pre using List.reverseRecOn generalizing post with
  | nil => rfl
  | append_singleton pre v ih =>
    rw [List.append_assoc, List.singleton_append] at horder
    rw [List.foldl_append, List.flatMap_append, ← ih horder]
    simp only [List.foldl_cons, List.foldl_nil, handOn, received_foldl_handOn resolver horder,
      List.flatMap_singleton]
    rfl

/-! ### Traffic along links -/

/-- The links along which objects enter a node. -/
def objectLinksInto (net : Network) (v : Fin net.size) : List (Link net.size) :=
  net.links.filter fun link => link.target = v && net.carriesObjects link

theorem mem_objectLinksInto_iff {link : Link net.size} {v : Fin net.size} :
    link ∈ net.objectLinksInto v ↔
      link ∈ net.links ∧ link.target = v ∧ net.carriesObjects link = true := by
  simp [objectLinksInto]

/-- Sorting the items of a list by a key that each has does not change how often they occur. -/
theorem flatMap_filter_perm {α β : Type} [DecidableEq β] {keys : List β} (hnodup : keys.Nodup)
    (hall : ∀ k, k ∈ keys) (key : α → β) (list : List α) :
    (keys.flatMap fun k => list.filter fun a => key a = k).Perm list := by
  induction list with
  | nil => simp
  | cons a list ih =>
    obtain ⟨pre, post, rfl⟩ := List.append_of_mem (hall (key a))
    rw [List.nodup_append, List.nodup_cons] at hnodup
    have hpre : ∀ k ∈ pre, (a :: list).filter (fun b => key b = k) =
        list.filter fun b => key b = k := fun k hk =>
      List.filter_cons_of_neg (by simpa using (hnodup.2.2 k hk _ List.mem_cons_self).symm)
    have hpost : ∀ k ∈ post, (a :: list).filter (fun b => key b = k) =
        list.filter fun b => key b = k := fun k hk =>
      List.filter_cons_of_neg (by simpa using fun heq : key a = k => hnodup.2.1.1 (heq ▸ hk))
    rw [List.flatMap_append, List.flatMap_cons, List.flatMap_congr hpre, List.flatMap_congr hpost,
      List.filter_cons_of_pos (by simp), List.cons_append]
    rw [List.flatMap_append, List.flatMap_cons] at ih
    exact List.perm_middle.trans (ih.cons a)

/-- In an order of all nodes, a node is behind others once for every link along which objects enter
it. -/
theorem count_flatMap_objectsBehind {order : List (Fin net.size)} (hnodup : order.Nodup)
    (hall : ∀ v, v ∈ order) (v : Fin net.size) :
    (order.flatMap net.objectsBehind).count v = (net.objectLinksInto v).length := by
  have hlinks : (order.flatMap net.objectLinks).Perm (net.links.filter net.carriesObjects) := by
    rw [List.flatMap_congr fun u _ => net.objectLinks_eq_filter u]
    exact flatMap_filter_perm hnodup hall Link.source _
  calc
    (order.flatMap net.objectsBehind).count v =
        ((order.flatMap net.objectLinks).map Link.target).count v := by
      rw [List.map_flatMap]
      rfl
    _ = ((net.links.filter net.carriesObjects).map Link.target).count v :=
      (hlinks.map _).count_eq v
    _ = (net.objectLinksInto v).length := by
      rw [List.count_eq_length_filter, List.filter_map, List.length_map, List.filter_filter,
        objectLinksInto]
      rfl

/-- If every node sends one list of tokens along all links that leave it, a node receives what the
nodes before it send, once for every link. -/
theorem flatMap_received_perm (h : Sound limits net) (sends : Fin net.size → List Token)
    (v : Fin net.size) :
    (net.objectOrder.flatMap fun u =>
      received ((net.objectsBehind u).map fun target => (target, sends u)) v).Perm
        ((net.objectLinksInto v).flatMap fun link => sends link.source) := by
  have hsource : ∀ u, (received ((net.objectsBehind u).map fun target => (target, sends u)) v) =
      ((net.objectLinksInto v).filter fun link => link.source = u).flatMap fun link =>
        sends link.source := by
    intro u
    rw [received_map, objectsBehind, objectLinks, outgoing_eq_filter, objectLinksInto,
      List.filter_map, List.flatMap_map, List.filter_filter, List.filter_filter,
      List.filter_filter]
    refine (List.flatMap_congr fun link hlink => ?_).trans (congrArg (List.flatMap _) ?_)
    · simp at hlink
      rw [hlink.2.2]
    · refine List.filter_congr fun link _ => ?_
      simp [Bool.and_comm]
  rw [List.flatMap_congr fun u _ => hsource u, ← List.flatMap_assoc]
  exact List.Perm.flatMap_right _
    (flatMap_filter_perm net.nodup_objectOrder (mem_objectOrder h) Link.source _)

/-- What arrives at a node is what leaves the nodes before it, once for every link. -/
theorem arriving_perm (h : Sound limits net) (resolver : Resolver) (v : Fin net.size) :
    (net.arriving resolver v).Perm
      ((net.objectLinksInto v).flatMap fun link => net.departing resolver link.source) := by
  have hparcels := foldl_handOn_eq resolver (List.append_nil net.objectOrder).symm
  have hreceived : net.arriving resolver v = net.objectOrder.flatMap fun u =>
      received ((net.objectsBehind u).map fun target => (target, net.departing resolver u)) v := by
    rw [arriving, parcels, hparcels, received, List.filter_flatMap, List.flatMap_assoc]
    rfl
  rw [hreceived]
  exact flatMap_received_perm h (net.departing resolver) v

/-! ### The flow -/

/-- How many objects come into being in some turns. -/
def births (net : Network) (resolver : Resolver) (turns : List (Fin net.size)) : Nat :=
  (turns.map fun v => (net.node v).births (net.arriving resolver v).length).sum

theorem births_concat (net : Network) (resolver : Resolver) (turns : List (Fin net.size))
    (v : Fin net.size) :
    net.births resolver (turns ++ [v]) =
      net.births resolver turns + (net.node v).births (net.arriving resolver v).length := by
  simp [births]

/-- A node treats its traffic without an error when `created` objects exist. -/
structure Smooth (net : Network) (settings : FlowSettings) (created : Nat) (v : Fin net.size) :
    Prop where
  /-- No more tokens arrive than may. -/
  length_le : (net.node v).kind.isMerge = false →
    (net.arriving settings.resolver v).length ≤ settings.limit
  /-- Nothing stops the node. -/
  unhindered : (net.node v).Unhindered settings created (net.arriving settings.resolver v)
  /-- An object that is connected to nothing is no error. -/
  connected : net.objectsBehind v = [] → (net.node v).kind.isDrawable →
    settings.coverage = .warning

/-- After some turns a flow is the traffic of the nodes that have had them. -/
structure FlowsAs (net : Network) (resolver : Resolver) (turns : List (Fin net.size))
    (flow : Flow net.size) : Prop where
  /-- What has been sent is what leaves these nodes. -/
  sent : flow.sent = turns.flatMap fun v => (net.objectsBehind v).map fun target =>
    (target, net.departing resolver v)
  /-- What has been delivered is what they deliver. -/
  delivered : flow.delivered =
    turns.flatMap fun v => (net.node v).delivers (net.arriving resolver v)
  /-- The objects that exist have come into being at them. -/
  created : flow.created = net.births resolver turns

theorem FlowsAs.arrived_eq {resolver : Resolver} {pre post : List (Fin net.size)}
    {v : Fin net.size} {flow : Flow net.size} (h : FlowsAs net resolver pre flow)
    (horder : net.objectOrder = pre ++ v :: post) :
    flow.arrived v = net.arriving resolver v := by
  rw [← received_foldl_handOn resolver horder, foldl_handOn_eq resolver horder, ← h.sent]
  rfl

/-- Dead ends are errors only where a drawable node is connected to nothing. -/
theorem noError_deadEnds_iff (node : Node) (coverage : Severity) (out : List Token) :
    Finding.NoError (node.deadEnds coverage out) ↔
      (out ≠ [] → node.kind.isDrawable → coverage = .warning) := by
  rw [Node.deadEnds]
  cases out with
  | nil => simp
  | cons token rest =>
    rw [if_neg (by simp)]
    split
    · rename_i hdrawable
      simp [Finding.gravity, hdrawable]
    · rename_i hdrawable
      simp [hdrawable, Finding.NoError, Finding.gravity]

/-- About the end of a node that nothing stops there is an error exactly if the node is drawable and
unconnected, where this is one. -/
theorem noError_ends_iff {settings : FlowSettings} {created : Nat} {tokens : List Token}
    {v : Fin net.size} (hfree : (net.node v).Unhindered settings created tokens) :
    Finding.NoError (if (net.objectsBehind v).isEmpty then
        (net.node v).deadEnds settings.coverage ((net.node v).pass settings created tokens).out
      else []) ↔
      (net.objectsBehind v = [] → (net.node v).kind.isDrawable →
        settings.coverage = .warning) := by
  rw [(Node.pass_eq hfree).1]
  split
  · rename_i hempty
    rw [noError_deadEnds_iff]
    simp only [List.isEmpty_iff] at hempty
    simp only [hempty, true_imp_iff]
    refine ⟨fun h hdrawable => h ?_ hdrawable, fun h _ => h⟩
    obtain ⟨data, hkind⟩ := NodeKind.exists_of_isDrawable hdrawable
    rw [Node.sends_geometry hkind]
    exact List.cons_ne_nil _ _
  · rename_i hempty
    simp only [List.isEmpty_iff] at hempty
    simp [hempty]

/-- A turn adds no error exactly if the node is smooth, and then its part of the traffic. -/
theorem turn_spec (settings : FlowSettings) {pre post : List (Fin net.size)} {v : Fin net.size}
    {flow : Flow net.size} (h : FlowsAs net settings.resolver pre flow)
    (horder : net.objectOrder = pre ++ v :: post) :
    (Finding.NoError (net.turn settings flow v).findings ↔
        Finding.NoError flow.findings ∧
          Smooth net settings (net.births settings.resolver pre) v) ∧
      (Smooth net settings (net.births settings.resolver pre) v →
        FlowsAs net settings.resolver (pre ++ [v]) (net.turn settings flow v)) := by
  have harrived := h.arrived_eq horder
  rw [turn]
  simp only [harrived, h.created]
  split
  · rename_i hcrowded
    simp only [Bool.and_eq_true, Bool.not_eq_true', decide_eq_true_iff] at hcrowded
    have hnot : ¬ Smooth net settings (net.births settings.resolver pre) v := fun hsmooth =>
      absurd (hsmooth.length_le hcrowded.1) (by omega)
    simp [hnot, Finding.gravity]
  · rename_i hcrowded
    simp only [Bool.and_eq_true, Bool.not_eq_true', decide_eq_true_iff, not_and,
      Nat.not_lt] at hcrowded
    refine ⟨?_, fun hsmooth => ?_⟩
    · simp only [Finding.noError_append, Node.noError_pass_iff, and_assoc]
      refine and_congr_right fun _ => ⟨fun h => ?_, fun hsmooth => ?_⟩
      · exact ⟨hcrowded, h.1, (noError_ends_iff h.1).mp h.2⟩
      · exact ⟨hsmooth.unhindered, (noError_ends_iff hsmooth.unhindered).mpr hsmooth.connected⟩
    · obtain ⟨hout, hdelivered, hcreated⟩ := Node.pass_eq hsmooth.unhindered
      refine ⟨?_, ?_, ?_⟩
      · simp only [h.sent, hout, List.flatMap_append, List.flatMap_singleton]
        rfl
      · simp only [h.delivered, hdelivered, List.flatMap_append, List.flatMap_singleton]
      · rw [births_concat, ← hcreated]

/-- The findings of a flow only grow. -/
theorem noError_of_turn {settings : FlowSettings} {flow : Flow net.size} {v : Fin net.size}
    (h : Finding.NoError (net.turn settings flow v).findings) :
    Finding.NoError flow.findings := by
  rw [turn] at h
  dsimp only at h
  split at h
  · exact ((Finding.noError_append _ _).mp h).1
  · exact ((Finding.noError_append _ _).mp ((Finding.noError_append _ _).mp h).1).1

/-- Some turns find no error exactly if their nodes are smooth, and then they are the traffic. -/
theorem foldl_turn_spec (settings : FlowSettings) {pre post : List (Fin net.size)}
    (horder : net.objectOrder = pre ++ post) :
    (Finding.NoError (pre.foldl (net.turn settings) (.start net.size)).findings ↔
        ∀ turns v, turns ++ [v] <+: pre →
          Smooth net settings (net.births settings.resolver turns) v) ∧
      (Finding.NoError (pre.foldl (net.turn settings) (.start net.size)).findings →
        FlowsAs net settings.resolver pre (pre.foldl (net.turn settings) (.start net.size))) := by
  induction pre using List.reverseRecOn generalizing post with
  | nil =>
    refine ⟨⟨fun _ turns v h => by simp at h, fun _ => Finding.noError_nil⟩, fun _ => ?_⟩
    exact ⟨rfl, rfl, rfl⟩
  | append_singleton pre v ih =>
    rw [List.append_assoc, List.singleton_append] at horder
    obtain ⟨hquiet, hflows⟩ := ih horder
    rw [List.foldl_append, List.foldl_cons, List.foldl_nil]
    refine ⟨⟨fun h => ?_, fun h => ?_⟩, fun h => ?_⟩
    · have hbefore := noError_of_turn h
      have hsmooth := ((turn_spec settings (hflows hbefore) horder).1.mp h).2
      intro turns w hinit
      rcases List.prefix_concat_iff.mp hinit with heq | hinit
      · obtain ⟨rfl, hlast⟩ := List.append_inj' heq rfl
        rwa [(List.cons.inj hlast).1]
      · exact hquiet.mp hbefore turns w hinit
    · have hbefore := hquiet.mpr fun turns w hinit =>
        h turns w (hinit.trans (List.prefix_append _ _))
      exact (turn_spec settings (hflows hbefore) horder).1.mpr
        ⟨hbefore, h pre v (List.prefix_refl _)⟩
    · have hbefore := noError_of_turn h
      have hturn := turn_spec settings (hflows hbefore) horder
      exact hturn.2 (hturn.1.mp h).2

/-- A flow finds no error exactly if every node is smooth when its turn comes. -/
theorem noError_flow_iff (net : Network) (settings : FlowSettings) :
    Finding.NoError (net.flow settings).findings ↔
      ∀ turns v, turns ++ [v] <+: net.objectOrder →
        Smooth net settings (net.births settings.resolver turns) v :=
  (foldl_turn_spec settings (List.append_nil _).symm).1

section Quiet

variable {settings : FlowSettings} (hquiet : Finding.NoError (net.flow settings).findings)
include hquiet

theorem flowsAs_flow : FlowsAs net settings.resolver net.objectOrder (net.flow settings) :=
  (foldl_turn_spec settings (List.append_nil _).symm).2 hquiet

/-- In a flow without errors every node gets the traffic that arrives at it. -/
theorem arrived_flow (v : Fin net.size) :
    (net.flow settings).arrived v = net.arriving settings.resolver v := by
  have hparcels : (net.flow settings).sent = net.parcels settings.resolver :=
    (flowsAs_flow hquiet).sent.trans
      (foldl_handOn_eq settings.resolver (List.append_nil _).symm).symm
  rw [Flow.arrived, hparcels]
  rfl

/-- A flow without errors delivers what arrives at the terminal. -/
theorem delivered_flow (h : Sound limits net) {v : Fin net.size}
    (hv : (net.node v).kind.isTerminal = true) :
    (net.flow settings).delivered = net.arriving settings.resolver v := by
  obtain ⟨pre, post, horder⟩ := List.append_of_mem (mem_objectOrder h v)
  have hnodup := net.nodup_objectOrder
  rw [horder, List.nodup_append, List.nodup_cons] at hnodup
  have hother : ∀ u, u ≠ v →
      (net.node u).delivers (net.arriving settings.resolver u) = [] := fun u hu =>
    if_neg fun hterminal => hu (h.terminal.unique hterminal hv)
  rw [(flowsAs_flow hquiet).delivered, horder, List.flatMap_append, List.flatMap_cons,
    List.flatMap_eq_nil_iff.mpr fun u hu => hother u (hnodup.2.2 u hu v List.mem_cons_self),
    List.flatMap_eq_nil_iff.mpr fun u hu => hother u fun heq => hnodup.2.1.1 (heq ▸ hu),
    Node.delivers, if_pos hv, List.nil_append, List.append_nil]

/-- In a flow without errors nothing stops any node. -/
theorem exists_smooth (h : Sound limits net) (v : Fin net.size) :
    ∃ created, Smooth net settings created v := by
  obtain ⟨pre, post, horder⟩ := List.append_of_mem (mem_objectOrder h v)
  exact ⟨_, (noError_flow_iff net settings).mp hquiet pre v ⟨post, by simp [horder]⟩⟩

end Quiet

end Network

end SceneFlow
