import Mathlib
import SceneFlow.Proofs.Compile.Delivery
import SceneFlow.Proofs.Compile.Invariant

/-!
# Where tokens come from in a run with errors

An error stops a node, and nothing else. So in any run a node sends either nothing or what it makes
of the tokens that have arrived at it, and every token has come along a route that its object can
take. As in a run without errors no two tokens of one name have come along routes that are the same
from the last merge node on. So never are more tokens delivered under a name than there are classes
of deliveries.

## Main definitions

* `Network.sentFrom`: the tokens that a node sends in a run.
* `Route.Brings`: a token has come to a node along the rest of a route.
* `Route.Brought`, `Route.Sent`: what a node makes and what it sends, each with the rest of its
  route.

## Main results

* `Network.arrived_flow_perm`: what arrives at a node is what the nodes before it send.
* `Network.exists_brought`: what a node makes of its tokens, each with the rest of its route.
* `Network.countP_delivered_le`: no more tokens are delivered than there are classes of deliveries.
* `Network.exists_delivers_of_mem_delivered`: every delivered token has come along a route.
-/

namespace SceneFlow

namespace Network

variable {limits : Limits} {net : Network} {settings : FlowSettings} {v : Fin net.size}

/-! ### What nodes send -/

/-- The flow when the turn of a node comes. -/
def whenTurn (net : Network) (settings : FlowSettings) (v : Fin net.size) : Flow net.size :=
  (net.objectOrder.takeWhile (· ≠ v)).foldl (net.turn settings) (.start net.size)

/-- The tokens that a node sends. -/
def sentFrom (net : Network) (settings : FlowSettings) (v : Fin net.size) : List Token :=
  (net.passage settings (net.whenTurn settings v) v).out

theorem takeWhile_objectOrder {pre post : List (Fin net.size)}
    (horder : net.objectOrder = pre ++ v :: post) :
    net.objectOrder.takeWhile (· ≠ v) = pre := by
  have hnodup := net.nodup_objectOrder
  rw [horder, List.nodup_append] at hnodup
  rw [horder, List.takeWhile_append_of_pos, List.takeWhile_cons_of_neg (by simp), List.append_nil]
  intro u hu
  simpa using hnodup.2.2 u hu v List.mem_cons_self

theorem whenTurn_eq {pre post : List (Fin net.size)}
    (horder : net.objectOrder = pre ++ v :: post) :
    net.whenTurn settings v = pre.foldl (net.turn settings) (.start net.size) := by
  rw [whenTurn, takeWhile_objectOrder horder]

/-- In a sound network every node has its turn, and all tokens for it have arrived by then. -/
theorem arrived_whenTurn (h : Sound limits net) (settings : FlowSettings) (v : Fin net.size) :
    (net.whenTurn settings v).arrived v = (net.flow settings).arrived v := by
  obtain ⟨pre, post, horder⟩ := List.append_of_mem (mem_objectOrder h v)
  rw [whenTurn_eq horder, arrived_foldl_turn settings horder]

/-- A node sends nothing, or what it makes of the tokens that arrive at it. -/
theorem sentFrom_eq (h : Sound limits net) (settings : FlowSettings) (v : Fin net.size) :
    net.sentFrom settings v = [] ∨
      net.sentFrom settings v =
        (net.node v).sends settings.resolver ((net.flow settings).arrived v) := by
  rw [sentFrom, passage, ← arrived_whenTurn h settings v]
  split
  · exact .inl rfl
  · exact (net.node v).out_pass_eq settings _ _

/-- What arrives by a turn. -/
theorem arrived_turn_eq (flow : Flow net.size) (u v : Fin net.size) :
    (net.turn settings flow u).arrived v = flow.arrived v ++
      received ((net.objectsBehind u).map fun target =>
        (target, (net.passage settings flow u).out)) v := by
  rw [turn, passage]
  dsimp only
  split
  · have hnone : received ((net.objectsBehind u).map fun target =>
        (target, (Passage.stopped []).out)) v = [] := by
      rw [received_map]
      exact List.flatMap_eq_nil_iff.mpr fun _ _ => rfl
    rw [hnone, List.append_nil]
    rfl
  · exact received_append _ _ v

theorem arrived_foldl_turn_eq {pre post : List (Fin net.size)}
    (horder : net.objectOrder = pre ++ post) (v : Fin net.size) :
    (pre.foldl (net.turn settings) (.start net.size)).arrived v =
      pre.flatMap fun u => received ((net.objectsBehind u).map fun target =>
        (target, net.sentFrom settings u)) v := by
  induction pre using List.reverseRecOn generalizing post with
  | nil => rfl
  | append_singleton pre u ih =>
    rw [List.append_assoc, List.singleton_append] at horder
    rw [List.foldl_append, List.foldl_cons, List.foldl_nil, arrived_turn_eq, ih horder,
      List.flatMap_append, List.flatMap_singleton, sentFrom, whenTurn_eq horder]

/-- What arrives at a node is what the nodes before it send, once for every link. -/
theorem arrived_flow_perm (h : Sound limits net) (settings : FlowSettings) (v : Fin net.size) :
    ((net.flow settings).arrived v).Perm
      ((net.objectLinksInto v).flatMap fun link => net.sentFrom settings link.source) := by
  rw [flow, arrived_foldl_turn_eq (List.append_nil _).symm]
  exact flatMap_received_perm h (net.sentFrom settings) v

theorem mem_arrived_flow_iff (h : Sound limits net) {token : Token} :
    token ∈ (net.flow settings).arrived v ↔
      ∃ i ∈ net.objectLinkPlaces v, token ∈ net.sentFrom settings (net.link i).source := by
  rw [(arrived_flow_perm h settings v).mem_iff, objectLinksInto_eq, List.flatMap_map]
  exact List.mem_flatMap

/-! ### What is delivered -/

theorem delivered_foldl_turn_eq {pre post : List (Fin net.size)}
    (horder : net.objectOrder = pre ++ post) :
    (pre.foldl (net.turn settings) (.start net.size)).delivered =
      pre.flatMap fun u => (net.passage settings (net.whenTurn settings u) u).delivered := by
  induction pre using List.reverseRecOn generalizing post with
  | nil => rfl
  | append_singleton pre u ih =>
    rw [List.append_assoc, List.singleton_append] at horder
    rw [List.foldl_append, List.foldl_cons, List.foldl_nil, delivered_turn, ih horder,
      List.flatMap_append, List.flatMap_singleton, whenTurn_eq horder]

/-- Nothing but what arrives at the terminal is delivered. -/
theorem delivered_sublist (h : Sound limits net) (settings : FlowSettings)
    {terminal : Fin net.size} (hterminal : (net.node terminal).kind.isTerminal = true) :
    (net.flow settings).delivered.Sublist ((net.flow settings).arrived terminal) := by
  have hnone : ∀ u, u ≠ terminal →
      (net.passage settings (net.whenTurn settings u) u).delivered = [] := by
    intro u hu
    have hnot : (net.node u).kind.isTerminal ≠ true := fun hother =>
      hu (h.terminal.unique hother hterminal)
    rw [passage]
    split
    · rfl
    · rw [Node.delivered_pass, if_neg hnot]
  have hsome : (net.passage settings (net.whenTurn settings terminal) terminal).delivered.Sublist
      ((net.flow settings).arrived terminal) := by
    rw [passage, ← arrived_whenTurn h settings terminal]
    split
    · exact List.nil_sublist _
    · rw [Node.delivered_pass, if_pos hterminal]
  obtain ⟨pre, post, horder⟩ := List.append_of_mem (mem_objectOrder h terminal)
  have hnodup := net.nodup_objectOrder
  rw [horder, List.nodup_append, List.nodup_cons] at hnodup
  have hpre : ∀ u ∈ pre, (net.passage settings (net.whenTurn settings u) u).delivered = [] :=
    fun u hu => hnone u (hnodup.2.2 u hu terminal List.mem_cons_self)
  have hpost : ∀ u ∈ post, (net.passage settings (net.whenTurn settings u) u).delivered = [] :=
    fun u hu => hnone u fun heq => hnodup.2.1.1 (heq ▸ hu)
  have hdelivered : (net.flow settings).delivered =
      (net.passage settings (net.whenTurn settings terminal) terminal).delivered := by
    rw [flow, delivered_foldl_turn_eq (List.append_nil _).symm, horder, List.flatMap_append,
      List.flatMap_cons, List.flatMap_eq_nil_iff.mpr hpre, List.flatMap_eq_nil_iff.mpr hpost,
      List.nil_append, List.append_nil]
  rw [hdelivered]
  exact hsome

end Network

/-! ### Routes that bring tokens -/

namespace Route

variable {limits : Limits} {net : Network} {settings : FlowSettings} {v : Fin net.size}

/-- A token has come to a node along the rest of a route that its object can take. -/
def Brings (rest : Route net) (v : Fin net.size) (token : Token) : Prop :=
  ∃ whole : Route net, whole.Runs ∧ whole.tail = rest ∧ whole.last = v ∧
    whole.object = token.name ∧ net.id whole.first = token.origin

theorem brings_seed {data : Geometry} (hkind : (net.node v).kind = .geometry data) :
    (start v).Brings v (.seed (net.id v) data) := by
  refine ⟨start v, by rw [Runs, hkind]; rfl, rfl, rfl, ?_, rfl⟩
  simp [object, Token.seed, Token.name]

/-- A token leaves a node as a copy of one that has come there. -/
theorem Brings.carry {rest : Route net} {token result : Token} {link : Fin net.links.length}
    {number : ℕ} (h : rest.Brings (net.link link).source token)
    (hobjects : net.carriesObjects (net.link link) = true)
    (hmerge : (net.node (net.link link).target).kind.isMerge = false)
    (hcarry : ((net.node (net.link link).target).carry settings.resolver token)[number]? =
      some result) : (step rest link number).Brings (net.link link).target result := by
  obtain ⟨whole, hruns, rfl, hlast, hobject, hfirst⟩ := h
  obtain ⟨hname, horigin, -, hadmits, hnumber⟩ := Node.carry_spec hcarry
  refine ⟨step whole link number, ⟨hruns, hlast.symm, hobjects, hfirst ▸ hadmits, hnumber⟩, ?_,
    rfl, ?_, hfirst.trans horigin.symm⟩
  · rw [tail, if_neg (by simp [hmerge])]
  · rw [object, hobject, hname]
    rfl

/-- A merge node makes tokens of such as have come there. -/
theorem Brings.join {rest : Route net} {token result : Token} {link : Fin net.links.length}
    (h : rest.Brings (net.link link).source token)
    (hobjects : net.carriesObjects (net.link link) = true)
    (hmerge : (net.node (net.link link).target).kind.isMerge = true)
    (horigin : token.origin = result.origin) (hcopies : token.copies = result.copies) :
    (start (net.link link).target).Brings (net.link link).target result := by
  obtain ⟨whole, hruns, -, hlast, hobject, hfirst⟩ := h
  have hadmits := NodeKind.admits_of_isMerge hmerge (net.id whole.first)
  refine ⟨step whole link 0, ⟨hruns, hlast.symm, hobjects, hadmits, Nat.zero_le _⟩, ?_, rfl, ?_,
    hfirst.trans horigin⟩
  · rw [tail, if_pos hmerge]
  · rw [object, NodeId.copied, if_pos rfl, hobject, Token.name_eq_of_copies horigin hcopies]

/-- A list holds what a node makes of the tokens that arrive at it, each with the rest of its
route. -/
structure Brought (net : Network) (settings : FlowSettings) (v : Fin net.size)
    (traces : List (Route net × Token)) : Prop where
  /-- The tokens have come along the routes. -/
  brings : ∀ x ∈ traces, x.1.Brings v x.2
  /-- No token is listed twice. -/
  apart : Apart traces
  /-- All tokens are listed. -/
  perm : (traces.map Prod.snd).Perm
    ((net.node v).work settings.resolver ((net.flow settings).arrived v))

/-- A list holds what a node sends, each with the rest of its route. -/
structure Sent (net : Network) (settings : FlowSettings) (v : Fin net.size)
    (traces : List (Route net × Token)) : Prop where
  /-- The tokens have come along the routes. -/
  brings : ∀ x ∈ traces, x.1.Brings v x.2
  /-- No token is listed twice. -/
  apart : Apart traces
  /-- All tokens are listed. -/
  perm : (traces.map Prod.snd).Perm (net.sentFrom settings v)

/-- A node sends all that it makes or nothing. -/
theorem Brought.exists_sent (h : Network.Sound limits net) {traces : List (Route net × Token)}
    (hbrought : Brought net settings v traces) : ∃ sent, Sent net settings v sent := by
  have hnone : net.sentFrom settings v = [] → Sent net settings v [] := fun hnil =>
    ⟨by simp, .nil, by rw [hnil]; rfl⟩
  rcases Network.sentFrom_eq h settings v with hnil | hall
  · exact ⟨[], hnone hnil⟩
  · rw [Node.sends] at hall
    split at hall
    · exact ⟨[], hnone hall⟩
    · exact ⟨traces, hbrought.brings, hbrought.apart, hall ▸ hbrought.perm⟩

theorem brought_drawable {data : Geometry} (hkind : (net.node v).kind = .geometry data) :
    Brought net settings v [(start v, .seed (net.id v) data)] := by
  refine ⟨fun x hx => ?_, List.pairwise_singleton _ _, ?_⟩
  · rw [List.mem_singleton.mp hx]
    exact brings_seed hkind
  · rw [Node.work, hkind]
    exact List.Perm.refl _

section Before

variable (h : Network.Sound limits net) {sent : Fin net.size → List (Route net × Token)}
  (hsent : ∀ u, v ∈ net.objectsBehind u → Sent net settings u (sent u))
include h hsent

/-- Behind a merge node routes start anew. -/
theorem brought_merge (hmerge : (net.node v).kind.isMerge = true) :
    Brought net settings v
      ((Token.join ((net.flow settings).arrived v)).map fun token => (start v, token)) := by
  refine ⟨fun x hx => ?_, apart_map_join _ v, ?_⟩
  · obtain ⟨result, hresult, rfl⟩ := List.mem_map.mp hx
    obtain ⟨token, htoken, horigin, hcopies⟩ := Token.exists_mem_of_mem_join hresult
    obtain ⟨i, hi, hmem⟩ := (Network.mem_arrived_flow_iff h).mp htoken
    have hbefore := hsent _ (Network.mem_objectsBehind_of_mem hi)
    obtain ⟨⟨rest, token⟩, htrace, rfl⟩ := List.mem_map.mp (hbefore.perm.mem_iff.mpr hmem)
    obtain ⟨rfl, hobjects⟩ := Network.mem_objectLinkPlaces.mp hi
    exact (hbefore.brings _ htrace).join hobjects hmerge horigin hcopies
  · rw [Node.work_eq_join hmerge, List.map_map]
    simp [Function.comp_def]

/-- What a node that treats tokens one by one makes of them comes along the routes of the nodes
before, and one link more. -/
theorem brought_flatMap_extend (hdrawable : (net.node v).kind.isDrawable = false)
    (hmerge : (net.node v).kind.isMerge = false) :
    Brought net settings v ((net.objectLinkPlaces v).flatMap fun i =>
      extend settings.resolver i (sent (net.link i).source)) := by
  have hbefore : ∀ i ∈ net.objectLinkPlaces v,
      Sent net settings (net.link i).source (sent (net.link i).source) := fun i hi =>
    hsent _ (Network.mem_objectsBehind_of_mem hi)
  refine ⟨fun x hx => ?_, ?_, ?_⟩
  · obtain ⟨i, hi, hmem⟩ := List.mem_flatMap.mp hx
    obtain ⟨rest, token, number, htrace, hroute, hcarry⟩ := mem_extend.mp hmem
    have hbrings := (hbefore i hi).brings _ htrace
    obtain ⟨rfl, hobjects⟩ := Network.mem_objectLinkPlaces.mp hi
    rw [hroute]
    exact hbrings.carry hobjects hmerge hcarry
  · exact apart_flatMap_extend ((List.nodup_finRange _).filter _) fun i hi => (hbefore i hi).apart
  · rw [Node.work_eq_flatMap hdrawable hmerge]
    have harrived := Network.arrived_flow_perm h settings v
    rw [Network.objectLinksInto_eq, List.flatMap_map] at harrived
    refine List.Perm.trans ?_ (harrived.flatMap_right _).symm
    rw [List.map_flatMap, List.flatMap_assoc]
    refine List.Perm.flatMap_left _ fun i hi => ?_
    rw [map_snd_extend]
    have hperm := (hbefore i hi).perm
    obtain ⟨rfl, -⟩ := Network.mem_objectLinkPlaces.mp hi
    exact hperm.flatMap_right _

end Before

end Route

namespace Network

variable {limits : Limits} {net : Network} {settings : FlowSettings} {v : Fin net.size}

/-- What a node makes of the tokens that arrive at it, each with the rest of its route. -/
theorem exists_brought (h : Sound limits net) (settings : FlowSettings) (v : Fin net.size) :
    ∃ traces, Route.Brought net settings v traces := by
  induction v using (acyclic_objectsBehind h).wellFounded.induction with
  | _ v ih =>
    have hbefore : ∀ u, v ∈ net.objectsBehind u → ∃ sent, Route.Sent net settings u sent :=
      fun u harc => (ih u harc).elim fun _ hbrought => hbrought.exists_sent h
    choose! sent hsent using hbefore
    by_cases hdrawable : (net.node v).kind.isDrawable = true
    · obtain ⟨data, hkind⟩ := NodeKind.exists_of_isDrawable hdrawable
      exact ⟨_, Route.brought_drawable hkind⟩
    by_cases hmerge : (net.node v).kind.isMerge = true
    · exact ⟨_, Route.brought_merge h hsent hmerge⟩
    rw [Bool.not_eq_true] at hdrawable hmerge
    exact ⟨_, Route.brought_flatMap_extend h hsent hdrawable hmerge⟩

/-! ### Deliveries -/

/-- Every delivered token has come along a route. -/
theorem exists_delivers_of_mem_delivered (h : Sound limits net) {token : Token}
    (htoken : token ∈ (net.flow settings).delivered) :
    ∃ route : Route net, route.Delivers ∧ route.object = token.name ∧
      net.id route.first = token.origin := by
  obtain ⟨terminal, hterminal, -⟩ := h.terminal
  obtain ⟨traces, hbrings, -, hperm⟩ := exists_brought h settings terminal
  have hmade := (delivered_sublist h settings hterminal).subset htoken
  rw [work_of_isTerminal hterminal] at hperm
  rw [← hperm.mem_iff] at hmade
  obtain ⟨⟨rest, token⟩, htrace, rfl⟩ := List.mem_map.mp hmade
  obtain ⟨whole, hruns, -, rfl, hobject, hfirst⟩ := hbrings _ htrace
  exact ⟨whole, ⟨hruns, hterminal⟩, hobject, hfirst⟩

/-- No more tokens are delivered under a name than there are classes of deliveries. -/
theorem countP_delivered_le (h : Sound limits net) (settings : FlowSettings) (object : NodeId) :
    ((net.flow settings).delivered.countP fun token => token.name = object) ≤
      (Route.classes net object).encard := by
  obtain ⟨terminal, hterminal, -⟩ := h.terminal
  obtain ⟨traces, hbrings, hapart, hperm⟩ := exists_brought h settings terminal
  rw [work_of_isTerminal hterminal] at hperm
  let named := traces.filter fun x => x.2.name = object
  have hname : ∀ x ∈ named, x.2.name = object := fun x hx => by
    simpa using (List.mem_filter.mp hx).2
  have hnodup : (named.map Prod.fst).Nodup :=
    List.pairwise_map.mpr ((hapart.filter _).imp_of_mem fun hx hy hne heq =>
      hne heq ((hname _ hx).trans (hname _ hy).symm))
  have hsubset : ((named.map Prod.fst).toFinset : Set (Route net)) ⊆ Route.classes net object := by
    intro rest hrest
    rw [List.coe_toFinset] at hrest
    obtain ⟨x, hx, rfl⟩ := List.mem_map.mp hrest
    obtain ⟨whole, hruns, htail, rfl, hobject, -⟩ := hbrings x (List.mem_filter.mp hx).1
    exact ⟨whole, ⟨⟨hruns, hterminal⟩, hobject.trans (hname x hx)⟩, htail⟩
  have hcount : (net.flow settings).delivered.countP (fun token => token.name = object) ≤
      named.length := by
    refine (delivered_sublist h settings hterminal).countP_le.trans_eq ?_
    rw [← hperm.countP_eq, List.countP_map, List.countP_eq_length_filter]
    rfl
  calc (((net.flow settings).delivered.countP fun token => token.name = object : ℕ) : ℕ∞)
    _ ≤ (named.map Prod.fst).length := by
      rw [List.length_map]
      exact_mod_cast hcount
    _ = ((named.map Prod.fst).toFinset : Set (Route net)).encard := by
      rw [Set.encard_coe_eq_coe_finsetCard, List.toFinset_card_of_nodup hnodup]
    _ ≤ (Route.classes net object).encard := Set.encard_le_encard hsubset

end Network

end SceneFlow
