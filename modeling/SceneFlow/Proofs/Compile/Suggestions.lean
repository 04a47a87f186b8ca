import Mathlib
import SceneFlow.Proofs.Compile.Forks
import SceneFlow.Proofs.Compile.Provenance
import SceneFlow.Proofs.Compile.Variants

/-!
# What is suggested about repeated deliveries

An object that is delivered more than once is reported with suggestions, which are looked up in the
network alone, apart from the tokens. They name edges that deliver the object again at a node that
several links leave, where the links into merge nodes do not count. Two deliveries of an object part
somewhere. If neither of the links along which they go on enters a merge node, there is a suggestion
about one of them. If one does, there may be none, although the other one delivers the object again.

## Main definitions

* `Network.Redelivers`: a link delivers an object again behind one that has claimed it.
* `Network.PointsOut`: a suggestion names such a link at a node on the way of a delivered object.
* `Network.MergesApart`: no merge node is entered from a node that several links leave.
* `Network.TellsRepeated`: what an error about repeated deliveries tells.

## Main results

* `Network.mem_deliversAgain_iff`: which edges are suggested.
* `Network.exists_repeated_of_outcome`: where the errors about repeated deliveries come from.
* `Network.suggestions_of_outcome`: what such an error suggests.
-/

namespace SceneFlow

/-- In a list whose items have names of their own one of two items stands before the other. -/
theorem mem_takeWhile_ne_or {α β : Type} [DecidableEq β] {f : α → β} {list : List α}
    (hnodup : (list.map f).Nodup) {a b : α} (ha : a ∈ list) (hb : b ∈ list) (hne : f a ≠ f b) :
    a ∈ (list.takeWhile fun c => f c ≠ f b) ∨ b ∈ list.takeWhile fun c => f c ≠ f a := by
  induction list with
  | nil => cases ha
  | cons c list ih =>
    obtain ⟨hnew, hnodup⟩ := List.nodup_cons.mp hnodup
    rcases List.mem_cons.mp ha with rfl | ha
    · refine .inl ?_
      rw [List.takeWhile_cons_of_pos (by simpa using hne)]
      exact List.mem_cons_self
    rcases List.mem_cons.mp hb with rfl | hb
    · refine .inr ?_
      rw [List.takeWhile_cons_of_pos (by simpa using hne.symm)]
      exact List.mem_cons_self
    have hca : f c ≠ f a := fun heq => hnew (heq ▸ List.mem_map_of_mem ha)
    have hcb : f c ≠ f b := fun heq => hnew (heq ▸ List.mem_map_of_mem hb)
    refine (ih hnodup ha hb).imp (fun hmem => ?_) fun hmem => ?_
    · rw [List.takeWhile_cons_of_pos (by simpa using hcb)]
      exact List.mem_cons_of_mem c hmem
    · rw [List.takeWhile_cons_of_pos (by simpa using hca)]
      exact List.mem_cons_of_mem c hmem

/-- A list that holds two items is not shorter. -/
theorem two_le_length_of_mem {α : Type} {list : List α} {a b : α} (ha : a ∈ list) (hb : b ∈ list)
    (hne : a ≠ b) : 2 ≤ list.length := by
  match list with
  | [] => cases ha
  | [_] => exact absurd ((List.mem_singleton.mp ha).trans (List.mem_singleton.mp hb).symm) hne
  | _ :: _ :: _ => simp

namespace Network

variable {limits : Limits} {net : Network} {overrides : Overrides} {key : Option String}
  {origin : NodeId} {v : Fin net.size} {link : Link net.size}

/-! ### The edges that are suggested -/

/-- The links along which objects leave a node, but for those into merge nodes. -/
def fanOut (net : Network) (v : Fin net.size) : List (Link net.size) :=
  (net.objectLinks v).filter fun link => !(net.node link.target).kind.isMerge

/-- A link from a node delivers an object again: it is one of several that enter no merge nodes, the
object reaches the node, and a link before has claimed it. -/
structure Redelivers (net : Network) (origin : NodeId) (v : Fin net.size) (link : Link net.size) :
    Prop where
  /-- Objects leave the node along the link, and not to a merge node. -/
  mem : link ∈ net.fanOut v
  /-- There is another such link. -/
  two_le : 2 ≤ (net.fanOut v).length
  /-- The object reaches the node. -/
  reaches : net.Reaches origin v
  /-- A link before has claimed the object. -/
  claimed : net.ClaimedBefore (net.objectLinks v) link.edge.id origin

/-- Of several links that enter no merge nodes all are listed with their shares, if they have
one. -/
theorem mem_claims_iff {claim : EdgeId × NodeId × List NodeId} :
    claim ∈ net.claims ↔ ∃ v, ∃ link ∈ net.fanOut v,
      2 ≤ (net.fanOut v).length ∧ ∃ share, net.branch (net.id v) link.edge.id = .ok share ∧
        claim = (link.edge.id, net.id v, share.taken) := by
  rw [claims, List.mem_flatMap]
  refine exists_congr fun v => ?_
  rw [and_iff_right (mem_places v)]
  change claim ∈ (if (net.fanOut v).length < 2 then [] else _) ↔ _
  split
  · rename_i hfew
    exact iff_of_false List.not_mem_nil fun ⟨_, _, hmany, _⟩ => by omega
  · rename_i hmany
    change claim ∈ (net.fanOut v).filterMap _ ↔ _
    rw [List.mem_filterMap]
    refine exists_congr fun link => and_congr_right fun _ => ?_
    rw [and_iff_right (Nat.not_lt.mp hmany)]
    cases net.branch (net.id v) link.edge.id with
    | ok share => simp [eq_comm]
    | error cause => simp

/-- The suggestions about an object name just the edges that deliver it again. -/
theorem mem_deliversAgain_iff (h : Sound limits net) {edge : EdgeId} {source : NodeId} :
    (edge, source) ∈ deliversAgain net.claims origin ↔
      ∃ v link, net.Redelivers origin v link ∧ link.edge.id = edge ∧ net.id v = source := by
  -- Every such link has a share, since no links run in a circle.
  rw [deliversAgain, List.mem_map]
  constructor
  · rintro ⟨claim, hclaim, heq⟩
    obtain ⟨hclaim, htaken⟩ := List.mem_filter.mp hclaim
    obtain ⟨v, link, hlink, hmany, share, hshare, rfl⟩ := mem_claims_iff.mp hclaim
    obtain ⟨rfl, rfl⟩ := Prod.mk.inj heq
    obtain ⟨share', hshare', hmem⟩ := exists_branch_eq_ok h.id_injective h.acyclic
      ⟨link, (List.mem_filter.mp hlink).1, rfl⟩
    obtain rfl := Except.ok.inj (hshare.symm.trans hshare')
    obtain ⟨hreaches, hclaimed⟩ := (hmem origin).mp (of_decide_eq_true htaken)
    exact ⟨v, link, ⟨hlink, hmany, hreaches, hclaimed⟩, rfl, rfl⟩
  · rintro ⟨v, link, hagain, rfl, rfl⟩
    obtain ⟨share, hshare, hmem⟩ := exists_branch_eq_ok h.id_injective h.acyclic
      ⟨link, (List.mem_filter.mp hagain.mem).1, rfl⟩
    refine ⟨_, List.mem_filter.mpr ⟨mem_claims_iff.mpr
      ⟨v, link, hagain.mem, hagain.two_le, share, hshare, rfl⟩, ?_⟩, rfl⟩
    exact decide_eq_true ((hmem origin).mpr ⟨hagain.reaches, hagain.claimed⟩)

section Names

variable (hnames : (net.links.map fun link => link.edge.id).Nodup)
include hnames

/-- Where edges have names of their own, links at different places have different edges. -/
theorem edge_id_ne {i j : Fin net.links.length} (hne : i ≠ j) :
    (net.link i).edge.id ≠ (net.link j).edge.id := fun heq =>
  hne (List.nodup_iff_injective_get.mp hnames.of_map (List.inj_on_of_nodup_map hnames
    (List.getElem_mem i.isLt) (List.getElem_mem j.isLt) heq))

/-- One of two links that hand an object on from a node delivers it again, if neither of them enters
a merge node. -/
theorem exists_redelivers {i j : Fin net.links.length} (hne : i ≠ j)
    (hreaches : net.Reaches origin v) (hi : net.HandsOn origin v (net.link i))
    (hj : net.HandsOn origin v (net.link j))
    (hmerge : (net.node (net.link i).target).kind.isMerge = false)
    (hmerge' : (net.node (net.link j).target).kind.isMerge = false) :
    ∃ link, net.Redelivers origin v link := by
  have hedges := edge_id_ne hnames hne
  have hmem : net.link i ∈ net.fanOut v := List.mem_filter.mpr ⟨hi.mem, by simp [hmerge]⟩
  have hmem' : net.link j ∈ net.fanOut v := List.mem_filter.mpr ⟨hj.mem, by simp [hmerge']⟩
  have hmany := two_le_length_of_mem hmem hmem' fun heq => hedges (by rw [heq])
  have hnodup : ((net.objectLinks v).map fun link => link.edge.id).Nodup := by
    rw [objectLinks_eq_filter]
    exact hnames.sublist ((List.filter_sublist.trans List.filter_sublist).map _)
  rcases mem_takeWhile_ne_or hnodup hi.mem hj.mem hedges with hbefore | hbefore
  · exact ⟨net.link j, hmem', hmany, hreaches, net.link i, hbefore, hi.admits⟩
  · exact ⟨net.link i, hmem, hmany, hreaches, net.link j, hbefore, hj.admits⟩

end Names

/-! ### Errors about repeated deliveries -/

theorem repeatedDelivery_notMem_findings {object : NodeId} {count : ℕ}
    {again : List (EdgeId × NodeId)} :
    .repeatedDelivery object count origin again ∉ net.findings limits := by
  intro h
  rw [findings] at h
  split at h
  · cases List.mem_singleton.mp h
  simp only [List.mem_append] at h
  rcases h with ((((h | h) | h) | h) | h) | h
  · rw [terminalFindings] at h
    split at h <;> simp at h
  · simp [idFindings] at h
  · obtain ⟨node, -, h⟩ := List.mem_flatMap.mp h
    rw [nodeFindings] at h
    rcases List.mem_append.mp h with h | h
    · simp at h
    · split at h
      · dsimp only at h
        split at h <;> simp at h
      · split at h <;> simp at h
      · cases h
  · obtain ⟨name, -, h⟩ := List.mem_filterMap.mp h
    dsimp only at h
    split at h <;> cases h
  · simp [edgeFindings] at h
  · simp at h

theorem repeatedDelivery_notMem_findings_flow {settings : FlowSettings} {object : NodeId}
    {count : ℕ} {again : List (EdgeId × NodeId)} :
    .repeatedDelivery object count origin again ∉ (net.flow settings).findings := by
  intro h
  cases isOfFlow_of_mem_findings_flow h

theorem repeatedDelivery_notMem_of_prepare {findings : List Finding}
    (h : net.prepare limits = .error findings) {object : NodeId} {count : ℕ}
    {again : List (EdgeId × NodeId)} : .repeatedDelivery object count origin again ∉ findings := by
  intro hmem
  rw [prepare] at h
  split at h
  · rw [← Except.error.inj h] at hmem
    exact repeatedDelivery_notMem_findings hmem
  · split at h
    · rw [← Except.error.inj h] at hmem
      exact repeatedDelivery_notMem_findings hmem
    · rw [← Except.error.inj h] at hmem
      rcases List.mem_append.mp hmem with hmem | hmem
      · exact repeatedDelivery_notMem_findings hmem
      · cases List.mem_singleton.mp hmem
    · cases h

/-- Where a network is prepared, repeated deliveries are told only of what has been delivered. -/
theorem mem_repeatedDeliveries_of_mem_told {prepared : Prepared}
    (h : net.prepare limits = .ok prepared) {object : NodeId} {count : ℕ}
    {again : List (EdgeId × NodeId)}
    (hmem : .repeatedDelivery object count origin again ∈ prepared.told overrides key) :
    .repeatedDelivery object count origin again ∈
      net.repeatedDeliveries (prepared.flow overrides key).delivered := by
  obtain rfl := network_of_prepare h
  have hfindings := (sound_of_prepare h).2
  simp only [Prepared.told, Prepared.found, deliveryFindings, List.mem_append] at hmem
  rcases hmem with (((hmem | hmem) | hmem | hmem) | hmem) | hmem
  · cases hfindings _ hmem
  · exact absurd hmem repeatedDelivery_notMem_findings_flow
  · exact hmem
  · obtain ⟨_, -, heq⟩ := List.mem_map.mp hmem
    cases heq
  · rw [Prepared.stage] at hmem
    split at hmem
    · exact absurd hmem List.not_mem_nil
    · exact absurd rfl (Cast.code_ne_of_mem_findings hmem)
  · cases noError_timeFindings _ _ _ hmem

/-- An error about an object that is delivered more than once comes from a run, which delivers the
object so often. -/
theorem exists_repeated_of_outcome {diagnostics : List Diagnostic}
    (h : net.outcome overrides limits key = .error diagnostics) {d : Diagnostic}
    (hd : d ∈ diagnostics) (hcode : d.code = .duplicateObjectIds) :
    ∃ prepared, net.prepare limits = .ok prepared ∧
      ∃ delivery ∈ Delivery.repeated (prepared.flow overrides key).delivered,
        d = (Finding.repeatedDelivery delivery.object delivery.count delivery.origin
          (deliversAgain net.claims delivery.origin)).diagnostic := by
  rw [outcome] at h
  cases hprepare : net.prepare limits with
  | error findings =>
    rw [hprepare] at h
    obtain rfl := Except.error.inj h
    obtain ⟨finding, hfinding, rfl⟩ := List.mem_map.mp hd
    obtain ⟨_, _, _, _, rfl⟩ := Finding.eq_repeatedDelivery_of_code hcode
    exact absurd hfinding (repeatedDelivery_notMem_of_prepare hprepare)
  | ok prepared =>
    rw [hprepare] at h
    dsimp only at h
    rw [Prepared.run_eq] at h
    split at h
    · obtain rfl := Except.error.inj h
      rw [mem_errorsFirst, mem_distinct, List.mem_map] at hd
      obtain ⟨finding, hfinding, rfl⟩ := hd
      obtain ⟨_, _, _, _, rfl⟩ := Finding.eq_repeatedDelivery_of_code hcode
      obtain ⟨delivery, hdelivery, heq⟩ := (mem_repeatedDeliveries_iff _ _ _).mp
        (mem_repeatedDeliveries_of_mem_told hprepare hfinding)
      exact ⟨prepared, rfl, delivery, hdelivery, congrArg Finding.diagnostic heq⟩
    · cases h

/-! ### What is suggested -/

/-- A suggestion about an object names an edge that delivers it again, at a node on the way of the
object from its drawable node to the terminal. -/
def PointsOut (net : Network) (object origin : NodeId) (again : List (EdgeId × NodeId)) : Prop :=
  ∃ (v : Fin net.size) (link : Link net.size) (part route : Route net),
    (link.edge.id, net.id v) ∈ again ∧ net.Redelivers origin v link ∧ route.Delivers ∧
      route.object = object ∧ net.id route.first = origin ∧ part.Within route ∧ part.last = v

/-- Where links part, none of them enters a merge node. -/
def MergesApart (net : Network) : Prop :=
  ∀ v, 2 ≤ (net.objectLinks v).length → ∀ link ∈ net.objectLinks v,
    (net.node link.target).kind.isMerge = false

instance (net : Network) : Decidable net.MergesApart :=
  inferInstanceAs (Decidable (∀ _, _ → _))

section Deliveries

variable (h : Sound limits net) (hnames : (net.links.map fun link => link.edge.id).Nodup)
  {object : NodeId} {part route other : Route net} (hroute : route.Delivers)
  (hobject : route.object = object)
include h hnames hroute hobject

/-- Where two links hand an object on, neither of them to a merge node, the object is pointed out
to be delivered again. -/
theorem pointsOut_of_handsOn (hpart : part.Within route) {i j : Fin net.links.length} (hne : i ≠ j)
    (hi : net.HandsOn (net.id route.first) part.last (net.link i))
    (hj : net.HandsOn (net.id route.first) part.last (net.link j))
    (hmerge : (net.node (net.link i).target).kind.isMerge = false)
    (hmerge' : (net.node (net.link j).target).kind.isMerge = false) :
    net.PointsOut object (net.id route.first) (deliversAgain net.claims (net.id route.first)) := by
  have hreaches := (hpart.runs hroute.1).reaches h
  rw [hpart.first_eq] at hreaches
  obtain ⟨link, hagain⟩ := exists_redelivers hnames hne hreaches hi hj hmerge hmerge'
  exact ⟨part.last, link, part, route, (mem_deliversAgain_iff h).mpr ⟨_, _, hagain, rfl, rfl⟩,
    hagain, hroute, hobject, rfl, hpart, rfl⟩

variable (hlegible : net.Legible) (hother : other.Delivers) (hobject' : other.object = object)
include hlegible hother hobject'

/-- Two deliveries are pointed out where no merge node is entered from a node that several links
leave. -/
theorem pointsOut_of_mergesApart (hapart : net.MergesApart) (hne : route ≠ other) :
    net.PointsOut object (net.id route.first) (deliversAgain net.claims (net.id route.first)) := by
  obtain ⟨part, i, j, hpart, hij, hi, hj⟩ := Route.exists_parts h hlegible hroute hother
    (hobject.trans hobject'.symm) hne
  have hmany := two_le_length_of_mem hi.mem hj.mem fun heq =>
    edge_id_ne hnames hij (by rw [heq])
  exact pointsOut_of_handsOn h hnames hroute hobject hpart hij hi hj
    (hapart _ hmany _ hi.mem) (hapart _ hmany _ hj.mem)

/-- Two deliveries are pointed out if they differ behind the same last merge node, or behind
none. -/
theorem pointsOut_of_tail (hne : route.tail ≠ other.tail)
    (hfirst : route.tail.first = other.tail.first) :
    net.PointsOut object (net.id route.first) (deliversAgain net.claims (net.id route.first)) := by
  obtain ⟨part, i, j, hpart, hij, ⟨hi, hmerge⟩, hj, hmerge'⟩ := Route.exists_parts_of_tail h
    hlegible hroute hother (hobject.trans hobject'.symm) hne hfirst
  exact pointsOut_of_handsOn h hnames hroute hobject hpart hij hi hj hmerge hmerge'

end Deliveries

/-- What an error about an object that is delivered more than once tells of a run. -/
structure TellsRepeated (net : Network) (delivered : List Token) (object origin : NodeId)
    (count : ℕ) (again : List (EdgeId × NodeId)) : Prop where
  /-- The object is delivered more than once. -/
  two_le : 2 ≤ count
  /-- The error tells how often. -/
  count_eq : count = delivered.countP fun token => token.name = object
  /-- The object gets to the terminal from the node that is named. -/
  delivers : ∃ route : Route net, route.Delivers ∧ route.object = object ∧
    net.id route.first = origin
  /-- The suggestions name just the edges that deliver the object again. -/
  mem_again_iff : ∀ edge source, (edge, source) ∈ again ↔
    ∃ v link, net.Redelivers origin v link ∧ link.edge.id = edge ∧ net.id v = source
  /-- There is one on the way of the object if merge nodes are apart from where links part, or if
  two deliveries come through the same last merge node or through none. -/
  pointsOut : net.Legible → (net.links.map fun link => link.edge.id).Nodup →
    (net.MergesApart ∨ ∃ rest ∈ Route.classes net object, ∃ rest' ∈ Route.classes net object,
      rest ≠ rest' ∧ rest.first = rest'.first) → net.PointsOut object origin again

/-- What is suggested about an object that is delivered more than once. The suggestions name just
the edges that deliver it again behind a sibling. Where names are legible and edges have names of
their own, one of these edges leaves a node on the way of the object, provided that no merge node is
entered from a node that several links leave, or that two of the deliveries come through the same
last merge node or through none. -/
theorem suggestions_of_outcome {diagnostics : List Diagnostic}
    (h : net.outcome overrides limits key = .error diagnostics) {d : Diagnostic}
    (hd : d ∈ diagnostics) (hcode : d.code = .duplicateObjectIds) :
    ∃ prepared object count origin again, net.prepare limits = .ok prepared ∧
      d = (Finding.repeatedDelivery object count origin again).diagnostic ∧
      net.TellsRepeated (prepared.flow overrides key).delivered object origin count again := by
  obtain ⟨prepared, hprepare, delivery, hdelivery, rfl⟩ := exists_repeated_of_outcome h hd hcode
  obtain rfl := network_of_prepare hprepare
  obtain ⟨hsound, -⟩ := sound_of_prepare hprepare
  obtain ⟨hmem, hmany⟩ := Delivery.mem_repeated_iff.mp hdelivery
  have hcount := Delivery.count_of_mem_ofTokens hmem
  obtain ⟨token, htoken, hname, horigin⟩ := Delivery.exists_token_of_mem_ofTokens hmem
  obtain ⟨route, hroute, hobject, hfirst⟩ := exists_delivers_of_mem_delivered hsound htoken
  rw [hname] at hobject
  rw [horigin] at hfirst
  refine ⟨prepared, _, _, _, _, hprepare, rfl, hmany, hcount, ⟨route, hroute, hobject, hfirst⟩,
    fun edge source => mem_deliversAgain_iff hsound, fun hlegible hnames hcases => ?_⟩
  -- Every delivery of the object starts at its drawable node.
  have hstart : ∀ other : Route prepared.network, other.Delivers →
      other.object = delivery.object → prepared.network.id other.first = delivery.origin :=
    fun other hother hobject' => by
      rw [← hfirst, (Route.eq_of_object hlegible hsound.id_injective hother.1 hroute.1
        (hobject'.trans hobject.symm)).1]
  rcases hcases with hapart | ⟨_, ⟨one, ⟨hone, hobjectOne⟩, rfl⟩, _, ⟨two, ⟨htwo, hobjectTwo⟩, rfl⟩,
    hne, hsame⟩
  · have hclasses : 1 < (Route.classes prepared.network delivery.object).encard := by
      refine lt_of_lt_of_le (Nat.one_lt_cast.mpr (hcount ▸ hmany)) ?_
      exact countP_delivered_le hsound
        ⟨prepared.resolver overrides key, prepared.coverage, prepared.instances⟩ delivery.object
    obtain ⟨_, _, ⟨one, ⟨hone, hobjectOne⟩, rfl⟩, ⟨two, ⟨htwo, hobjectTwo⟩, rfl⟩, hne⟩ :=
      Set.one_lt_encard_iff.mp hclasses
    rw [← hstart one hone hobjectOne]
    exact pointsOut_of_mergesApart hsound hnames hone hobjectOne hlegible htwo hobjectTwo hapart
      fun heq => hne (by rw [heq])
  · rw [← hstart one hone hobjectOne]
    exact pointsOut_of_tail hsound hnames hone hobjectOne hlegible htwo hobjectTwo hne hsame

end Network

/-! ### Networks with repeated deliveries -/

/-- An outcome fails with a diagnostic that fits a predicate. -/
def Outcome.failsWith (p : Diagnostic → Bool) : Outcome → Bool
  | .error diagnostics => diagnostics.any p
  | .ok _ => false

theorem Outcome.exists_of_failsWith {outcome : Outcome} {p : Diagnostic → Bool}
    (h : outcome.failsWith p = true) :
    ∃ diagnostics, outcome = .error diagnostics ∧ ∃ d ∈ diagnostics, p d = true := by
  cases outcome with
  | error diagnostics => exact ⟨diagnostics, rfl, List.any_eq_true.mp h⟩
  | ok compilation => cases h

/-- The delivery of `a` through the first link to the merge node of `splitAgain` and the first or
the second one behind it. -/
def splitAgainRoute (second : Bool) : Route splitAgain :=
  .step (.step (.start ⟨0, by decide⟩) ⟨0, by decide⟩ 0)
    (if second then ⟨3, by decide⟩ else ⟨2, by decide⟩) 0

/-- The ways of `a` meet in a merge node and split again behind it, where an edge is pointed out. -/
theorem suggestions_of_outcome_splitAgain :
    ∃ diagnostics, splitAgain.outcome .empty .standard none = .error diagnostics ∧
      ∃ d ∈ diagnostics, d.code = .duplicateObjectIds ∧ ∃ count origin again,
        d = (Finding.repeatedDelivery ⟨"a"⟩ count origin again).diagnostic ∧
          splitAgain.PointsOut ⟨"a"⟩ origin again := by
  have hroutes : ∀ second, (splitAgainRoute second).Delivers ∧
      (splitAgainRoute second).object = ⟨"a"⟩ := by
    decide +kernel
  have hfails : (splitAgain.outcome .empty .standard none).failsWith (fun d =>
      decide (d.code = .duplicateObjectIds ∧ d.message =
        "object '" ++ "a" ++ "' reaches the scene through " ++ toString 2 ++ " separate paths"))
        = true := by
    decide +kernel
  obtain ⟨diagnostics, houtcome, d, hd, hcheck⟩ := Outcome.exists_of_failsWith hfails
  obtain ⟨hcode, hmessage⟩ := of_decide_eq_true hcheck
  obtain ⟨prepared, object, count, origin, again, -, rfl, htells⟩ :=
    Network.suggestions_of_outcome houtcome hd hcode
  obtain rfl : object = ⟨"a"⟩ := NodeId.eq_iff_text.mpr (eq_of_repeatedDelivery_message hmessage)
  refine ⟨diagnostics, houtcome, _, hd, hcode, count, origin, again, rfl,
    htells.pointsOut (by decide) (by decide) (.inr ?_)⟩
  exact ⟨_, ⟨splitAgainRoute false, hroutes false, rfl⟩,
    _, ⟨splitAgainRoute true, hroutes true, rfl⟩, by decide, by decide⟩

/-- The circle `a` goes to the terminal both through a merge node and past it. -/
def pastMerge : Network :=
  .ofLinks
    #[⟨⟨"a"⟩, "", .geometry .plainCircle⟩, ⟨⟨"s"⟩, "", .terminal .video .small⟩,
      ⟨⟨"m"⟩, "", .merge ⟨2⟩⟩]
    [⟨⟨⟨"e1"⟩, ⟨"a"⟩, ⟨""⟩, ⟨"m"⟩, ⟨"input-0"⟩⟩, 0, 2⟩,
      ⟨⟨⟨"e2"⟩, ⟨"a"⟩, ⟨""⟩, ⟨"s"⟩, ⟨""⟩⟩, 0, 1⟩,
      ⟨⟨⟨"e3"⟩, ⟨"m"⟩, ⟨""⟩, ⟨"s"⟩, ⟨""⟩⟩, 2, 1⟩]
    [] ⟨0, 0⟩

example : ¬ pastMerge.MergesApart := by decide

/-- Past a merge node an object is delivered again without any suggestion. -/
theorem exists_suggestions_eq_nil :
    ¬ ∀ (net : Network) (overrides : Overrides) (limits : Limits) (key : Option String)
        (diagnostics : List Diagnostic), net.outcome overrides limits key = .error diagnostics →
      ∀ d ∈ diagnostics, d.code = .duplicateObjectIds → d.suggestions ≠ [] := by
  intro hclaim
  have hfails : (pastMerge.outcome .empty .standard none).failsWith (fun d =>
      decide (d.code = .duplicateObjectIds ∧ d.suggestions = [])) = true := by
    decide +kernel
  obtain ⟨diagnostics, houtcome, d, hd, hcheck⟩ := Outcome.exists_of_failsWith hfails
  obtain ⟨hcode, hnone⟩ := of_decide_eq_true hcheck
  exact hclaim _ _ _ _ _ houtcome d hd hcode hnone

end SceneFlow
