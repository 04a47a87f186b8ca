import Mathlib
import SceneFlow.Proofs.Compile.Route

/-!
# Tracing tokens back

Every token that a node makes has come along a route from its drawable node, or from the last merge
node that it has passed. Tracing tokens back to there tells them apart: no two tokens of one name
have come along the same route from the same node. So the tokens at a node can be counted by
counting routes.

## Main definitions

* `Route.Traced`: a token has come along a route.
* `Route.bearer`: the drawable node of the token that goes a route for an object.

## Main results

* `Network.exists_traces`: the tokens that a node makes, each with the route that it has come along.
* `Network.exists_runs_of_traced`: a traced route is the rest of a route that the object can take.
* `Route.exists_traced`: a route with a bearer is traced.
-/

namespace SceneFlow

/-- A token comes along a route from its drawable node or from a merge node. -/
inductive Route.Traced (net : Network) (resolver : Resolver) : Route net → Token → Prop where
  /-- It starts at a drawable node. -/
  | drawn {v : Fin net.size} {data : Geometry} (hkind : (net.node v).kind = .geometry data) :
      Traced net resolver (.start v) (.seed (net.id v) data)
  /-- It is what a merge node has made of the tokens of its name. -/
  | joined {v : Fin net.size} {token : Token} (hmerge : (net.node v).kind.isMerge = true)
      (htoken : token ∈ net.made resolver v) : Traced net resolver (.start v) token
  /-- It leaves a node as a copy of a token that has come there. -/
  | step {route : Route net} {token result : Token} {link : Fin net.links.length} {number : Nat}
      (hroute : Traced net resolver route token) (hsource : (net.link link).source = route.last)
      (hobjects : net.carriesObjects (net.link link) = true)
      (hterminal : (net.node (net.link link).source).kind.isTerminal = false)
      (hmerge : (net.node (net.link link).target).kind.isMerge = false)
      (hcarry : ((net.node (net.link link).target).carry resolver token)[number]? = some result) :
      Traced net resolver (.step route link number) result

/-! ### What a node makes of its traffic -/

namespace Node

variable {node : Node} {resolver : Resolver} {tokens : List Token}

/-- A merge node joins the tokens. -/
theorem work_eq_join (hmerge : node.kind.isMerge = true) :
    node.work resolver tokens = Token.join tokens := by
  obtain ⟨data, hkind⟩ := NodeKind.exists_of_isMerge hmerge
  rw [work, hkind]

/-- But for drawable nodes, all others treat tokens one by one. -/
theorem work_eq_flatMap (hdrawable : node.kind.isDrawable = false)
    (hmerge : node.kind.isMerge = false) :
    node.work resolver tokens = tokens.flatMap (node.carry resolver) := by
  rw [work]
  cases hkind : node.kind <;>
    simp [hkind, NodeKind.isDrawable, NodeKind.isMerge] at hdrawable hmerge ⊢

end Node

theorem Token.nodup_join (tokens : List Token) :
    ((join tokens).map fun token => token.name.text).Nodup :=
  Roster.nodup_gather (fun a b => by rw [name_absorb]) tokens

namespace Network

variable {limits : Limits} {net : Network}

/-- The places of the links along which objects enter a node. -/
def objectLinkPlaces (net : Network) (v : Fin net.size) : List (Fin net.links.length) :=
  (List.finRange net.links.length).filter fun i =>
    (net.link i).target = v && net.carriesObjects (net.link i)

theorem mem_objectLinkPlaces {v : Fin net.size} {i : Fin net.links.length} :
    i ∈ net.objectLinkPlaces v ↔
      (net.link i).target = v ∧ net.carriesObjects (net.link i) = true := by
  simp [objectLinkPlaces]

theorem objectLinksInto_eq (net : Network) (v : Fin net.size) :
    net.objectLinksInto v = (net.objectLinkPlaces v).map fun i => (net.link i) := by
  have hlinks : net.links = (List.finRange net.links.length).map fun i => (net.link i) :=
    (List.map_get_finRange net.links).symm
  rw [objectLinksInto, objectLinkPlaces]
  conv_lhs => rw [hlinks, List.filter_map]
  rfl

/-- Objects run along a link from its source. -/
theorem mem_objectsBehind_of_mem {v : Fin net.size} {i : Fin net.links.length}
    (h : i ∈ net.objectLinkPlaces v) : v ∈ net.objectsBehind (net.link i).source := by
  obtain ⟨rfl, hobjects⟩ := mem_objectLinkPlaces.mp h
  exact target_mem_objectsBehind (List.getElem_mem i.isLt) hobjects

/-- Objects enter neither drawable nodes nor value nodes. -/
theorem kind_of_mem_links (h : Sound limits net) {link : Link net.size} (hlink : link ∈ net.links)
    (hobjects : net.carriesObjects link = true) :
    (net.node link.target).kind.isDrawable = false ∧
      (net.node link.target).kind.isValue = false := by
  have hrefusal := h.links link hlink
  rw [refusal?] at hrefusal
  simp only [hobjects, Bool.not_true, Bool.false_eq_true, if_false] at hrefusal
  split at hrefusal
  · simp at hrefusal
  · rename_i hvalue
    split at hrefusal
    · simp at hrefusal
    · rename_i hdrawable
      exact ⟨by simpa using hdrawable, by simpa using hvalue⟩

/-- What a node that treats tokens one by one makes of the tokens that leave the nodes before. -/
theorem made_perm (h : Sound limits net) (resolver : Resolver) {v : Fin net.size}
    (hdrawable : (net.node v).kind.isDrawable = false)
    (hmerge : (net.node v).kind.isMerge = false) :
    (net.made resolver v).Perm ((net.objectLinkPlaces v).flatMap fun i =>
      (net.departing resolver (net.link i).source).flatMap ((net.node v).carry resolver)) := by
  have hperm := arriving_perm h resolver v
  rw [objectLinksInto_eq, List.flatMap_map] at hperm
  rw [made, Node.work_eq_flatMap hdrawable hmerge, ← List.flatMap_assoc]
  exact hperm.flatMap_right _

end Network

/-! ### The tokens of a node with their routes -/

namespace Route

variable {limits : Limits} {net : Network} {resolver : Resolver}

/-- What leaves a node along a link, each token with its route. -/
def extend (resolver : Resolver) (link : Fin net.links.length)
    (traces : List (Route net × Token)) : List (Route net × Token) :=
  traces.flatMap fun (route, token) =>
    ((net.node (net.link link).target).carry resolver token).zipIdx.map fun (result, number) =>
      (.step route link number, result)

theorem mem_extend {link : Fin net.links.length} {traces : List (Route net × Token)}
    {route : Route net} {result : Token} :
    (route, result) ∈ extend resolver link traces ↔
      ∃ before token number, (before, token) ∈ traces ∧ route = .step before link number ∧
        ((net.node (net.link link).target).carry resolver token)[number]? = some result := by
  simp only [extend, List.mem_flatMap, List.mem_map, Prod.exists, List.mem_zipIdx_iff_getElem?,
    Prod.mk.injEq]
  constructor
  · rintro ⟨before, token, hmem, result', number, hcarry, rfl, rfl⟩
    exact ⟨before, token, number, hmem, rfl, hcarry⟩
  · rintro ⟨before, token, number, hmem, rfl, hcarry⟩
    exact ⟨before, token, hmem, result, number, hcarry, rfl, rfl⟩

theorem map_snd_extend (link : Fin net.links.length) (traces : List (Route net × Token)) :
    (extend resolver link traces).map Prod.snd =
      (traces.map Prod.snd).flatMap ((net.node (net.link link).target).carry resolver) := by
  rw [extend, List.map_flatMap, List.flatMap_map]
  refine List.flatMap_congr fun x _ => ?_
  rw [List.map_map]
  exact List.zipIdx_map_fst 0 _

/-- Tokens are told apart by their routes and names. -/
def Apart (traces : List (Route net × Token)) : Prop :=
  traces.Pairwise fun x y => x.1 = y.1 → x.2.name ≠ y.2.name

theorem Apart.extend {traces : List (Route net × Token)} (h : Apart traces)
    (link : Fin net.links.length) : Apart (extend resolver link traces) := by
  refine List.pairwise_flatMap.mpr ⟨fun x _ => ?_, h.imp fun hapart a ha b hb hroute hname => ?_⟩
  · -- The copies of one token have different numbers.
    refine List.pairwise_map.mpr ?_
    have hnumbers : (((net.node (net.link link).target).carry resolver x.2).zipIdx.map
        Prod.snd).Nodup := by
      rw [List.zipIdx_map_snd]
      exact List.nodup_range'
    exact (List.pairwise_map.mp hnumbers).imp fun hne hroute =>
      absurd (Route.step.inj hroute).2.2 hne
  · obtain ⟨⟨result, number⟩, hresult, rfl⟩ := List.mem_map.mp ha
    obtain ⟨⟨result', number'⟩, hresult', rfl⟩ := List.mem_map.mp hb
    obtain ⟨hbefore, -, rfl⟩ := Route.step.inj hroute
    rw [List.mem_zipIdx_iff_getElem?] at hresult hresult'
    have hname' : result.name = result'.name := hname
    rw [(Node.carry_spec hresult).1, (Node.carry_spec hresult').1] at hname'
    exact hapart hbefore (NodeId.copied_injective hname')

/-- What leaves along different links has different routes. -/
theorem apart_flatMap_extend {places : List (Fin net.links.length)} (hplaces : places.Nodup)
    {traces : Fin net.links.length → List (Route net × Token)}
    (h : ∀ i ∈ places, Apart (traces i)) :
    Apart (places.flatMap fun i => extend resolver i (traces i)) := by
  refine List.pairwise_flatMap.mpr ⟨fun i hi => (h i hi).extend i, ?_⟩
  refine hplaces.imp fun hne x hx y hy hroute => ?_
  obtain ⟨_, _, _, -, hstep, -⟩ := mem_extend.mp hx
  obtain ⟨_, _, _, -, hstep', -⟩ := mem_extend.mp hy
  exact absurd (step.inj (hstep.symm.trans (hroute.trans hstep'))).2.1 hne

/-- What a merge node makes has different names. -/
theorem apart_map_join (tokens : List Token) (v : Fin net.size) :
    Apart ((Token.join tokens).map fun token => (start v, token)) :=
  List.pairwise_map.mpr <| (List.pairwise_map.mp (Token.nodup_join tokens)).imp fun hne _ heq =>
    hne (congrArg NodeId.text heq)

/-- A list holds the tokens that a node makes, each with its route. -/
structure TracesAt (net : Network) (resolver : Resolver) (v : Fin net.size)
    (traces : List (Route net × Token)) : Prop where
  /-- The list holds the routes that end at the node. -/
  mem_iff : ∀ route token, (route, token) ∈ traces ↔
    Traced net resolver route token ∧ route.last = v
  /-- No token is listed twice. -/
  apart : Apart traces
  /-- All tokens are listed. -/
  perm : (traces.map Prod.snd).Perm (net.made resolver v)

theorem tracesAt_drawable {v : Fin net.size} {data : Geometry}
    (hkind : (net.node v).kind = .geometry data) :
    TracesAt net resolver v [(.start v, .seed (net.id v) data)] := by
  refine ⟨fun route token => ?_, List.pairwise_singleton _ _, ?_⟩
  · rw [List.mem_singleton, Prod.mk.injEq]
    constructor
    · rintro ⟨rfl, rfl⟩
      exact ⟨.drawn hkind, rfl⟩
    · rintro ⟨htraced, hlast⟩
      cases htraced with
      | @drawn u _ hkind' =>
        obtain rfl : u = v := hlast
        rw [hkind] at hkind'
        exact ⟨rfl, by rw [NodeKind.geometry.inj hkind']⟩
      | @joined u _ hmerge _ =>
        obtain rfl : u = v := hlast
        simp [hkind, NodeKind.isMerge] at hmerge
      | @step _ _ _ link _ _ _ _ _ _ hcarry =>
        obtain rfl : (net.link link).target = v := hlast
        simp [Node.carry, hkind] at hcarry
  · rw [Network.made, Node.work, hkind]
    exact List.Perm.refl _

theorem tracesAt_merge {v : Fin net.size} (hmerge : (net.node v).kind.isMerge = true) :
    TracesAt net resolver v ((net.made resolver v).map fun token => (.start v, token)) := by
  refine ⟨fun route token => ?_, ?_, ?_⟩
  · rw [List.mem_map]
    constructor
    · rintro ⟨token', htoken, heq⟩
      obtain ⟨rfl, rfl⟩ := Prod.mk.inj heq
      exact ⟨.joined hmerge htoken, rfl⟩
    · rintro ⟨htraced, hlast⟩
      cases htraced with
      | @drawn u _ hkind =>
        obtain rfl : u = v := hlast
        simp [hkind, NodeKind.isMerge] at hmerge
      | @joined u _ _ htoken =>
        obtain rfl : u = v := hlast
        exact ⟨token, htoken, rfl⟩
      | @step _ _ _ link _ _ _ _ _ hnot _ =>
        obtain rfl : (net.link link).target = v := hlast
        simp [hnot] at hmerge
  · rw [Network.made, Node.work_eq_join hmerge]
    exact apart_map_join _ v
  · rw [List.map_map]
    simp [Function.comp_def]

/-- Of the tokens that a node makes, each with its route, those that leave it. -/
def leaving (v : Fin net.size) (traces : List (Route net × Token)) : List (Route net × Token) :=
  if (net.node v).kind.isTerminal then [] else traces

theorem mem_leaving_iff {v : Fin net.size} {traces : List (Route net × Token)}
    {x : Route net × Token} :
    x ∈ leaving v traces ↔ (net.node v).kind.isTerminal = false ∧ x ∈ traces := by
  by_cases hterminal : (net.node v).kind.isTerminal = true <;> simp [leaving, hterminal]

theorem Apart.leaving {traces : List (Route net × Token)} (h : Apart traces) (v : Fin net.size) :
    Apart (leaving v traces) := by
  rw [Route.leaving]
  split
  · exact List.Pairwise.nil
  · exact h

theorem TracesAt.leaving_perm {v : Fin net.size} {traces : List (Route net × Token)}
    (h : TracesAt net resolver v traces) :
    ((leaving v traces).map Prod.snd).Perm (net.departing resolver v) := by
  rw [leaving, Network.departing_eq]
  split
  · exact List.Perm.refl _
  · exact h.perm

/-- What a node that treats tokens one by one makes of them comes along the routes of the nodes
before, and one link more. -/
theorem tracesAt_flatMap_extend (h : Network.Sound limits net) {v : Fin net.size}
    (hdrawable : (net.node v).kind.isDrawable = false)
    (hmerge : (net.node v).kind.isMerge = false)
    {traces : Fin net.size → List (Route net × Token)}
    (htraces : ∀ u, v ∈ net.objectsBehind u → TracesAt net resolver u (traces u)) :
    TracesAt net resolver v ((net.objectLinkPlaces v).flatMap fun i =>
      extend resolver i (leaving (net.link i).source (traces (net.link i).source))) := by
  have hbefore : ∀ i ∈ net.objectLinkPlaces v,
      TracesAt net resolver (net.link i).source (traces (net.link i).source) := fun i hi =>
    htraces _ (Network.mem_objectsBehind_of_mem hi)
  refine ⟨fun route token => ?_, ?_, ?_⟩
  · rw [List.mem_flatMap]
    constructor
    · rintro ⟨i, hi, hmem⟩
      obtain ⟨before, token', number, hleaving, rfl, hcarry⟩ := mem_extend.mp hmem
      obtain ⟨hterminal, htrace⟩ := mem_leaving_iff.mp hleaving
      obtain ⟨hroute, hlast⟩ := ((hbefore i hi).mem_iff _ _).mp htrace
      obtain ⟨rfl, hobjects⟩ := Network.mem_objectLinkPlaces.mp hi
      exact ⟨.step hroute hlast.symm hobjects hterminal hmerge hcarry, rfl⟩
    · rintro ⟨htraced, hlast⟩
      cases htraced with
      | @drawn u _ hkind =>
        obtain rfl : u = v := hlast
        simp [hkind, NodeKind.isDrawable] at hdrawable
      | @joined u _ hmerge' _ =>
        obtain rfl : u = v := hlast
        simp [hmerge'] at hmerge
      | @step before token' _ link number hroute hsource hobjects hterminal _ hcarry =>
        have hlink : link ∈ net.objectLinkPlaces v :=
          Network.mem_objectLinkPlaces.mpr ⟨hlast, hobjects⟩
        have hmem := ((hbefore link hlink).mem_iff _ _).mpr ⟨hroute, hsource.symm⟩
        exact ⟨link, hlink, mem_extend.mpr
          ⟨before, token', number, mem_leaving_iff.mpr ⟨hterminal, hmem⟩, rfl, hcarry⟩⟩
  · exact apart_flatMap_extend ((List.nodup_finRange _).filter _) fun i hi =>
      (hbefore i hi).apart.leaving _
  · rw [List.map_flatMap]
    refine List.Perm.trans ?_ (Network.made_perm h resolver hdrawable hmerge).symm
    refine List.Perm.flatMap_left _ fun i hi => ?_
    rw [map_snd_extend]
    have hperm := (hbefore i hi).leaving_perm
    obtain ⟨rfl, -⟩ := Network.mem_objectLinkPlaces.mp hi
    exact hperm.flatMap_right _

end Route

namespace Network

variable {limits : Limits} {net : Network}

/-- The tokens that a node makes, each with the route that it has come along. -/
theorem exists_traces (h : Sound limits net) (resolver : Resolver) (v : Fin net.size) :
    ∃ traces, Route.TracesAt net resolver v traces := by
  induction v using (acyclic_objectsBehind h).wellFounded.induction with
  | _ v ih =>
    by_cases hdrawable : (net.node v).kind.isDrawable = true
    · obtain ⟨data, hkind⟩ := NodeKind.exists_of_isDrawable hdrawable
      exact ⟨_, Route.tracesAt_drawable hkind⟩
    by_cases hmerge : (net.node v).kind.isMerge = true
    · exact ⟨_, Route.tracesAt_merge hmerge⟩
    rw [Bool.not_eq_true] at hdrawable hmerge
    choose! traces htraces using ih
    exact ⟨_, Route.tracesAt_flatMap_extend h hdrawable hmerge htraces⟩

theorem mem_arriving_iff (h : Sound limits net) {resolver : Resolver} {v : Fin net.size}
    {token : Token} :
    token ∈ net.arriving resolver v ↔
      ∃ i ∈ net.objectLinkPlaces v, token ∈ net.departing resolver (net.link i).source := by
  rw [(arriving_perm h resolver v).mem_iff, objectLinksInto_eq, List.flatMap_map]
  exact List.mem_flatMap

theorem mem_made_iff (h : Sound limits net) {resolver : Resolver} {v : Fin net.size}
    {token : Token} :
    token ∈ net.made resolver v ↔
      ∃ route, Route.Traced net resolver route token ∧ route.last = v := by
  obtain ⟨traces, htraces⟩ := exists_traces h resolver v
  rw [← htraces.perm.mem_iff, List.mem_map]
  constructor
  · rintro ⟨⟨route, token⟩, hmem, rfl⟩
    exact ⟨route, (htraces.mem_iff _ _).mp hmem⟩
  · rintro ⟨route, htraced⟩
    exact ⟨(route, token), (htraces.mem_iff _ _).mpr htraced, rfl⟩

theorem made_merge {resolver : Resolver} {v : Fin net.size}
    (hmerge : (net.node v).kind.isMerge = true) :
    net.made resolver v = Token.join (net.arriving resolver v) :=
  Node.work_eq_join hmerge

end Network

/-! ### Merge nodes -/

namespace Token

/-- The token that a merge node keeps under a name is made of the tokens of this name. -/
theorem find?_join (tokens : List Token) (n : NodeId) :
    (join tokens).find? (fun token => token.name = n) =
      Roster.fuse absorb (tokens.filter fun token => token.name = n) := by
  simp only [NodeId.eq_iff_text]
  exact Roster.find?_gather (fun a b => by rw [name_absorb]) tokens n.text

theorem mem_join_iff (tokens : List Token) (token : Token) :
    token ∈ join tokens ↔
      Roster.fuse absorb (tokens.filter fun other => other.name = token.name) = some token := by
  simp only [NodeId.eq_iff_text]
  exact Roster.mem_gather_iff (fun a b => by rw [name_absorb]) tokens token

/-- A merge node keeps one token under the name of each that has arrived. -/
theorem exists_mem_join {tokens : List Token} {token : Token} (h : token ∈ tokens) :
    ∃ result ∈ join tokens, result.name = token.name := by
  have hname : token.name.text ∈ (join tokens).map fun t => t.name.text :=
    (Roster.mem_map_gather (fun a b => by rw [name_absorb]) tokens _).mpr
      (List.mem_map_of_mem h)
  obtain ⟨result, hresult, heq⟩ := List.mem_map.mp hname
  exact ⟨result, hresult, NodeId.eq_iff_text.mpr heq⟩

/-- Joining keeps what joining two tokens keeps. -/
theorem of_mem_join {holds : Token → Prop}
    (habsorb : ∀ token other, holds token → holds other → holds (token.absorb other))
    {tokens : List Token} (htokens : ∀ t ∈ tokens, holds t) {token : Token}
    (h : token ∈ join tokens) : holds token :=
  Roster.of_fuse_eq_some habsorb (fun t ht => htokens t (List.mem_filter.mp ht).1)
    ((mem_join_iff tokens token).mp h)

/-- What a merge node keeps under a name has the drawable node and the marks of a token that has
arrived. -/
theorem exists_mem_of_mem_join {tokens : List Token} {token : Token} (h : token ∈ join tokens) :
    ∃ first ∈ tokens, first.origin = token.origin ∧ first.copies = token.copies := by
  have hgroup := (mem_join_iff tokens token).mp h
  match hfilter : tokens.filter fun other => other.name = token.name with
  | [] => simp [hfilter, Roster.fuse] at hgroup
  | first :: rest =>
    rw [hfilter, Roster.fuse, Option.some.injEq] at hgroup
    have hmem : first ∈ tokens := by
      have hfirst : first ∈ tokens.filter fun other => other.name = token.name := by
        rw [hfilter]
        exact List.mem_cons_self
      exact (List.mem_filter.mp hfirst).1
    refine ⟨first, hmem, ?_⟩
    rw [← hgroup]
    clear hgroup hfilter
    induction rest using List.reverseRecOn with
    | nil => exact ⟨rfl, rfl⟩
    | append_singleton rest other ih =>
      rw [List.foldl_append, List.foldl_cons, List.foldl_nil]
      exact ih

theorem name_eq_of_copies {token other : Token} (horigin : token.origin = other.origin)
    (hcopies : token.copies = other.copies) : token.name = other.name := by
  rw [name, name, horigin, hcopies]

end Token

/-! ### Routes of objects and traced routes -/

namespace Network

variable {limits : Limits} {net : Network} {resolver : Resolver}

/-- A traced route is the rest of a route that the object of the token can take, and that passes no
terminal. -/
theorem exists_runs_of_traced (h : Sound limits net) {route : Route net} {token : Token}
    (htraced : Route.Traced net resolver route token) :
    ∃ whole : Route net, whole.Runs ∧ whole.tail = route ∧ whole.object = token.name ∧
      net.id whole.first = token.origin ∧ whole.AvoidsTerminals := by
  generalize hv : route.last = v
  induction v using (acyclic_objectsBehind h).wellFounded.induction generalizing route token with
  | _ v ih =>
    cases htraced with
    | @drawn v data hkind =>
      refine ⟨.start v, by rw [Route.Runs, hkind]; rfl, rfl, ?_, rfl, trivial⟩
      simp [Route.object, Token.seed, Token.name]
    | @joined u token hmerge htoken =>
      obtain rfl : u = v := hv
      rw [made_merge hmerge] at htoken
      obtain ⟨other, hother, horigin, hcopies⟩ := Token.exists_mem_of_mem_join htoken
      obtain ⟨i, hi, hmem⟩ := (mem_arriving_iff h).mp hother
      rw [departing_eq] at hmem
      split at hmem
      · exact absurd hmem List.not_mem_nil
      rename_i hterminal
      obtain ⟨before, hbefore, hlast⟩ := (mem_made_iff h).mp hmem
      obtain ⟨whole, hruns, htail, hobject, hfirst, havoids⟩ :=
        ih _ (mem_objectsBehind_of_mem hi) hbefore hlast
      obtain ⟨rfl, hobjects⟩ := mem_objectLinkPlaces.mp hi
      refine ⟨.step whole i 0,
        ⟨hruns, ?_, hobjects, NodeKind.admits_of_isMerge hmerge _, Nat.zero_le _⟩, ?_, ?_, ?_,
        havoids, Bool.eq_false_iff.mpr hterminal⟩
      · rw [← hlast, ← htail, Route.last_tail]
      · rw [Route.tail, if_pos hmerge]
      · rw [Route.object, NodeId.copied, if_pos rfl, hobject]
        exact Token.name_eq_of_copies horigin hcopies
      · exact hfirst.trans horigin
    | @step before token' _ link number hroute hsource hobjects hterminal hmerge hcarry =>
      obtain rfl : (net.link link).target = v := hv
      have harc := mem_objectsBehind_of_mem (mem_objectLinkPlaces.mpr ⟨rfl, hobjects⟩)
      obtain ⟨whole, hruns, htail, hobject, hfirst, havoids⟩ := ih _ harc hroute hsource.symm
      obtain ⟨hname, horigin, -, hadmits, hnumber⟩ := Node.carry_spec hcarry
      refine ⟨.step whole link number, ⟨hruns, ?_, hobjects, ?_, hnumber⟩, ?_, ?_, ?_,
        havoids, hterminal⟩
      · rw [hsource, ← htail, Route.last_tail]
      · rw [hfirst]
        exact hadmits
      · rw [Route.tail, if_neg (by simp [hmerge]), htail]
      · rw [Route.object, hobject, hname]
        rfl
      · exact hfirst.trans horigin.symm

end Network

namespace Route

variable {limits : Limits} {net : Network} {resolver : Resolver}

/-- The drawable node of the token that goes a route for an object, if there is such a token. A
merge node keeps one token for all that have the name of the object, wherever they come from; from
there on nodes let this token pass or not. -/
def bearer (arrived : Fin net.size → List Token) : Route net → Option NodeId
  | start v => some (net.id v)
  | step before link _ =>
    let target := (net.link link).target
    if (net.node target).kind.isMerge then
      ((Token.join (arrived target)).find? fun token => token.name = before.object).map Token.origin
    else (before.bearer arrived).filter (net.node target).kind.admits

/-- The bearer of a route is the token that is traced back along it. -/
theorem Traced.bearer_eq {route whole : Route net} {token : Token}
    (h : Traced net resolver route token) (hruns : whole.Runs) (htail : whole.tail = route)
    (hobject : whole.object = token.name) :
    whole.bearer (net.arriving resolver) = some token.origin := by
  induction h generalizing whole with
  | @drawn v data hkind =>
    cases whole with
    | start u =>
      obtain rfl : u = v := Route.start.inj htail
      rfl
    | step before link number =>
      rw [tail] at htail
      split at htail
      · rename_i hmerge
        rw [Route.start.inj htail, hkind] at hmerge
        simp [NodeKind.isMerge] at hmerge
      · simp at htail
  | @joined v token hmerge htoken =>
    cases whole with
    | start u =>
      obtain rfl : u = v := Route.start.inj htail
      rw [Runs, NodeKind.isDrawable_of_isMerge hmerge] at hruns
      cases hruns
    | step before link number =>
      rw [tail] at htail
      split at htail
      · obtain rfl : (net.link link).target = v := Route.start.inj htail
        have hnumber : number = 0 :=
          Nat.le_zero.mp (NodeKind.copies_of_isMerge hmerge ▸ hruns.2.2.2.2)
        rw [object, hnumber, NodeId.copied, if_pos rfl] at hobject
        rw [Network.made_merge hmerge] at htoken
        rw [bearer, if_pos hmerge, hobject, Token.find?_join, (Token.mem_join_iff _ _).mp htoken]
        rfl
      · simp at htail
  | @step before token result link number hroute hsource hobjects hterminal hmerge hcarry ih =>
    cases whole with
    | start u => simp [tail] at htail
    | step whole link' number' =>
      rw [tail] at htail
      split at htail
      · simp at htail
      · obtain ⟨rfl, rfl, rfl⟩ := Route.step.inj htail
        obtain ⟨hname, horigin, -, hadmits, -⟩ := Node.carry_spec hcarry
        rw [object, hname] at hobject
        rw [bearer, if_neg (by simp [hmerge]), ih hruns.1 rfl (NodeId.copied_injective hobject)]
        simp [hadmits, horigin]

/-- A link of a route that objects can take is an arc. -/
theorem Runs.arc {route : Route net} {link : Fin net.links.length} {number : ℕ}
    (h : (step route link number).Runs) :
    Digraph.Arc net.objectsBehind route.last (net.link link).target :=
  h.2.1 ▸ Network.mem_objectsBehind_of_mem (Network.mem_objectLinkPlaces.mpr ⟨rfl, h.2.2.1⟩)

/-- A route from whose end the terminal can be reached has not passed the terminal. -/
theorem avoidsTerminals_of_reach (h : Network.Sound limits net) {terminal : Fin net.size}
    (hterminal : (net.node terminal).kind.isTerminal = true) {route : Route net}
    (hruns : route.Runs)
    (hreach : Relation.ReflTransGen (Digraph.Arc net.objectsBehind) route.last terminal) :
    route.AvoidsTerminals := by
  induction route with
  | start v => trivial
  | step before link number ih =>
    have harc := hruns.arc
    obtain ⟨hbefore, hsource, -, -, -⟩ := hruns
    refine ⟨ih hbefore (.head harc hreach), Bool.eq_false_iff.mpr fun hsourceTerminal => ?_⟩
    -- The terminal is not on the way to itself.
    have heq : before.last = terminal :=
      h.terminal.unique (by rw [← hsource]; exact hsourceTerminal) hterminal
    exact Network.acyclic_objectsBehind h _ (Relation.TransGen.head' harc (heq ▸ hreach))

/-- In a network where nothing stops a node, a route that passes no terminal and has a bearer is
traced. -/
theorem exists_traced (h : Network.Sound limits net) {settings : FlowSettings}
    (hfree : ∀ v, ∃ created, Network.Smooth net settings created v) {route : Route net}
    {origin : NodeId} (hruns : route.Runs) (havoids : route.AvoidsTerminals)
    (hbearer : route.bearer (net.arriving settings.resolver) = some origin) :
    ∃ token, Traced net settings.resolver route.tail token ∧ token.name = route.object ∧
      token.origin = origin := by
  induction route generalizing origin with
  | start v =>
    rw [Runs] at hruns
    obtain ⟨data, hkind⟩ := NodeKind.exists_of_isDrawable hruns
    refine ⟨_, .drawn hkind, ?_, Option.some.inj hbearer⟩
    simp [Token.seed, Token.name, object]
  | step before link number ih =>
    obtain ⟨hbefore, hsource, hobjects, hadmits, hnumber⟩ := hruns
    obtain ⟨havoids, hnot⟩ := havoids
    rw [bearer] at hbearer
    rw [tail]
    by_cases hmerge : (net.node (net.link link).target).kind.isMerge = true
    · rw [if_pos hmerge] at hbearer ⊢
      obtain ⟨token, hfind, rfl⟩ := Option.map_eq_some_iff.mp hbearer
      have htoken := List.mem_of_find?_eq_some hfind
      rw [← Network.made_merge hmerge] at htoken
      have hname : token.name = before.object := by simpa using List.find?_some hfind
      have hzero : number = 0 := Nat.le_zero.mp (NodeKind.copies_of_isMerge hmerge ▸ hnumber)
      exact ⟨token, .joined hmerge htoken, by rw [hname, object, hzero]; rfl, rfl⟩
    · rw [if_neg hmerge] at hbearer ⊢
      rw [Bool.not_eq_true] at hmerge
      obtain ⟨hbearer, hpass⟩ := Option.filter_eq_some_iff.mp hbearer
      have hlink : link ∈ net.objectLinkPlaces (net.link link).target :=
        Network.mem_objectLinkPlaces.mpr ⟨rfl, hobjects⟩
      obtain ⟨token, htraced, hname, horigin⟩ := ih hbefore havoids hbearer
      have hmem : token ∈ net.arriving settings.resolver (net.link link).target := by
        refine (Network.mem_arriving_iff h).mpr ⟨link, hlink, ?_⟩
        rw [Network.departing_eq, if_neg (by simp [hnot])]
        exact (Network.mem_made_iff h).mpr ⟨_, htraced, by rw [last_tail, hsource]⟩
      obtain ⟨hdrawable, hvalue⟩ :=
        Network.kind_of_mem_links h (List.getElem_mem link.isLt) hobjects
      obtain ⟨created, hsmooth⟩ := hfree (net.link link).target
      obtain ⟨result, hcarry⟩ := Node.exists_carry hdrawable hvalue hsmooth.unhindered hmem
        (horigin ▸ hpass) hnumber
      obtain ⟨hresult, horigin', -⟩ := Node.carry_spec hcarry
      refine ⟨result, .step htraced (by rw [last_tail, hsource]) hobjects hnot hmerge hcarry, ?_,
        horigin'.trans horigin⟩
      rw [hresult, hname, object]
      rfl

end Route

end SceneFlow
