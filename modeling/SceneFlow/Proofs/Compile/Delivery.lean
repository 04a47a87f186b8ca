import Mathlib
import SceneFlow.Proofs.Compile.Outcome
import SceneFlow.Proofs.Compile.Tracing

/-!
# The law of deliveries

How often an object is delivered can be read off the graph: its deliveries are the routes from
drawable nodes to the terminal under its name, and a merge node makes one of all that differ only
before it. So the tokens that are delivered under a name are as many as the classes of deliveries.

A merge node goes by names, however, and keeps one token of each name, wherever it comes from. If
another drawable node bears the name of a copy, the token that is kept may be one that a node
behind the merge node does not let pass, although it would admit the other. The law holds for an
object exactly if each of its deliveries has a bearer, a token that goes this way.

## Main definitions

* `Route.classes`: the classes of deliveries of an object.
* `Route.tracedTo`: the routes of the tokens of a name.

## Main results

* `Network.encard_tracedTo`: the delivered tokens of a name are as many as the traced routes.
* `Prepared.delivery_law`: when the tokens that are delivered are as many as the classes, and what
  is reported and what is in the scene then.
-/

namespace SceneFlow

/-- The classes of deliveries of an object. Deliveries that pass a merge node are told apart by
what comes from the last one on, the others as a whole. -/
def Route.classes (net : Network) (object : NodeId) : Set (Route net) :=
  Route.tail '' {route | route.Delivers ∧ route.object = object}

/-- The routes that the tokens of a name which a node makes are traced back along. -/
def Route.tracedTo (net : Network) (resolver : Resolver) (v : Fin net.size) (object : NodeId) :
    Set (Route net) :=
  {route | ∃ token, Traced net resolver route token ∧ route.last = v ∧ token.name = object}

namespace Network

variable {limits : Limits} {net : Network}

/-- A terminal makes of tokens what it delivers. -/
theorem work_of_isTerminal {resolver : Resolver} {tokens : List Token} {v : Fin net.size}
    (hterminal : (net.node v).kind.isTerminal = true) :
    (net.node v).work resolver tokens = tokens := by
  obtain ⟨output, canvas, hkind⟩ := NodeKind.exists_of_isTerminal hterminal
  rw [Node.work, hkind]
  have hcarry : (net.node v).carry resolver = fun token => [token] := by
    funext token
    rw [Node.carry, hkind]
  rw [hcarry]
  exact List.flatMap_singleton' _

theorem made_terminal {resolver : Resolver} {v : Fin net.size}
    (hterminal : (net.node v).kind.isTerminal = true) :
    net.made resolver v = net.arriving resolver v :=
  work_of_isTerminal hterminal

/-- The delivered tokens of a name are as many as the routes that they are traced back along. -/
theorem encard_tracedTo (h : Sound limits net) (resolver : Resolver) {terminal : Fin net.size}
    (hterminal : (net.node terminal).kind.isTerminal = true) (object : NodeId) :
    (Route.tracedTo net resolver terminal object).encard =
      (net.arriving resolver terminal).countP fun token => token.name = object := by
  obtain ⟨traces, htraces⟩ := exists_traces h resolver terminal
  let routes := (traces.filter fun x => x.2.name = object).map Prod.fst
  have hmem : ∀ x ∈ traces.filter (fun x => x.2.name = object), x.2.name = object := fun x hx => by
    simpa using (List.mem_filter.mp hx).2
  have hnodup : routes.Nodup :=
    List.pairwise_map.mpr ((htraces.apart.filter _).imp_of_mem fun hx hy hapart heq =>
      hapart heq ((hmem _ hx).trans (hmem _ hy).symm))
  have hset : Route.tracedTo net resolver terminal object =
      (routes.toFinset : Set (Route net)) := by
    ext route
    rw [List.coe_toFinset, Route.tracedTo, Set.mem_ofPred_eq, Set.mem_ofPred_eq, List.mem_map]
    constructor
    · rintro ⟨token, htraced, hlast, hname⟩
      exact ⟨(route, token), List.mem_filter.mpr
        ⟨(htraces.mem_iff _ _).mpr ⟨htraced, hlast⟩, decide_eq_true hname⟩, rfl⟩
    · rintro ⟨⟨route, token⟩, hx, rfl⟩
      obtain ⟨htraced, hlast⟩ := (htraces.mem_iff _ _).mp (List.mem_filter.mp hx).1
      exact ⟨token, htraced, hlast, hmem _ hx⟩
  rw [hset, Set.encard_coe_eq_coe_finsetCard, List.toFinset_card_of_nodup hnodup, List.length_map,
    ← List.countP_eq_length_filter, ← made_terminal hterminal, ← htraces.perm.countP_eq,
    List.countP_map]
  rfl

/-- Where nothing stops a node, the deliveries with a bearer are those that are traced. -/
theorem isSome_bearer_iff (h : Sound limits net) {settings : FlowSettings}
    (hfree : ∀ v, ∃ created, Smooth net settings created v) {terminal : Fin net.size}
    (hterminal : (net.node terminal).kind.isTerminal = true) {route : Route net}
    (hdelivers : route.Delivers) :
    (route.bearer (net.arriving settings.resolver)).isSome ↔
      route.tail ∈ Route.tracedTo net settings.resolver terminal route.object := by
  have hlast : route.last = terminal := h.terminal.unique hdelivers.2 hterminal
  constructor
  · intro hbearer
    obtain ⟨origin, hbearer⟩ := Option.isSome_iff_exists.mp hbearer
    have havoids := Route.avoidsTerminals_of_reach h hterminal hdelivers.1 (hlast ▸ .refl)
    obtain ⟨token, htraced, hname, -⟩ := Route.exists_traced h hfree hdelivers.1 havoids hbearer
    exact ⟨token, htraced, by rw [Route.last_tail, hlast], hname⟩
  · rintro ⟨token, htraced, -, hname⟩
    rw [htraced.bearer_eq hdelivers.1 rfl hname.symm]
    rfl

/-- Traced routes to the terminal are classes of deliveries. -/
theorem tracedTo_subset_classes (h : Sound limits net) {resolver : Resolver}
    {terminal : Fin net.size} (hterminal : (net.node terminal).kind.isTerminal = true)
    (object : NodeId) : Route.tracedTo net resolver terminal object ⊆ Route.classes net object := by
  rintro tail ⟨token, htraced, rfl, rfl⟩
  obtain ⟨route, hruns, rfl, hobject, -⟩ := exists_runs_of_traced h htraced
  exact ⟨route, ⟨⟨hruns, by rwa [Route.last_tail] at hterminal⟩, hobject⟩, rfl⟩

end Network

namespace Prepared

/-- The law of deliveries. As many tokens are delivered under a name as there are classes of
deliveries, provided that every delivery has a bearer, and fewer otherwise. Then exactly the objects
with two classes are reported, and those with one make up the scene. -/
theorem delivery_law {net : Network} {limits : Limits} {prepared : Prepared}
    (h : net.prepare limits = .ok prepared) (overrides : Overrides) (key : Option String)
    (hquiet : (prepared.flow overrides key).findings.any Finding.isError = false)
    (object : NodeId) :
    let count : Nat :=
      (prepared.flow overrides key).delivered.countP fun token => token.name = object
    let classes := Route.classes prepared.network object
    let borne := ∀ route : Route prepared.network, route.Delivers → route.object = object →
      (route.bearer (prepared.flow overrides key).arrived).isSome
    count ≤ classes.encard ∧ (count = classes.encard ↔ borne) ∧
      (borne →
        ((prepared.run overrides key).ReportsRepeated object ↔ 2 ≤ classes.encard) ∧
          ∀ compilation, prepared.run overrides key = .ok compilation →
            (object ∈ compilation.scene.objects.map SceneObject.id ↔ classes.encard = 1)) := by
  obtain ⟨hsound, hfindings⟩ := Network.sound_of_prepare h
  rw [← Finding.noError_iff_any] at hquiet
  obtain ⟨terminal, hterminal, -⟩ := hsound.terminal
  intro count classes borne
  have hfree := Network.exists_smooth hquiet hsound
  have harrived := funext (Network.arrived_flow hquiet)
  -- The traced routes are among the classes, and as many as the delivered tokens.
  have hsubset : Route.tracedTo _ (prepared.resolver overrides key) terminal object ⊆ classes :=
    Network.tracedTo_subset_classes hsound hterminal object
  have hcount : (Route.tracedTo _ (prepared.resolver overrides key) terminal object).encard =
      count := by
    rw [Network.encard_tracedTo hsound _ hterminal]
    exact congrArg _ (congrArg _ (Network.delivered_flow hquiet hsound hterminal).symm)
  have hborne_iff : ∀ route : Route prepared.network, route.Delivers →
      ((route.bearer (prepared.flow overrides key).arrived).isSome ↔
        route.tail ∈ Route.tracedTo _ (prepared.resolver overrides key) terminal route.object) :=
    fun route hdelivers =>
      harrived ▸ Network.isSome_bearer_iff hsound hfree hterminal hdelivers
  have hequal : count = classes.encard ↔ borne := by
    constructor
    · intro heq route hdelivers hobject
      have hsets := Set.Finite.eq_of_subset_of_encard_le
        (Set.finite_of_encard_eq_coe hcount) hsubset (by rw [hcount, heq])
      rw [hborne_iff route hdelivers, hobject, hsets]
      exact ⟨route, ⟨hdelivers, hobject⟩, rfl⟩
    · intro hborne
      have hsuperset : classes ⊆
          Route.tracedTo _ (prepared.resolver overrides key) terminal object := by
        rintro tail ⟨route, ⟨hdelivers, rfl⟩, rfl⟩
        exact (hborne_iff route hdelivers).mp (hborne route hdelivers rfl)
      rw [← hsubset.antisymm hsuperset, hcount]
  refine ⟨?_, hequal, fun hborne => ?_⟩
  · rw [← hcount]
    exact Set.encard_le_encard hsubset
  · rw [← hequal.mpr hborne]
    have hreports : (prepared.run overrides key).ReportsRepeated object ↔ 2 ≤ count :=
      reportsRepeated_iff hfindings hquiet object
    refine ⟨hreports.trans (by norm_cast), fun compilation hrun => ?_⟩
    -- Where there is a scene, nothing has been reported.
    have hfew : ¬ 2 ≤ count := fun hmany => by
      obtain ⟨_, _, herror, -⟩ := hreports.mpr hmany
      rw [hrun] at herror
      simp at herror
    rw [mem_ids_iff hrun]
    norm_cast
    exact ⟨fun hpos => by omega, fun hone => by omega⟩

end Prepared

/-! ### Networks that tell the law -/

/-- A circle without a style. -/
def Geometry.plainCircle : Geometry :=
  ⟨.circle, .zero, 0, .one, 1, []⟩

/-- A canvas for small networks. -/
def Canvas.small : Canvas :=
  ⟨10, 10, 30, "#000000", 0, false, none⟩

/-- Two paths of `a` meet in the merge node `m` and split again behind it. -/
def splitAgain : Network :=
  .ofLinks
    #[⟨⟨"a"⟩, "", .geometry .plainCircle⟩, ⟨⟨"m"⟩, "", .merge ⟨2⟩⟩,
      ⟨⟨"s"⟩, "", .terminal .video .small⟩]
    [⟨⟨⟨"e1"⟩, ⟨"a"⟩, ⟨""⟩, ⟨"m"⟩, ⟨"input-0"⟩⟩, 0, 1⟩,
      ⟨⟨⟨"e2"⟩, ⟨"a"⟩, ⟨""⟩, ⟨"m"⟩, ⟨"input-1"⟩⟩, 0, 1⟩,
      ⟨⟨⟨"e3"⟩, ⟨"m"⟩, ⟨""⟩, ⟨"s"⟩, ⟨""⟩⟩, 1, 2⟩,
      ⟨⟨⟨"e4"⟩, ⟨"m"⟩, ⟨""⟩, ⟨"s"⟩, ⟨""⟩⟩, 1, 2⟩]
    [] ⟨0, 0⟩

/-- The merge node joins the two paths before it, but not the two behind it. -/
theorem delivery_law_splitAgain :
    2 ≤ (Route.classes splitAgain ⟨"a"⟩).encard := by
  have hcheck : (match splitAgain.prepare .standard with
      | .ok prepared =>
        !(prepared.flow .empty none).findings.any Finding.isError &&
          (prepared.flow .empty none).delivered.countP (fun token => token.name = ⟨"a"⟩) == 2
      | .error _ => false) = true := by
    decide +kernel
  match hprepare : splitAgain.prepare .standard with
  | .error _ => simp [hprepare] at hcheck
  | .ok prepared =>
    simp only [hprepare, Bool.and_eq_true, Bool.not_eq_true', beq_iff_eq] at hcheck
    have hlaw := (Prepared.delivery_law hprepare .empty none hcheck.1 ⟨"a"⟩).1
    rw [hcheck.2, Network.network_of_prepare hprepare] at hlaw
    exact hlaw

/-- A network with a drawable node that bears the name of a copy: `a#d.1` is also the copy of `a`
that the duplicate node `d` makes. Both arrive at the merge node `m`, the drawable node first,
and the filter `f` behind it lets only `a` pass. -/
def sharedName : Network :=
  .ofLinks
    #[⟨⟨"a"⟩, "", .geometry .plainCircle⟩, ⟨⟨"a#d.1"⟩, "", .geometry .plainCircle⟩,
      ⟨⟨"d"⟩, "", .duplicate ⟨1, .zero⟩⟩, ⟨⟨"m"⟩, "", .merge ⟨2⟩⟩,
      ⟨⟨"f"⟩, "", .filter ⟨some [⟨"a"⟩], false⟩⟩, ⟨⟨"s"⟩, "", .terminal .video .small⟩]
    [⟨⟨⟨"e1"⟩, ⟨"a"⟩, ⟨""⟩, ⟨"d"⟩, ⟨""⟩⟩, 0, 2⟩,
      ⟨⟨⟨"e2"⟩, ⟨"d"⟩, ⟨""⟩, ⟨"m"⟩, ⟨"input-0"⟩⟩, 2, 3⟩,
      ⟨⟨⟨"e3"⟩, ⟨"a#d.1"⟩, ⟨""⟩, ⟨"m"⟩, ⟨"input-1"⟩⟩, 1, 3⟩,
      ⟨⟨⟨"e4"⟩, ⟨"m"⟩, ⟨""⟩, ⟨"f"⟩, ⟨""⟩⟩, 3, 4⟩,
      ⟨⟨⟨"e5"⟩, ⟨"f"⟩, ⟨""⟩, ⟨"s"⟩, ⟨""⟩⟩, 4, 5⟩]
    [] ⟨0, 0⟩

/-- The delivery of the copy of `a`. -/
def sharedNameRoute : Route sharedName :=
  .step (.step (.step (.step (.start ⟨0, by decide⟩) ⟨0, by decide⟩ 1) ⟨1, by decide⟩ 0)
    ⟨3, by decide⟩ 0) ⟨4, by decide⟩ 0

/-- Where names are shared, an object with a delivery may not be delivered at all. -/
theorem exists_count_ne_classes :
    ¬ ∀ (net : Network) (limits : Limits) (prepared : Prepared) (overrides : Overrides)
        (key : Option String) (object : NodeId), net.prepare limits = .ok prepared →
      (prepared.flow overrides key).findings.any Finding.isError = false →
        (((prepared.flow overrides key).delivered.countP fun token => token.name = object : ℕ) :
          ℕ∞) = (Route.classes prepared.network object).encard := by
  intro hlaw
  have hcheck : (match sharedName.prepare .standard with
      | .ok prepared =>
        !(prepared.flow .empty none).findings.any Finding.isError &&
          (prepared.flow .empty none).delivered.countP (fun token => token.name = ⟨"a#d.1"⟩) == 0
      | .error _ => false) = true := by
    decide +kernel
  have hroute : sharedNameRoute.Delivers ∧ sharedNameRoute.object = ⟨"a#d.1"⟩ := by
    decide +kernel
  match hprepare : sharedName.prepare .standard with
  | .error _ => simp [hprepare] at hcheck
  | .ok prepared =>
    simp only [hprepare, Bool.and_eq_true, Bool.not_eq_true', beq_iff_eq] at hcheck
    have hcount := hlaw sharedName .standard prepared .empty none ⟨"a#d.1"⟩ hprepare hcheck.1
    rw [hcheck.2, Network.network_of_prepare hprepare, Nat.cast_zero, eq_comm,
      Set.encard_eq_zero] at hcount
    exact (hcount ▸ Set.mem_image_of_mem Route.tail hroute : sharedNameRoute.tail ∈ (∅ : Set _))

end SceneFlow
