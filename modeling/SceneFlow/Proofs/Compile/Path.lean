import Mathlib
import SceneFlow.Proofs.Compile.Delivery

/-!
# Objects follow their paths

In a network without merge nodes no object meets another: what becomes of it is what the nodes on
its route make of a token that sees nothing else. Since no two deliveries of one object are let
into a scene, each object of a scene has one route, and the scene shows what a token becomes that
takes this route alone.

## Main results

* `Route.Traced.token?_eq`: without merge nodes a traced token is what takes its route alone.
* `Prepared.object_of_path`: the objects of a scene and their motions, from their routes.
-/

namespace SceneFlow

namespace Route

variable {net : Network} {resolver : Resolver}

/-- Without merge nodes a traced token is what becomes of a token that takes its route alone. -/
theorem Traced.token?_eq (hmerge : ∀ v, (net.node v).kind.isMerge = false) {route : Route net}
    {token : Token} (h : Traced net resolver route token) :
    route.token? resolver = some token := by
  induction h with
  | drawn hkind => rw [token?, hkind]
  | joined hmerge' _ => simp [hmerge] at hmerge'
  | step _ _ _ _ _ hcarry ih =>
    rw [token?, ih]
    exact hcarry

/-- Without merge nodes every route that runs has its object as bearer. -/
theorem bearer_eq_first (hmerge : ∀ v, (net.node v).kind.isMerge = false)
    (arrived : Fin net.size → List Token) {route : Route net} (hruns : route.Runs) :
    route.bearer arrived = some (net.id route.first) := by
  induction route with
  | start v => rfl
  | step before link number ih =>
    obtain ⟨hbefore, -, -, hadmits, -⟩ := hruns
    rw [bearer, if_neg (by simp [hmerge]), ih hbefore]
    simp [hadmits, first]

end Route

namespace Prepared

/-- Without merge nodes every object of a scene has been delivered along one route only, and the
scene shows the object and the motions of a token that takes this route alone. -/
theorem object_of_path {net : Network} {limits : Limits} {prepared : Prepared}
    (h : net.prepare limits = .ok prepared)
    (hmerge : ∀ v, (prepared.network.node v).kind.isMerge = false) (overrides : Overrides)
    (key : Option String) {compilation : Compilation}
    (hrun : prepared.run overrides key = .ok compilation) {object : SceneObject}
    (hobject : object ∈ compilation.scene.objects) :
    ∃ route : Route prepared.network,
      (route.Delivers ∧ route.object = object.id ∧
        ∀ other : Route prepared.network, other.Delivers → other.object = object.id →
          other = route) ∧
      ∃ token, route.token? (prepared.resolver overrides key) = some token ∧
        (token.object (prepared.resolver overrides key)).1 = .ok object ∧
        (compilation.scene.animations.filter fun placed => placed.object = object.id).Perm
          token.objectMotions := by
  obtain ⟨hsound, -⟩ := Network.sound_of_prepare h
  obtain ⟨hfound, -, -⟩ := of_run_eq_ok hrun
  obtain ⟨-, hquiet, hnames, -⟩ := (noError_found_iff _ _ _).mp hfound
  obtain ⟨token, htoken, hresult⟩ := exists_token_of_mem_objects hrun hobject
  have hid := (Token.id_of_object hresult).1
  have hmotions := animations_perm hrun htoken
  obtain ⟨terminal, hterminal, -⟩ := hsound.terminal
  have hdelivered := Network.delivered_flow hquiet hsound hterminal
  -- The token is traced back along a route, which is all of its way.
  have hmade : token ∈ prepared.network.made (prepared.resolver overrides key) terminal := by
    rw [Network.made_terminal hterminal]
    exact hdelivered ▸ htoken
  obtain ⟨route, htraced, hlast⟩ := (Network.mem_made_iff hsound).mp hmade
  obtain ⟨whole, hruns, htail, hwhole, -⟩ := Network.exists_runs_of_traced hsound htraced
  obtain rfl : whole = route := (Route.tail_eq_self hmerge whole).symm.trans htail
  have hdelivers : whole.Delivers := ⟨hruns, by rw [hlast]; exact hterminal⟩
  refine ⟨whole, ⟨hdelivers, hwhole.trans hid.symm, fun other hother hname => ?_⟩, token,
    htraced.token?_eq hmerge, hresult, hid ▸ hmotions⟩
  -- Another route would deliver the object once more.
  have hfree := Network.exists_smooth hquiet hsound
  have hcount : (Route.tracedTo prepared.network (prepared.resolver overrides key) terminal
      object.id).encard ≤ 1 := by
    rw [Network.encard_tracedTo hsound _ hterminal]
    have hle := List.nodup_iff_count_le_one.mp hnames object.id
    rw [List.count, List.countP_map] at hle
    rw [show prepared.network.arriving _ terminal = _ from hdelivered.symm]
    exact_mod_cast hle
  have hmem : ∀ one : Route prepared.network, one.Delivers → one.object = object.id →
      one ∈ Route.tracedTo prepared.network (prepared.resolver overrides key) terminal
        object.id := by
    intro one hone hname
    have hborne := (Network.isSome_bearer_iff hsound hfree hterminal hone).mp
      (by rw [Route.bearer_eq_first hmerge _ hone.1]; rfl)
    rwa [Route.tail_eq_self hmerge, hname] at hborne
  exact Set.encard_le_one_iff.mp hcount other whole (hmem other hother hname)
    (hmem whole hdelivers (hwhole.trans hid.symm))

end Prepared

/-- A duplicate node that makes two copies of `a`, and an insert node behind it. -/
def twoCopies : Network :=
  .ofLinks
    #[⟨⟨"a"⟩, "", .geometry .plainCircle⟩, ⟨⟨"d"⟩, "", .duplicate ⟨2, .one⟩⟩,
      ⟨⟨"i"⟩, "", .insert ⟨.always, 1⟩⟩, ⟨⟨"s"⟩, "", .terminal .video .small⟩]
    [⟨⟨⟨"e1"⟩, ⟨"a"⟩, ⟨""⟩, ⟨"d"⟩, ⟨""⟩⟩, 0, 1⟩, ⟨⟨⟨"e2"⟩, ⟨"d"⟩, ⟨""⟩, ⟨"i"⟩, ⟨""⟩⟩, 1, 2⟩,
      ⟨⟨⟨"e3"⟩, ⟨"i"⟩, ⟨""⟩, ⟨"s"⟩, ⟨""⟩⟩, 2, 3⟩]
    [] ⟨0, 0⟩

/-- The second copy is in the scene, and has come along one route. -/
theorem object_of_path_twoCopies :
    ∃ prepared compilation object, twoCopies.prepare .standard = .ok prepared ∧
      prepared.run .empty none = .ok compilation ∧ object ∈ compilation.scene.objects ∧
      object.id = ⟨"a#d.2"⟩ ∧
      ∃ route : Route prepared.network, route.Delivers ∧ route.object = ⟨"a#d.2"⟩ := by
  have hcheck : (match twoCopies.prepare .standard with
      | .ok prepared => prepared.succeeds .empty none &&
          (prepared.cast .empty none).objects.any fun object => object.id = ⟨"a#d.2"⟩
      | .error _ => false) = true := by
    decide +kernel
  have hmerge : ∀ v, (twoCopies.node v).kind.isMerge = false := by
    decide +kernel
  match hprepare : twoCopies.prepare .standard with
  | .error _ => simp [hprepare] at hcheck
  | .ok prepared =>
    simp only [hprepare, Bool.and_eq_true, List.any_eq_true, decide_eq_true_iff] at hcheck
    obtain ⟨hsucceeds, object, hmem, hid⟩ := hcheck
    obtain ⟨compilation, hrun⟩ := (prepared.succeeds_iff .empty none).mp hsucceeds
    have hobject := (Prepared.mem_objects_iff hrun).mpr hmem
    obtain ⟨route, ⟨hdelivers, hname, -⟩, -⟩ := Prepared.object_of_path hprepare
      (by rw [Network.network_of_prepare hprepare]; exact hmerge) .empty none hrun hobject
    exact ⟨prepared, compilation, object, rfl, hrun, hobject, hid, route, hdelivers,
      hname.trans hid⟩

end SceneFlow
