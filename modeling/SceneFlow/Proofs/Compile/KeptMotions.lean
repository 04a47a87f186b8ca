import Mathlib
import SceneFlow.Proofs.Compile.Delivery
import SceneFlow.Proofs.Compile.Tracks

/-!
# Motions that merge nodes keep

A merge node keeps one motion of each track, the first that arrives. Where tokens that meet are of
one line, the others differ from it in nothing but their starts. If tokens of one line also come to
each animation node at one time, the others are equal to it, and every motion that is rendered for
a token that ends up in the scene is in the scene. A token that has waited before an animation node
gets motions with later starts, though, and these are lost where it meets a token that has not.

## Main definitions

* `Prepared.ShowsRendered`: what is rendered for tokens that end up in the scene is in it.

## Main results

* `Prepared.motions_of_meets`: what becomes of motions that meet.
-/

namespace SceneFlow

namespace Prepared

variable {limits : Limits} {prepared : Prepared} {overrides : Overrides} {key : Option String}

/-- How a run sends the objects through the network. -/
def flowSettings (prepared : Prepared) (overrides : Overrides) (key : Option String) :
    FlowSettings :=
  ⟨prepared.resolver overrides key, prepared.coverage, prepared.instances⟩

/-- Every motion that is rendered for a token that ends up in the scene is in it. -/
def ShowsRendered (prepared : Prepared) (overrides : Overrides) (key : Option String)
    (scene : Scene) : Prop :=
  ∀ v data, (prepared.network.node v).kind = .animation data → ∀ token last,
    prepared.network.Becomes (prepared.flowSettings overrides key) last v token →
      ∃ rendered, (Animation.render (prepared.resolver overrides key) token.name token.cursor
        data.tracks).1 = .ok rendered ∧ ∀ r ∈ rendered, ⟨last.name, r.2⟩ ∈ scene.animations

/-- In a sound run without errors, tokens are neat wherever they arrive. -/
theorem neat_of_mem_arrived (h : Network.Sound limits prepared.network)
    (hquiet : Finding.NoError (prepared.flow overrides key).findings) (v) (t : Token)
    (ht : t ∈ (prepared.flow overrides key).arrived v) : t.Neat := by
  rw [flow, Network.arrived_flow hquiet] at ht
  exact (Network.proper_of_mem_arriving h ht).neat

end Prepared

namespace Network

variable {net : Network} {settings : FlowSettings} {limits : Limits}

section Quiet

variable (h : Sound limits net) (hquiet : Finding.NoError (net.flow settings).findings)
include h hquiet

/-- What leaves a node arrives at the nodes behind it. -/
theorem mem_arrived_of_mem_sends {v w : Fin net.size} {token : Token}
    (htoken : token ∈ (net.node v).sends settings.resolver ((net.flow settings).arrived v))
    (hlink : w ∈ net.objectsBehind v) : token ∈ (net.flow settings).arrived w := by
  rw [arrived_flow hquiet] at htoken ⊢
  obtain ⟨link, hmem, hobjects, rfl, rfl⟩ := mem_objectsBehind_iff.mp hlink
  obtain ⟨i, hi, rfl⟩ := List.getElem_of_mem hmem
  exact (mem_arriving_iff h).mpr ⟨⟨i, hi⟩, mem_objectLinkPlaces.mpr ⟨rfl, hobjects⟩, htoken⟩

/-- A token that an animation node moves ends up at a terminal behind the next merge node. -/
theorem exists_becomes {v w u : Fin net.size} {data : Animation}
    (hkind : (net.node v).kind = .animation data) {token : Token}
    (htoken : token ∈ (net.flow settings).arrived v) {rendered : List (Track × Motion)}
    (hrendered : (Animation.render settings.resolver token.name token.cursor data.tracks).1 =
      .ok rendered)
    (hw : w ∈ net.objectsBehind v) (hmerge : (net.node w).kind.isMerge = true)
    (hu : u ∈ net.objectsBehind w) (hterminal : (net.node u).kind.isTerminal = true) :
    ∃ last, net.Becomes settings last v token := by
  obtain ⟨result, hanimate⟩ : ∃ result, (data.animate settings.resolver (net.id v) token).1 =
      some result := ⟨_, Animation.animate_fst_eq_some_iff.mpr ⟨rendered, hrendered, rfl⟩⟩
  have hcarry : result ∈ (net.node v).carry settings.resolver token := by
    rw [Node.carry, hkind, Option.mem_toList]
    exact hanimate
  have hsent : result ∈ (net.flow settings).arrived w := by
    refine mem_arrived_of_mem_sends h hquiet ?_ hw
    rw [Node.sends, if_neg (by simp [hkind, NodeKind.isTerminal]), Node.work, hkind]
    exact List.mem_flatMap.mpr ⟨token, htoken, hcarry⟩
  obtain ⟨last, hlast, hname⟩ := Token.exists_mem_join hsent
  have hdelivered : last ∈ (net.flow settings).arrived u := by
    refine mem_arrived_of_mem_sends h hquiet ?_ hu
    cases hkind' : (net.node w).kind with
    | merge data =>
      rwa [Node.sends, if_neg (by simp [hkind', NodeKind.isTerminal]), Node.work, hkind']
    | _ => simp [hkind', NodeKind.isMerge] at hmerge
  exact ⟨last, .carried v w (by rw [hkind]; rfl) htoken hcarry hw <|
    .joined w u hmerge hsent hlast hname hu (.delivered u hterminal hdelivered)⟩

end Quiet

end Network

namespace Prepared

variable {limits : Limits} {prepared : Prepared} {overrides : Overrides} {key : Option String}

/-- The motions of a delivered token are in the scene. -/
theorem mem_animations {compilation : Compilation}
    (hrun : prepared.run overrides key = .ok compilation) {token : Token}
    (htoken : token ∈ (prepared.flow overrides key).delivered) {motion : Motion}
    (hmotion : motion ∈ token.motions.map Prod.snd) :
    ⟨token.name, motion⟩ ∈ compilation.scene.animations := by
  obtain ⟨m, hm, rfl⟩ := List.mem_map.mp hmotion
  exact (mem_animations_iff hrun _).mpr ⟨token, htoken, m, hm, rfl⟩

/-- Where only tokens of one line meet under one name, motions of one track that meet differ in
nothing but their starts. They are equal if tokens of one line come to each animation node at one
time. Wherever motions of one track that meet are equal, none is lost: every motion that is
rendered for a token that ends up in the scene is in the scene. -/
theorem motions_of_meets {net : Network} (h : net.prepare limits = .ok prepared)
    (overrides : Overrides) (key : Option String) {compilation : Compilation}
    (hrun : prepared.run overrides key = .ok compilation) :
    (prepared.Meets overrides key (fun t t' => t.line = t'.line) →
      (prepared.Meets overrides key fun t t' =>
        ∀ m ∈ t.motions, ∀ m' ∈ t'.motions, m.1 = m'.1 → m.2.SameButStart m'.2) ∧
      (prepared.network.Punctual (prepared.flowSettings overrides key) →
        prepared.Meets overrides key Token.SharesMotions)) ∧
    (prepared.Meets overrides key Token.SharesMotions →
      prepared.ShowsRendered overrides key compilation.scene) := by
  obtain ⟨hsound, -⟩ := Network.sound_of_prepare h
  have hquiet := ((noError_found_iff _ _ _).mp (of_run_eq_ok hrun).1).2.1
  have hneat := neat_of_mem_arrived hsound hquiet
  refine ⟨fun hline => ?_, fun hequal v data hkind token last hlast => ?_⟩
  · -- Motions that meet were rendered for tokens of one line.
    have hsource : prepared.Meets overrides key fun t t' =>
        ∀ m ∈ t.motions, ∀ m' ∈ t'.motions, m.1 = m'.1 → ∃ u first first',
          prepared.network.RenderedFor (prepared.flowSettings overrides key) u first t m ∧
            prepared.network.RenderedFor (prepared.flowSettings overrides key) u first' t' m' ∧
              first.line = first'.line :=
      fun v hmerge t ht t' ht' hname m hm m' hm' horigin => Network.exists_renderedFor hsound hneat
        hline ht ht' (hline v hmerge t ht t' ht' hname) hm hm' horigin
    refine ⟨fun v hmerge t ht t' ht' hname m hm m' hm' horigin => ?_,
      fun hpunctual v hmerge t ht t' ht' hname m hm m' hm' horigin => ?_⟩
    · obtain ⟨u, first, first', hfirst, hfirst', hfirsts⟩ :=
        hsource v hmerge t ht t' ht' hname m hm m' hm' horigin
      exact hfirst.sameButStart hfirst' hfirsts horigin
    · obtain ⟨u, first, first', hfirst, hfirst', hfirsts⟩ :=
        hsource v hmerge t ht t' ht' hname m hm m' hm' horigin
      obtain ⟨data, hkind, -⟩ := hfirst.rendered
      exact hfirst.motion_eq hfirst' hfirsts horigin
        (hpunctual u data hkind first hfirst.arrived first' hfirst'.arrived hfirsts)
  · obtain ⟨rendered, hrendered, hmotions⟩ := hlast.exists_rendered hkind hneat hequal
    refine ⟨rendered, hrendered, fun r hr => mem_animations hrun ?_ (hmotions r hr)⟩
    obtain ⟨w, hterminal, harrived⟩ := hlast.exists_terminal
    rw [flow, Network.delivered_flow hquiet hsound hterminal, ← Network.arrived_flow hquiet]
    exact harrived

end Prepared

/-- A track that fades an object in. -/
def Track.fadeIn : Track :=
  ⟨none, .fade, 0, 1, .linear, []⟩

/-- The circle `c` fades in at `f`, and reaches the merge node `m` along two links, one of them
through the insert node `i`. -/
def fadeThenWait : Network :=
  .ofLinks
    #[⟨⟨"c"⟩, "", .geometry .plainCircle⟩, ⟨⟨"f"⟩, "", .animation ⟨[.fadeIn], none⟩⟩,
      ⟨⟨"i"⟩, "", .insert ⟨.always, 1⟩⟩, ⟨⟨"m"⟩, "", .merge ⟨2⟩⟩,
      ⟨⟨"s"⟩, "", .terminal .video .small⟩]
    [⟨⟨⟨"e1"⟩, ⟨"c"⟩, ⟨""⟩, ⟨"f"⟩, ⟨""⟩⟩, 0, 1⟩, ⟨⟨⟨"e2"⟩, ⟨"f"⟩, ⟨""⟩, ⟨"i"⟩, ⟨""⟩⟩, 1, 2⟩,
      ⟨⟨⟨"e3"⟩, ⟨"f"⟩, ⟨""⟩, ⟨"m"⟩, ⟨"input-0"⟩⟩, 1, 3⟩,
      ⟨⟨⟨"e4"⟩, ⟨"i"⟩, ⟨""⟩, ⟨"m"⟩, ⟨"input-1"⟩⟩, 2, 3⟩,
      ⟨⟨⟨"e5"⟩, ⟨"m"⟩, ⟨""⟩, ⟨"s"⟩, ⟨""⟩⟩, 3, 4⟩]
    [] ⟨0, 0⟩

/-- The circle `c` fades in at `f` twice: at once, and when it has waited in the insert node `i`.
Its tokens meet in the merge node `m`. -/
def waitThenFade : Network :=
  .ofLinks
    #[⟨⟨"c"⟩, "", .geometry .plainCircle⟩, ⟨⟨"f"⟩, "", .animation ⟨[.fadeIn], none⟩⟩,
      ⟨⟨"i"⟩, "", .insert ⟨.always, 1⟩⟩, ⟨⟨"m"⟩, "", .merge ⟨2⟩⟩,
      ⟨⟨"s"⟩, "", .terminal .video .small⟩]
    [⟨⟨⟨"e1"⟩, ⟨"c"⟩, ⟨""⟩, ⟨"f"⟩, ⟨""⟩⟩, 0, 1⟩, ⟨⟨⟨"e2"⟩, ⟨"c"⟩, ⟨""⟩, ⟨"i"⟩, ⟨""⟩⟩, 0, 2⟩,
      ⟨⟨⟨"e3"⟩, ⟨"i"⟩, ⟨""⟩, ⟨"f"⟩, ⟨""⟩⟩, 2, 1⟩,
      ⟨⟨⟨"e4"⟩, ⟨"f"⟩, ⟨""⟩, ⟨"m"⟩, ⟨"input-0"⟩⟩, 1, 3⟩,
      ⟨⟨⟨"e5"⟩, ⟨"m"⟩, ⟨""⟩, ⟨"s"⟩, ⟨""⟩⟩, 3, 4⟩]
    [] ⟨0, 0⟩

/-- The two tokens that meet have the same motion, and it is in the scene. -/
theorem motions_of_meets_fadeThenWait :
    ∃ prepared compilation, fadeThenWait.prepare .standard = .ok prepared ∧
      prepared.run .empty none = .ok compilation ∧
      prepared.Meets .empty none Token.SharesMotions ∧
      prepared.ShowsRendered .empty none compilation.scene := by
  have hcheck : (match fadeThenWait.prepare .standard with
      | .ok prepared => prepared.succeeds .empty none && prepared.network.places.all fun v =>
          ((prepared.flow .empty none).arrived v).all fun t =>
            ((prepared.flow .empty none).arrived v).all fun t' =>
              decide (t.line = t'.line) &&
                ((prepared.network.node v).kind.isMerge || t.cursor = t'.cursor)
      | .error _ => false) = true := by
    decide +kernel
  match hprepare : fadeThenWait.prepare .standard with
  | .error _ => simp [hprepare] at hcheck
  | .ok prepared =>
    simp only [hprepare, Bool.and_eq_true, List.all_eq_true, decide_eq_true_iff,
      Bool.or_eq_true] at hcheck
    obtain ⟨hsucceeds, harrived⟩ := hcheck
    obtain ⟨compilation, hrun⟩ := (prepared.succeeds_iff .empty none).mp hsucceeds
    obtain ⟨hmotions, hshows⟩ := Prepared.motions_of_meets hprepare .empty none hrun
    obtain ⟨-, hpunctual⟩ := hmotions fun v _ t ht t' ht' _ =>
      (harrived v (Network.mem_places v) t ht t' ht').1
    have hshares := hpunctual fun v data hkind t ht t' ht' _ =>
      (harrived v (Network.mem_places v) t ht t' ht').2.resolve_left
        (by simp [hkind, NodeKind.isMerge])
    exact ⟨prepared, compilation, rfl, hrun, hshares, hshows hshares⟩

/-- A motion of a token that has waited is lost. -/
theorem exists_motion_lost :
    ¬ ∀ (net : Network) (limits : Limits) (prepared : Prepared) (overrides : Overrides)
        (key : Option String) (compilation : Compilation), net.prepare limits = .ok prepared →
      prepared.run overrides key = .ok compilation →
        prepared.ShowsRendered overrides key compilation.scene := by
  intro hclaim
  have hcheck : (match waitThenFade.prepare .standard with
      | .ok prepared => prepared.succeeds .empty none &&
          ((prepared.cast .empty none).motions.all fun placed => placed.motion.start ≠ 1) &&
            prepared.network.places.any fun v =>
              match (prepared.network.node v).kind with
              | .animation data =>
                ((prepared.flow .empty none).arrived v).any (fun token =>
                  match (Animation.render (prepared.resolver .empty none) token.name token.cursor
                    data.tracks).1 with
                  | .ok rendered => rendered.any fun r => r.2.start = 1
                  | .error _ => false) &&
                (prepared.network.objectsBehind v).any fun w =>
                  (prepared.network.node w).kind.isMerge &&
                    (prepared.network.objectsBehind w).any fun u =>
                      (prepared.network.node u).kind.isTerminal
              | _ => false
      | .error _ => false) = true := by
    decide +kernel
  match hprepare : waitThenFade.prepare .standard with
  | .error _ => simp [hprepare] at hcheck
  | .ok prepared =>
    simp only [hprepare, Bool.and_eq_true, List.any_eq_true, List.all_eq_true,
      decide_eq_true_iff] at hcheck
    obtain ⟨⟨hsucceeds, hkept⟩, v, -, hcheck⟩ := hcheck
    obtain ⟨compilation, hrun⟩ := (prepared.succeeds_iff .empty none).mp hsucceeds
    obtain ⟨hsound, -⟩ := Network.sound_of_prepare hprepare
    obtain ⟨hfound, hcast, hscene⟩ := Prepared.of_run_eq_ok hrun
    have hquiet := ((Prepared.noError_found_iff _ _ _).mp hfound).2.1
    cases hkind : (prepared.network.node v).kind with
    | animation data =>
      simp only [hkind, Bool.and_eq_true, List.any_eq_true] at hcheck
      obtain ⟨⟨token, htoken, hlate⟩, w, hw, hmerge, u, hu, hterminal⟩ := hcheck
      split at hlate
      · rename_i rendered hrendered
        -- The token that has waited passes the animation node and joins the other.
        obtain ⟨r, hr, hlate⟩ := List.any_eq_true.mp hlate
        obtain ⟨last, hlast⟩ := Network.exists_becomes hsound hquiet hkind htoken
          hrendered hw hmerge hu hterminal
        obtain ⟨rendered', hrendered', hshown⟩ :=
          hclaim waitThenFade .standard prepared .empty none compilation hprepare hrun v data hkind
            token last hlast
        obtain rfl := Except.ok.inj (hrendered.symm.trans hrendered')
        have hmem := hshown r hr
        rw [hscene, Cast.scene, List.mem_mergeSort] at hmem
        exact hkept _ hmem (of_decide_eq_true hlate)
      · cases hlate
    | _ => simp [hkind] at hcheck

end SceneFlow
