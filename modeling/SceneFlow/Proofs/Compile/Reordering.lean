import Mathlib
import SceneFlow.Proofs.Compile.Rearrangement
import SceneFlow.Proofs.Scene.Alike

/-!
# Graphs written down in another order

The nodes and edges of a graph can be written down in any order. Edges are put in the order of
their names, but nodes take their turns in an order that depends on how they are listed, and with it
the order in which tokens arrive. If the tokens that meet at merge nodes agree, the graph is
compiled in all orders or in none, and its scenes differ in the order of motions that start together
only.

## Main definitions

* `Graph.CompilesTo`: what a graph is compiled to.

## Main results

* `Graph.compilesTo_of_perm`: a graph in another order is compiled to the same.
-/

namespace SceneFlow

open Token (outline along)

/-- A graph is compiled to a scene. -/
def Graph.CompilesTo (graph : Graph) (limits : Limits) (overrides : Overrides)
    (key : Option String) (prepared : Prepared) (compilation : Compilation) : Prop :=
  ∃ net, Network.ofGraph graph = .ok net ∧ net.prepare limits = .ok prepared ∧
    prepared.run overrides key = .ok compilation

/-! ### Lists of the same outlines -/

section Lists

variable {α β γ : Type} {list other : List α}

/-- Lists with the same images are the same up to order and to what the images do not tell. -/
theorem exists_perm_of_map_perm {f : α → β} (h : (list.map f).Perm (other.map f)) :
    ∃ mid : List α, mid.map f = other.map f ∧ mid.Perm list := by
  have hcomp := congrFun (congrFun (List.eq_map_comp_perm f) (other.map f)) list
  obtain ⟨mid, hmap, hperm⟩ := hcomp.mpr h.symm
  exact ⟨mid, hmap.symm, hperm⟩

theorem flatMap_perm_of_map_eq {f : α → β} {g : α → List γ} (h : list.map f = other.map f)
    (hg : ∀ a b, f a = f b → (g a).Perm (g b)) : (list.flatMap g).Perm (other.flatMap g) := by
  induction list generalizing other with
  | nil => rw [List.map_eq_nil_iff.mp h.symm]
  | cons a list ih =>
    match other with
    | [] => simp at h
    | b :: other =>
      rw [List.map_cons, List.map_cons, List.cons.injEq] at h
      rw [List.flatMap_cons, List.flatMap_cons]
      exact (hg a b h.1).append (ih h.2)

end Lists

namespace Cast

variable {resolver resolver' : Resolver} {delivered delivered' : List Token}
  (hresolver : resolver.Alike resolver')
  (hperm : (delivered.map (outline true)).Perm (delivered'.map (outline true)))
include hresolver hperm

theorem objects_perm :
    (ofTokens resolver delivered).objects.Perm (ofTokens resolver' delivered').objects := by
  obtain ⟨mid, hmap, hmid⟩ := exists_perm_of_map_perm hperm
  have hobjects : ∀ t t' : Token, t.outline true = t'.outline true →
      (t.object resolver).1.toOption = (t'.object resolver').1.toOption := fun t t' hout => by
    rw [Token.object_eq_of_outline hout, hresolver.object_eq]
  have hsplit : ∀ (r : Resolver) (tokens : List Token),
      tokens.filterMap (fun t => (t.object r).1.toOption) =
        (tokens.map fun t => (t.object r).1.toOption).filterMap id := fun r tokens => by
    rw [List.filterMap_map]
    rfl
  rw [objects_eq, objects_eq]
  refine (hmid.symm.filterMap _).trans (List.Perm.of_eq ?_)
  rw [hsplit, hsplit, map_eq_of_map_eq hmap hobjects]

theorem noError_findings_of_perm (h : Finding.NoError (ofTokens resolver delivered).findings) :
    Finding.NoError (ofTokens resolver' delivered').findings := by
  rw [noError_findings_iff] at h ⊢
  intro token' htoken'
  obtain ⟨token, htoken, hout⟩ :=
    List.mem_map.mp (hperm.mem_iff.mpr (List.mem_map_of_mem htoken'))
  obtain ⟨object, hobject⟩ := h token htoken
  exact ⟨object, by rw [← hobject, Token.object_eq_of_outline hout, hresolver.object_eq]⟩

theorem motions_perm (h : Finding.NoError (ofTokens resolver delivered).findings) :
    (ofTokens resolver delivered).motions.Perm (ofTokens resolver' delivered').motions := by
  obtain ⟨mid, hmap, hmid⟩ := exists_perm_of_map_perm hperm
  rw [motions_eq h, motions_eq (noError_findings_of_perm hresolver hperm h)]
  exact (hmid.symm.flatMap_right _).trans (flatMap_perm_of_map_eq hmap fun _ _ =>
    Token.objectMotions_perm_of_outline)

end Cast

/-! ### Runs -/

namespace Prepared

variable {limits : Limits} {prepared prepared' : Prepared} {overrides : Overrides}
  {key : Option String}

/-- Where the same tokens are delivered, the scenes are alike. -/
theorem alike_of_delivered_perm {compilation compilation' : Compilation}
    (hresolver : (prepared.resolver overrides key).Alike (prepared'.resolver overrides key))
    (hperm : ((prepared.flow overrides key).delivered.map (outline true)).Perm
      ((prepared'.flow overrides key).delivered.map (outline true)))
    (houtput : prepared'.output = prepared.output) (hcanvas : prepared'.canvas = prepared.canvas)
    (hrun : prepared.run overrides key = .ok compilation)
    (hrun' : prepared'.run overrides key = .ok compilation') :
    compilation.scene.Alike compilation'.scene := by
  obtain ⟨hfound, hcast, hscene⟩ := of_run_eq_ok hrun
  obtain ⟨-, -, hscene'⟩ := of_run_eq_ok hrun'
  rw [hscene, hscene', houtput, hcanvas]
  refine Cast.scene_alike (Cast.objects_perm hresolver hperm) ?_
    (Cast.motions_perm hresolver hperm hcast) _ _
  rw [Cast.map_id_objects hcast]
  exact ((noError_found_iff _ _ _).mp hfound).2.2.1

/-- Where the same tokens are delivered and nothing is found before, there are scenes in both
runs. -/
theorem succeeds_of_delivered_perm
    (hresolver : (prepared.resolver overrides key).Alike (prepared'.resolver overrides key))
    (hperm : ((prepared.flow overrides key).delivered.map (outline true)).Perm
      ((prepared'.flow overrides key).delivered.map (outline true)))
    (hcanvas : prepared'.canvas = prepared.canvas)
    (hfindings : Finding.NoError prepared'.findings)
    (hquiet : Finding.NoError (prepared'.flow overrides key).findings)
    (h : prepared.succeeds overrides key = true) : prepared'.succeeds overrides key = true := by
  rw [succeeds_iff_noError, noError_found_iff] at h ⊢
  obtain ⟨⟨-, -, hnames, hinserted⟩, hcast⟩ := h
  obtain ⟨mid, hmap, hmid⟩ := exists_perm_of_map_perm hperm
  refine ⟨⟨hfindings, hquiet, ?_, fun hcoverage token' htoken' => ?_⟩,
    Cast.noError_findings_of_perm hresolver hperm hcast⟩
  · have hname : mid.map Token.name = (prepared'.flow overrides key).delivered.map Token.name :=
      map_eq_of_map_eq hmap fun _ _ hout =>
        Token.name_eq_of_frame (Token.frame_eq_of_outline hout)
    rw [← hname]
    exact ((hmid.map _).nodup_iff).mpr hnames
  · obtain ⟨token, htoken, hout⟩ :=
      List.mem_map.mp (hperm.mem_iff.mpr (List.mem_map_of_mem htoken'))
    rw [← (Token.outline_eq_iff.mp hout).2.2.1]
    rw [coverage, hcanvas] at hcoverage
    exact hinserted hcoverage token htoken

end Prepared

/-! ### Graphs in another order -/

namespace Network

variable {graph graph' : Graph} {net net' : Network} {limits limits' : Limits}

/-- The network of a graph in another order is a part that misses no node. -/
theorem exists_full_part (hnet : ofGraph graph = .ok net) (hnet' : ofGraph graph' = .ok net')
    (hnodes : graph.nodes.Perm graph'.nodes) (hedges : graph.edges.Perm graph'.edges)
    (hnames : (graph.nodes.map RawNode.id).Nodup) (hedgeNames : (graph.edges.map Edge.id).Nodup) :
    ∃ h : Part net' net, Function.Surjective h.place := by
  have hid := id_injective_of_nodup hnet hnames
  obtain ⟨h⟩ := nonempty_part hnet hnet' hid
    (id_injective_of_nodup hnet' ((hnodes.map _).nodup_iff.mp hnames))
    (fun raw hraw => hnodes.mem_iff.mpr hraw)
    (fun raw hraw hdropped => absurd (hnodes.mem_iff.mp hraw) hdropped) (fun _ => true)
    (by rw [List.filter_true, sortEdges_eq_of_perm hedges hedgeNames])
    (fun _ _ hfalse => nomatch hfalse)
  refine ⟨h, fun u => ?_⟩
  obtain ⟨raw, hraw, hu⟩ := exists_raw hnet u
  obtain ⟨v, hv⟩ := exists_node hnet' (hnodes.mem_iff.mp hraw)
  exact ⟨v, hid (by rw [h.id_eq, Network.id, Network.id, Except.ok.inj (hv.symm.trans hu)])⟩

/-- Where tokens that meet agree, the same tokens arrive when the nodes are rearranged. -/
theorem Part.perm_arriving_of_full (h : Part net' net) (hfull : Function.Surjective h.place)
    (hpart : Sound limits net') (hwhole : Sound limits' net) {resolver resolver' : Resolver}
    (hresolver : resolver'.Alike resolver)
    (hmeet : ∀ v, (net.node v).kind.isMerge = true → ∀ t ∈ net.arriving resolver' v,
      ∀ t' ∈ net.arriving resolver' v, t.name = t'.name → t.line = t'.line ∧ t.Agrees t')
    (v : Fin net'.size) :
    ((net.arriving resolver' (h.place v)).map (outline true)).Perm
      ((net'.arriving resolver v).map (outline true)) := by
  have halong : ∀ tokens, along (fun _ => true) tokens = tokens := fun tokens =>
    List.filter_true tokens
  have hperm : ((along (fun _ => true) (net.arriving resolver' (h.place v))).map
        (outline true)).Perm
      ((along (fun _ => true) (net'.arriving resolver v)).map (outline true)) :=
    h.perm_arriving_of_meet hpart hwhole hresolver (fun _ _ _ _ => rfl)
      (fun u hu => absurd (hfull u) fun ⟨v, hv⟩ => hu v hv) (fun _ _ _ => rfl)
      (fun v hmerge t ht _ t' ht' hname =>
        (hmeet _ (by rw [h.node_eq, hmerge]) t ht t' ht' hname.symm).imp_right
          fun hagree _ => hagree) v
  rwa [halong, halong] at hperm

end Network

namespace Graph

variable {graph graph' : Graph} {limits : Limits} {overrides : Overrides} {key : Option String}
  {prepared prepared' : Prepared} {compilation compilation' : Compilation}

/-- A graph is compiled to one thing only. -/
theorem CompilesTo.unique (h : graph.CompilesTo limits overrides key prepared compilation)
    (h' : graph.CompilesTo limits overrides key prepared' compilation') :
    prepared' = prepared ∧ compilation' = compilation := by
  obtain ⟨net, hnet, hprepare, hrun⟩ := h
  obtain ⟨net', hnet', hprepare', hrun'⟩ := h'
  obtain rfl := Except.ok.inj (hnet.symm.trans hnet')
  obtain rfl := Except.ok.inj (hprepare.symm.trans hprepare')
  exact ⟨rfl, Except.ok.inj (hrun'.symm.trans hrun)⟩

/-- A graph in another order is compiled to the same. -/
theorem CompilesTo.of_perm (hcompiles : graph.CompilesTo limits overrides key prepared compilation)
    (hnodes : graph.nodes.Perm graph'.nodes) (hedges : graph.edges.Perm graph'.edges)
    (hnames : (graph.nodes.map RawNode.id).Nodup) (hedgeNames : (graph.edges.map Edge.id).Nodup)
    (hmeet : prepared.Meets overrides key fun t t' => t.line = t'.line ∧ t.Agrees t')
    (hroomy : prepared.network.Roomy limits.instances) :
    ∃ prepared' compilation', graph'.CompilesTo limits overrides key prepared' compilation' ∧
      compilation.scene.Alike compilation'.scene := by
  obtain ⟨net, hnet, hprepare, hrun⟩ := hcompiles
  obtain ⟨net', hnet'⟩ := (Network.exists_ofGraph_eq_ok_iff graph').mpr fun raw hraw =>
    (Network.exists_ofGraph_eq_ok_iff graph).mp ⟨net, hnet⟩ raw (hnodes.mem_iff.mpr hraw)
  obtain ⟨h, hfull⟩ := Network.exists_full_part hnet hnet' hnodes hedges hnames hedgeNames
  obtain ⟨prepared', hprepare', houtput, hcanvas, hinstances⟩ := h.exists_prepare hfull hprepare
  obtain rfl := Network.network_of_prepare hprepare
  obtain rfl := Network.network_of_prepare hprepare'
  obtain ⟨hsound, -⟩ := Network.sound_of_prepare hprepare
  obtain ⟨hsound', hfindings'⟩ := Network.sound_of_prepare hprepare'
  have hresolver := h.alike hprepare' hprepare overrides key
  have hquiet := ((Prepared.noError_found_iff _ _ _).mp (Prepared.of_run_eq_ok hrun).1).2.1
  have hlimit : prepared.instances = limits.instances := by
    obtain ⟨-, _, _, _, -, -, heq⟩ := Network.prepare_eq_ok_iff.mp hprepare
    rw [heq]
  have harriving := h.perm_arriving_of_full hfull hsound' hsound hresolver
    ((Prepared.meets_iff hquiet _).mp hmeet)
  have hquiet' : Finding.NoError (prepared'.flow overrides key).findings := by
    refine h.noError_flow hfull ⟨prepared'.resolver overrides key, _, _⟩
      ⟨prepared.resolver overrides key, _, _⟩ hsound' hsound hresolver ?_ hinstances ?_ harriving
      hquiet
    · rw [Prepared.coverage, Prepared.coverage, hcanvas]
    · change prepared.network.Roomy prepared.instances
      rwa [hlimit]
  have hdelivered : ((prepared.flow overrides key).delivered.map (outline true)).Perm
      ((prepared'.flow overrides key).delivered.map (outline true)) := by
    obtain ⟨terminal, hterminal, -⟩ := hsound'.terminal
    rw [Prepared.flow, Prepared.flow, Network.delivered_flow hquiet' hsound' hterminal,
      Network.delivered_flow hquiet hsound (by rw [h.node_eq, hterminal])]
    exact harriving terminal
  obtain ⟨compilation', hrun'⟩ := (Prepared.succeeds_iff _ _ _).mp <|
    Prepared.succeeds_of_delivered_perm hresolver hdelivered hcanvas hfindings' hquiet' <|
      (Prepared.succeeds_iff _ _ _).mpr ⟨compilation, hrun⟩
  exact ⟨prepared', compilation', ⟨_, hnet', hprepare', hrun'⟩,
    Prepared.alike_of_delivered_perm hresolver hdelivered houtput hcanvas hrun hrun'⟩

/-- Of a graph whose tokens agree wherever they meet, and which leaves room for its drawable nodes,
nothing depends on the order in which it is written down but the order of motions that start
together. -/
theorem compilesTo_of_perm (hnodes : graph.nodes.Perm graph'.nodes)
    (hedges : graph.edges.Perm graph'.edges) (hnames : (graph.nodes.map RawNode.id).Nodup)
    (hedgeNames : (graph.edges.map Edge.id).Nodup) (limits : Limits) (overrides : Overrides)
    (key : Option String)
    (hagree : ∀ prepared compilation,
      graph.CompilesTo limits overrides key prepared compilation ∨
          graph'.CompilesTo limits overrides key prepared compilation →
        (prepared.Meets overrides key fun t t' => t.line = t'.line ∧ t.Agrees t') ∧
          prepared.network.Roomy limits.instances) :
    ((∃ prepared compilation, graph.CompilesTo limits overrides key prepared compilation) ↔
        ∃ prepared compilation, graph'.CompilesTo limits overrides key prepared compilation) ∧
      ∀ prepared compilation prepared' compilation',
        graph.CompilesTo limits overrides key prepared compilation →
          graph'.CompilesTo limits overrides key prepared' compilation' →
            compilation.scene.Alike compilation'.scene := by
  refine ⟨⟨?_, ?_⟩, fun prepared compilation prepared' compilation' hcompiles hcompiles' => ?_⟩
  · rintro ⟨prepared, compilation, hcompiles⟩
    obtain ⟨hmeet, hroomy⟩ := hagree prepared compilation (.inl hcompiles)
    obtain ⟨prepared', compilation', hcompiles', -⟩ :=
      hcompiles.of_perm hnodes hedges hnames hedgeNames hmeet hroomy
    exact ⟨prepared', compilation', hcompiles'⟩
  · rintro ⟨prepared', compilation', hcompiles'⟩
    obtain ⟨hmeet, hroomy⟩ := hagree prepared' compilation' (.inr hcompiles')
    obtain ⟨prepared, compilation, hcompiles, -⟩ :=
      hcompiles'.of_perm hnodes.symm hedges.symm ((hnodes.map _).nodup_iff.mp hnames)
        ((hedges.map _).nodup_iff.mp hedgeNames) hmeet hroomy
    exact ⟨prepared, compilation, hcompiles⟩
  · obtain ⟨hmeet, hroomy⟩ := hagree prepared compilation (.inl hcompiles)
    obtain ⟨_, _, hother, halike⟩ :=
      hcompiles.of_perm hnodes hedges hnames hedgeNames hmeet hroomy
    rwa [(hother.unique hcompiles').2]

end Graph

/-! ### What the order of nodes changes -/

/-- Whether a graph with its edges in order is compiled can be computed without sorting. -/
theorem Graph.exists_compilesTo_iff {graph : Graph} (limits : Limits) (overrides : Overrides)
    (key : Option String) (hsorted : graph.edges.Pairwise fun a b => a.id.text ≤ b.id.text) :
    (∃ prepared compilation, graph.CompilesTo limits overrides key prepared compilation) ↔
      (match Network.ofSorted graph with
      | .error _ => false
      | .ok net =>
        match net.prepare limits with
        | .error _ => false
        | .ok prepared => prepared.succeeds overrides key) = true := by
  simp only [CompilesTo]
  rw [← Network.ofGraph_eq_ofSorted hsorted]
  match hnet : Network.ofGraph graph with
  | .error _ => simp
  | .ok net =>
    match hprepare : net.prepare limits with
    | .error _ => simp [hprepare]
    | .ok prepared => simp [hprepare, Prepared.succeeds_iff]

/-- A graph with its first two nodes exchanged. -/
def Graph.swap (graph : Graph) : Graph where
  nodes :=
    match graph.nodes with
    | first :: second :: rest => second :: first :: rest
    | nodes => nodes
  edges := graph.edges

theorem Graph.swap_perm (graph : Graph) : graph.nodes.Perm graph.swap.nodes := by
  rw [swap]
  split
  · rename_i first second rest hnodes
    rw [hnodes]
    exact List.Perm.swap second first rest
  · exact List.Perm.refl _

/-- When `x` comes first, the circle `c` is the same. -/
theorem compilesTo_of_perm_insertRace :
    ∃ prepared prepared' compilation compilation',
      insertRace.CompilesTo .standard .empty none prepared compilation ∧
        insertRace.swap.CompilesTo .standard .empty none prepared' compilation' ∧
        compilation.scene.Alike compilation'.scene := by
  obtain ⟨net, net', prepared, prepared', compilation, compilation', hnet, hnet', hprepare,
      hprepare', hrun, hrun', hseen⟩ := exists_runs_of_sorted insertRace insertRace.swap
    (fun _ prepared prepared' => [prepared, prepared'].all fun prepared =>
      (prepared.network.places.all fun v => !(prepared.network.node v).kind.isDuplicate) &&
        prepared.network.places.all fun v => ((prepared.flow .empty none).arrived v).all fun t =>
          t.style.isEmpty && t.motions.isEmpty &&
            ((prepared.flow .empty none).arrived v).all fun t' =>
              decide (t.name = t'.name → t.line = t'.line))
    (by decide +kernel) (by decide +kernel) (by decide +kernel)
  have hcompiles : insertRace.CompilesTo .standard .empty none prepared compilation :=
    ⟨net, hnet, hprepare, hrun⟩
  have hcompiles' : insertRace.swap.CompilesTo .standard .empty none prepared' compilation' :=
    ⟨net', hnet', hprepare', hrun'⟩
  have hagree : ∀ p ∈ [prepared, prepared'],
      (p.Meets .empty none fun t t' => t.line = t'.line ∧ t.Agrees t') ∧
        p.network.Roomy Limits.standard.instances := by
    intro p hp
    have hp := List.all_eq_true.mp hseen p hp
    simp only [Bool.and_eq_true, List.all_eq_true, decide_eq_true_iff, List.isEmpty_iff,
      Bool.not_eq_true'] at hp
    obtain ⟨hnone, harrived⟩ := hp
    refine ⟨fun v _ t ht t' ht' hname => ?_, fun ⟨v, hv⟩ => ?_⟩
    · obtain ⟨⟨hstyle, hmotions⟩, hline⟩ := harrived v (Network.mem_places v) t ht
      exact ⟨hline t' ht' hname, Token.agrees_of_eq_nil hstyle hmotions t'⟩
    · rw [hnone v (Network.mem_places v)] at hv
      cases hv
  refine ⟨prepared, prepared', compilation, compilation', hcompiles, hcompiles', ?_⟩
  refine (Graph.compilesTo_of_perm insertRace.swap_perm (List.Perm.refl _) (by decide +kernel)
    (by decide +kernel) .standard .empty none fun p _ h => hagree p ?_).2 _ _ _ _ hcompiles
      hcompiles'
  rcases h with h | h
  · rw [(hcompiles.unique h).1]
    exact List.mem_cons_self
  · rw [(hcompiles'.unique h).1]
    exact List.mem_cons_of_mem _ (List.mem_singleton_self _)

/-- When `x` comes first, the other style of `c` prevails. -/
theorem exists_scene_changed_swap :
    ¬ ∀ (graph graph' : Graph) (limits : Limits) (overrides : Overrides),
        graph.nodes.Perm graph'.nodes → graph.edges.Perm graph'.edges →
          (graph.nodes.map RawNode.id).Nodup → (graph.edges.map Edge.id).Nodup →
            ((∃ p c, graph.CompilesTo limits overrides none p c) ↔
              ∃ p c, graph'.CompilesTo limits overrides none p c) ∧
            ∀ p c p' c', graph.CompilesTo limits overrides none p c →
              graph'.CompilesTo limits overrides none p' c' → c.scene.Alike c'.scene := by
  intro hclaim
  obtain ⟨net, net', prepared, prepared', compilation, compilation', hnet, hnet', hprepare,
      hprepare', hrun, hrun', hseen⟩ := exists_runs_of_sorted styleRace styleRace.swap
    (fun _ prepared prepared' =>
      ((prepared.cast .empty none).objects.any fun object => object.hasStyle 2) &&
        (prepared'.cast .empty none).objects.all fun object => !object.hasStyle 2)
    (by decide +kernel) (by decide +kernel) (by decide +kernel)
  simp only [Bool.and_eq_true, List.any_eq_true, List.all_eq_true, Bool.not_eq_true'] at hseen
  obtain ⟨⟨object, hobject, hstyle⟩, hnone⟩ := hseen
  have halike := (hclaim styleRace styleRace.swap .standard .empty styleRace.swap_perm
    (List.Perm.refl _) (by decide +kernel) (by decide +kernel)).2 prepared compilation prepared'
      compilation' ⟨net, hnet, hprepare, hrun⟩ ⟨net', hnet', hprepare', hrun'⟩
  have hmem := (Prepared.mem_objects_iff hrun).mpr hobject
  rw [halike.objects_eq] at hmem
  have hother := hnone object ((Prepared.mem_objects_iff hrun').mp hmem)
  rw [hstyle] at hother
  cases hother

/-- The copy `a#d.1` of `a` that `d` makes and the circle of that name meet in `m`. -/
def sharedOrigin : Graph where
  nodes :=
    [.circle "a", .circle "a#d.1", .small "d" "duplicate" [("count", .small 1)],
      .small "i" "insert" [], .small "m" "merge" [("input_count", .small 2)],
      .small "s" "scene"
        [("height", .small 10), ("width", .small 10)]]
  edges :=
    [.plain "e1" "a" "d", .plain "e2" "a#d.1" "i", .input "e3" "d" "m" "input-0",
      .input "e4" "i" "m" "input-1", .plain "e5" "m" "s"]

/-- When `a#d.1` comes first, the object of this name is the circle. -/
theorem exists_origin_changed_swap :
    ∃ prepared prepared' compilation compilation',
      sharedOrigin.CompilesTo .standard .empty none prepared compilation ∧
        sharedOrigin.swap.CompilesTo .standard .empty none prepared' compilation' ∧
        (∀ object ∈ compilation.scene.objects, object.origin = ⟨"a"⟩) ∧
        ∃ object ∈ compilation'.scene.objects, object.origin ≠ ⟨"a"⟩ := by
  obtain ⟨net, net', prepared, prepared', compilation, compilation', hnet, hnet', hprepare,
      hprepare', hrun, hrun', hseen⟩ := exists_runs_of_sorted sharedOrigin sharedOrigin.swap
    (fun _ prepared prepared' =>
      ((prepared.cast .empty none).objects.all fun object => object.origin = ⟨"a"⟩) &&
        (prepared'.cast .empty none).objects.any fun object => object.origin ≠ ⟨"a"⟩)
    (by decide +kernel) (by decide +kernel) (by decide +kernel)
  simp only [Bool.and_eq_true, List.any_eq_true, List.all_eq_true, decide_eq_true_iff] at hseen
  obtain ⟨hall, object, hobject, horigin⟩ := hseen
  exact ⟨prepared, prepared', compilation, compilation', ⟨net, hnet, hprepare, hrun⟩,
    ⟨net', hnet', hprepare', hrun'⟩,
    fun object hobject => hall object ((Prepared.mem_objects_iff hrun).mp hobject), object,
    (Prepared.mem_objects_iff hrun').mpr hobject, horigin⟩

/-- The circle `a` is all of the scene; nothing comes from the circle `b` or to the duplicate node
`d`. -/
def idleDuplicate : Graph where
  nodes :=
    [.circle "a", .small "d" "duplicate" [("count", .small 1)], .circle "b",
      .small "s" "scene"
        [("height", .small 10), ("width", .small 10)]]
  edges := [.plain "e1" "a" "s"]

/-- When `b` comes before `d`, there are too many objects for `d`. -/
theorem exists_limit_passed_by_order :
    ∃ (graph graph' : Graph) (limits : Limits), graph.nodes.Perm graph'.nodes ∧
      graph.edges = graph'.edges ∧
        (∃ prepared compilation,
          graph.CompilesTo limits .empty none prepared compilation) ∧
        ¬ ∃ prepared compilation,
          graph'.CompilesTo limits .empty none prepared compilation := by
  refine ⟨idleDuplicate, ⟨_, idleDuplicate.edges⟩, { Limits.standard with instances := 1 },
    (List.Perm.swap _ _ _).cons _, rfl, ?_, ?_⟩
  · rw [Graph.exists_compilesTo_iff _ _ _ (by decide +kernel)]
    decide +kernel
  · rw [Graph.exists_compilesTo_iff _ _ _ (by decide +kernel)]
    decide +kernel

end SceneFlow
