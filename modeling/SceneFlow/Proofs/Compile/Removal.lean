import Mathlib
import SceneFlow.Proofs.Compile.Meeting

/-!
# Graphs without one of their drawable nodes

When a drawable node is taken out of a graph, the other objects stay in the scene. Their times do
not change, as long as they share no name at a merge node with another object. Nor does anything
else change about an object whose tokens agree wherever they meet. Where they do not agree, the
first to arrive prevails, and a node that is taken out may change which is the first.

## Main definitions

* `Graph.without`: a graph without a node.

## Main results

* `Prepared.object_of_without`: what stays the same of the other objects.
-/

namespace SceneFlow

/-- A graph without a node and without the edges that leave it. -/
def Graph.without (graph : Graph) (x : NodeId) : Graph where
  nodes := graph.nodes.filter fun raw => raw.id ≠ x
  edges := graph.edges.filter fun edge => edge.source ≠ x

open Token (outline along)

/-! ### Lines -/

/-- The lines of the objects that do not come from a drawable node. -/
def linesBeside (x : NodeId) (line : NodeId × List CopyMark) : Bool :=
  line.1 ≠ x

/-- The lines of the objects that an object has been on its way. -/
def Token.stages (token : Token) (line : NodeId × List CopyMark) : Bool :=
  line.1 = token.origin ∧ line.2 <+: token.copies

theorem closed_linesBeside (x : NodeId) : Closed (linesBeside x) :=
  fun _ _ _ hkeeps => hkeeps

theorem Token.closed_stages (token : Token) : Closed token.stages := fun _ _ _ hkeeps => by
  obtain ⟨horigin, hinit⟩ := of_decide_eq_true hkeeps
  exact decide_eq_true ⟨horigin, (List.prefix_append _ _).trans hinit⟩

theorem linesBeside_iff {x : NodeId} {token : Token} :
    linesBeside x token.line = true ↔ token.origin ≠ x :=
  decide_eq_true_iff

theorem Token.stages_iff {token other : Token} :
    token.stages other.line = true ↔ other.Precedes token :=
  decide_eq_true_iff

namespace Network

variable {graph : Graph} {x : NodeId} {net part : Network}

/-- The network of a graph without a drawable node is part of the network of the graph. -/
theorem nonempty_part_without (hnet : ofGraph graph = .ok net)
    (hpart : ofGraph (graph.without x) = .ok part) (hid : Function.Injective net.id)
    (hid' : Function.Injective part.id)
    (hx : ∃ v, net.id v = x ∧ (net.node v).kind.isDrawable = true) : Nonempty (Part part net) := by
  obtain ⟨w, rfl, hdrawable⟩ := hx
  refine nonempty_part hnet hpart hid hid' (fun raw hraw => (List.mem_filter.mp hraw).1) ?_
    (fun edge => decide (edge.source ≠ net.id w)) (sortEdges_filter _ _) ?_
  · intro raw hraw hdropped node hnode
    have hraw_id : raw.id = net.id w := by
      by_contra hne
      exact hdropped (List.mem_filter.mpr ⟨hraw, decide_eq_true hne⟩)
    obtain ⟨v, hv⟩ := exists_node hnet hraw
    obtain rfl := Except.ok.inj (hv.symm.trans hnode)
    obtain rfl : v = w := hid ((Node.id_of_ofRaw hnode).trans hraw_id)
    exact hdrawable
  · intro edge _ hsource raw hraw
    have hne := of_decide_eq_true (List.mem_filter.mp hraw).2
    rwa [show edge.source = net.id w by simpa using hsource]

/-- Only the node itself is missing in the part. -/
theorem Part.id_of_outside (h : Part part net) (hnet : ofGraph graph = .ok net)
    (hpart : ofGraph (graph.without x) = .ok part) (hid : Function.Injective net.id)
    {u : Fin net.size} (hu : ∀ v, h.place v ≠ u) : net.id u = x := by
  obtain ⟨raw, hraw, hnode⟩ := exists_raw hnet u
  by_contra hne
  rw [Network.id, Node.id_of_ofRaw hnode] at hne
  obtain ⟨v, hv⟩ := exists_node hpart (List.mem_filter.mpr ⟨hraw, decide_eq_true hne⟩)
  refine hu v (hid ?_)
  rw [h.id_eq, Network.id, Network.id, Except.ok.inj (hv.symm.trans hnode)]

/-- The node itself is missing in the part. -/
theorem id_ne_of_without (hpart : ofGraph (graph.without x) = .ok part) (v : Fin part.size) :
    part.id v ≠ x := by
  obtain ⟨raw, hraw, hnode⟩ := exists_raw hpart v
  rw [Network.id, Node.id_of_ofRaw hnode]
  exact of_decide_eq_true (List.mem_filter.mp hraw).2

/-! ### The traffic of the other objects -/

theorem linesBeside_of_mem_arriving {limits : Limits} (hpart : Sound limits part)
    (hinside : ∀ v, part.id v ≠ x) {resolver : Resolver} {v : Fin part.size} {token : Token}
    (htoken : token ∈ part.arriving resolver v) : linesBeside x token.line = true := by
  obtain ⟨u, hu⟩ := exists_origin hpart htoken
  exact linesBeside_iff.mpr (hu ▸ hinside u)

namespace Part

variable {limits limits' : Limits} {resolver resolver' : Resolver} (h : Part part net)
  (hpart : Sound limits part) (hnet : Sound limits' net) (hresolver : resolver'.Alike resolver)
  (houtside : ∀ u, (∀ v, h.place v ≠ u) → net.id u = x) (hinside : ∀ v, part.id v ≠ x)
  (hmeet : ∀ v, (net.node v).kind.isMerge = true → ∀ t ∈ net.arriving resolver' v,
    ∀ t' ∈ net.arriving resolver' v, t.name = t'.name → t.origin ≠ x → t.line = t'.line)
include hpart hnet hresolver houtside hinside hmeet

/-- The tokens that do not come from the node have the same times without it. -/
theorem perm_arriving_others (v : Fin part.size) :
    ((along (linesBeside x) (net.arriving resolver' (h.place v))).map (outline false)).Perm
      ((along (linesBeside x) (part.arriving resolver v)).map (outline false)) := by
  refine h.perm_arriving_of_meet hpart hnet hresolver (closed_linesBeside x)
    (fun u hu => by simp [linesBeside, houtside u hu])
    (fun v t ht => linesBeside_of_mem_arriving hpart hinside ht)
    (fun v hmerge t ht hkeeps t' ht' hname => ⟨?_, by simp⟩) v
  exact hmeet _ (by rw [h.node_eq, hmerge]) t ht t' ht' hname.symm (linesBeside_iff.mp hkeeps)

/-- The tokens of an object that does not come from the node are the same without it, if they agree
with whatever they meet. -/
theorem perm_arriving_line {token : Token} (htoken : token.origin ≠ x)
    (hagree : ∀ v, (net.node v).kind.isMerge = true → ∀ t ∈ net.arriving resolver' v,
      ∀ t' ∈ net.arriving resolver' v, t.name = t'.name → t.Precedes token → t.Agrees t')
    (v : Fin part.size) :
    ((along token.stages (net.arriving resolver' (h.place v))).map (outline true)).Perm
      ((along token.stages (part.arriving resolver v)).map (outline true)) := by
  have hcompatible : ∀ v, (part.node v).kind.isMerge = true →
      Token.Compatible token.stages true (net.arriving resolver' (h.place v)) := fun v hmerge => by
    have hmerge' : (net.node (h.place v)).kind.isMerge = true := by rw [h.node_eq, hmerge]
    refine ⟨fun t ht => (proper_of_mem_arriving hnet ht).neat, fun t ht hkeeps t' ht' hname => ?_,
      fun _ t ht hkeeps t' ht' hname =>
        hagree _ hmerge' t ht t' ht' hname.symm (Token.stages_iff.mp hkeeps)⟩
    have horigin : t.origin ≠ x := (Token.stages_iff.mp hkeeps).1 ▸ htoken
    exact (proper_of_mem_arriving hnet ht).frame_eq (proper_of_mem_arriving hnet ht')
      (hmeet _ hmerge' t ht t' ht' hname.symm horigin)
  refine h.perm_arriving hpart hnet hresolver token.closed_stages (fun u hu => ?_) hcompatible
    (fun v hmerge hperm => (hcompatible v hmerge).of_perm
      (fun t ht => (proper_of_mem_arriving hpart ht).neat) (fun t ht _ t' ht' hname => ?_) hperm) v
  · exact decide_eq_false fun hkeeps => htoken (hkeeps.1.symm.trans (houtside u hu))
  · -- What meets in the part has met in the whole.
    refine (proper_of_mem_arriving hpart ht).frame_eq (proper_of_mem_arriving hpart ht') ?_
    refine h.line_eq_of_meet (fun t ht => linesBeside_of_mem_arriving hpart hinside ht)
      (fun t ht hkeeps t' ht' hname => ?_)
      (h.perm_arriving_others hpart hnet hresolver houtside hinside hmeet v) ht ht' hname
    exact hmeet _ (by rw [h.node_eq, hmerge]) t ht t' ht' hname.symm (linesBeside_iff.mp hkeeps)

end Part

end Network

namespace Prepared

variable {graph : Graph} {x : NodeId} {limits : Limits} {prepared prepared' : Prepared}

/-- Taking a drawable node out of a graph leaves the other objects where they are. If tokens that
meet under one name are of one line, unless they all come from the node taken out, every object
keeps its time of insertion; and an object whose tokens agree wherever they meet keeps everything,
motions included. -/
theorem object_of_without {net net' : Network} (hnet : Network.ofGraph graph = .ok net)
    (hnet' : Network.ofGraph (graph.without x) = .ok net')
    (hx : ∃ v, net.id v = x ∧ (net.node v).kind.isDrawable = true)
    (hprepare : net.prepare limits = .ok prepared)
    (hprepare' : net'.prepare limits = .ok prepared') (overrides : Overrides)
    (key : Option String) {compilation compilation' : Compilation}
    (hrun : prepared.run overrides key = .ok compilation)
    (hrun' : prepared'.run overrides key = .ok compilation')
    (hmeet : prepared.Meets overrides key fun t t' => t.origin ≠ x → t.line = t'.line)
    {object : SceneObject} (hobject : object ∈ compilation.scene.objects)
    (horigin : object.origin ≠ x) :
    ∃ object' ∈ compilation'.scene.objects,
      object'.id = object.id ∧ object'.origin = object.origin ∧ object'.kind = object.kind ∧
        object'.insertTime = object.insertTime ∧
        ((∀ token ∈ (prepared.flow overrides key).delivered, token.name = object.id →
            prepared.Meets overrides key fun t t' => t.Precedes token → t.Agrees t') →
          object' = object ∧
            (compilation'.scene.animations.filter fun placed => placed.object = object.id).Perm
              (compilation.scene.animations.filter fun placed => placed.object = object.id)) := by
  obtain rfl := Network.network_of_prepare hprepare
  obtain rfl := Network.network_of_prepare hprepare'
  obtain ⟨hsound, -⟩ := Network.sound_of_prepare hprepare
  obtain ⟨hsound', -⟩ := Network.sound_of_prepare hprepare'
  obtain ⟨h⟩ := Network.nonempty_part_without hnet hnet' hsound.id_injective
    hsound'.id_injective hx
  have hresolver := h.alike hprepare' hprepare overrides key
  have hquiet := ((noError_found_iff _ _ _).mp (of_run_eq_ok hrun).1).2.1
  have hquiet' := ((noError_found_iff _ _ _).mp (of_run_eq_ok hrun').1).2.1
  have houtside : ∀ u, (∀ v, h.place v ≠ u) → prepared.network.id u = x := fun u hu =>
    h.id_of_outside hnet hnet' hsound.id_injective hu
  have hinside := Network.id_ne_of_without hnet'
  rw [meets_iff hquiet] at hmeet
  obtain ⟨token, htoken, hresult⟩ := exists_token_of_mem_objects hrun hobject
  obtain ⟨hid, htokenOrigin, hkind, hinsert⟩ := Token.id_of_object hresult
  have hx' : token.origin ≠ x := htokenOrigin ▸ horigin
  -- The object is there without the node, at the same time.
  obtain ⟨token', htoken', hout⟩ := exists_delivered h hsound' hsound hquiet' hquiet
    (h.perm_arriving_others hsound' hsound hresolver houtside hinside hmeet) htoken
    (linesBeside_iff.mpr hx')
  obtain ⟨hframe, -, hinsert', -⟩ := Token.outline_eq_iff.mp hout
  obtain ⟨object', hobject', hresult'⟩ := exists_object_of_mem_delivered hrun' htoken'
  obtain ⟨hid', horigin', hkind', htime'⟩ := Token.id_of_object hresult'
  have hname := Token.name_eq_of_frame hframe
  obtain ⟨hsameOrigin, hgeometry, -, -⟩ := Token.frame_eq_iff.mp hframe
  refine ⟨object', hobject', by rw [hid', hname, hid], by rw [horigin', hsameOrigin, htokenOrigin],
    by rw [hkind', hgeometry, hkind], by rw [htime', hinsert', hinsert], fun hagree => ?_⟩
  -- Where its tokens agree, the object is the same.
  have hagree := (meets_iff hquiet _).mp (hagree token htoken hid.symm)
  obtain ⟨twin, htwin, hsame⟩ := exists_delivered h hsound' hsound hquiet' hquiet
    (h.perm_arriving_line hsound' hsound hresolver houtside hinside hmeet hx' hagree) htoken
    (Token.stages_iff.mpr ⟨rfl, List.prefix_rfl⟩)
  obtain rfl : twin = token' := by
    have hnames := ((noError_found_iff _ _ _).mp (of_run_eq_ok hrun').1).2.2.1
    refine List.inj_on_of_nodup_map hnames htwin htoken' ?_
    rw [hname, Token.name_eq_of_frame (Token.frame_eq_of_outline hsame)]
  refine ⟨?_, ?_⟩
  · rw [Token.object_eq_of_outline hsame, ← hresolver.object_eq, hresult] at hresult'
    exact (Except.ok.inj hresult').symm
  · have hmotions := animations_perm hrun' htoken'
    rw [hname, ← hid] at hmotions
    refine hmotions.trans ((Token.objectMotions_perm_of_outline hsame).trans ?_)
    rw [hid]
    exact (animations_perm hrun htoken).symm

end Prepared

/-- Without `x` the circle `c` is the same, though its tokens arrive in another order. -/
theorem object_of_without_insertRace :
    ∃ (net net' : Network) (compilation compilation' : Compilation),
      Network.ofGraph insertRace = .ok net ∧
        Network.ofGraph (insertRace.without ⟨"x"⟩) = .ok net' ∧
        net.compile .empty .standard = .ok compilation ∧
        net'.compile .empty .standard = .ok compilation' ∧
        ∃ object ∈ compilation.scene.objects, object.origin = ⟨"c"⟩ ∧
          object ∈ compilation'.scene.objects := by
  obtain ⟨net, net', prepared, prepared', compilation, compilation', hnet, hnet', hprepare,
      hprepare', hrun, hrun', hseen⟩ := exists_runs_of_sorted insertRace
    (insertRace.without ⟨"x"⟩)
    (fun net prepared _ =>
      (net.places.any fun v => net.id v = ⟨"x"⟩ && (net.node v).kind.isDrawable) &&
        ((prepared.cast .empty none).objects.any fun object => object.origin = ⟨"c"⟩) &&
        prepared.network.places.all fun v =>
          ((prepared.flow .empty none).arrived v).all fun t =>
            t.style.isEmpty && t.motions.isEmpty &&
              ((prepared.flow .empty none).arrived v).all fun t' =>
                decide (t.name = t'.name → t.line = t'.line))
    (by decide +kernel) (by decide +kernel) (by decide +kernel)
  simp only [Bool.and_eq_true, List.any_eq_true, List.all_eq_true, decide_eq_true_iff,
    List.isEmpty_iff] at hseen
  obtain ⟨⟨⟨v, -, hv⟩, object, hobject, horigin⟩, harrived⟩ := hseen
  have hmem := (Prepared.mem_objects_iff hrun).mpr hobject
  obtain ⟨object', hobject', -, -, -, -, hsame⟩ := Prepared.object_of_without hnet hnet' ⟨v, hv⟩
    hprepare hprepare' .empty none hrun hrun'
    (fun u _ t ht t' ht' hname _ => (harrived u (Network.mem_places u) t ht).2 t' ht' hname) hmem
    (by rw [horigin]; decide)
  -- The tokens that meet have neither style nor motions.
  have hobjects := (hsame fun _ _ _ u _ t ht t' _ _ _ => by
    obtain ⟨⟨hstyle, hmotions⟩, -⟩ := harrived u (Network.mem_places u) t ht
    exact Token.agrees_of_eq_nil hstyle hmotions t').1
  exact ⟨net, net', compilation, compilation', hnet, hnet',
    by rw [Network.compile, hprepare]; exact hrun, by rw [Network.compile, hprepare']; exact hrun',
    object, hmem, horigin, hobjects ▸ hobject'⟩

/-! ### What a drawable node changes of other objects -/

/-- Without `x` the other style of `c` prevails. -/
theorem exists_object_changed_without :
    ¬ ∀ (graph : Graph) (x : NodeId) (overrides : Overrides) (limits : Limits) (net net' : Network)
        (compilation compilation' : Compilation), Network.ofGraph graph = .ok net →
      (∃ v, net.id v = x ∧ (net.node v).kind.isDrawable = true) →
      Network.ofGraph (graph.without x) = .ok net' →
      net.compile overrides limits = .ok compilation →
      net'.compile overrides limits = .ok compilation' →
        ∀ object ∈ compilation.scene.objects, object.origin ≠ x →
          object ∈ compilation'.scene.objects := by
  intro hclaim
  obtain ⟨net, net', prepared, prepared', compilation, compilation', hnet, hnet', hprepare,
      hprepare', hrun, hrun', hseen⟩ := exists_runs_of_sorted styleRace (styleRace.without ⟨"x"⟩)
    (fun net prepared prepared' =>
      (net.places.any fun v => net.id v = ⟨"x"⟩ && (net.node v).kind.isDrawable) &&
        ((prepared.cast .empty none).objects.any fun object =>
          object.origin ≠ ⟨"x"⟩ && object.hasStyle 2) &&
        (prepared'.cast .empty none).objects.all fun object => !object.hasStyle 2)
    (by decide +kernel) (by decide +kernel) (by decide +kernel)
  simp only [Bool.and_eq_true, List.any_eq_true, List.all_eq_true, decide_eq_true_iff,
    Bool.not_eq_true'] at hseen
  obtain ⟨⟨⟨v, -, hv⟩, object, hobject, horigin, hstyle⟩, hnone⟩ := hseen
  have hmem := hclaim styleRace ⟨"x"⟩ .empty .standard net net' compilation compilation' hnet
    ⟨v, hv⟩ hnet' (by rw [Network.compile, hprepare]; exact hrun)
    (by rw [Network.compile, hprepare']; exact hrun') object
    ((Prepared.mem_objects_iff hrun).mpr hobject) horigin
  have hother := hnone object ((Prepared.mem_objects_iff hrun').mp hmem)
  rw [hstyle] at hother
  cases hother

/-- The circle `x#d.1` bears the name of the copy of `x` that `d` makes, and joins it in `m`. -/
def sharedTime : Graph where
  nodes :=
    [.circle "x", .circle "x#d.1", .small "d" "duplicate" [("count", .small 1)],
      .small "i" "insert" [("delay", .small 5)], .small "j" "insert" [],
      .small "m" "merge" [("input_count", .small 2)],
      .small "s" "scene"
        [("height", .small 10), ("width", .small 10)]]
  edges :=
    [.plain "e1" "x" "d", .plain "e2" "d" "j", .plain "e3" "x#d.1" "i",
      .input "e4" "i" "m" "input-0", .input "e5" "j" "m" "input-1", .plain "e6" "m" "s"]

/-- Without `x` the circle `x#d.1` is placed later. -/
theorem exists_object_moved_without :
    ∃ (net net' : Network) (compilation compilation' : Compilation),
      Network.ofGraph sharedTime = .ok net ∧
        Network.ofGraph (sharedTime.without ⟨"x"⟩) = .ok net' ∧
        net.compile .empty .standard = .ok compilation ∧
        net'.compile .empty .standard = .ok compilation' ∧
        ∃ object ∈ compilation.scene.objects, object.origin ≠ ⟨"x"⟩ ∧
          ∀ object' ∈ compilation'.scene.objects, object'.insertTime ≠ object.insertTime := by
  obtain ⟨net, net', prepared, prepared', compilation, compilation', hnet, hnet', hprepare,
      hprepare', hrun, hrun', hseen⟩ := exists_runs_of_sorted sharedTime
    (sharedTime.without ⟨"x"⟩)
    (fun net prepared prepared' =>
      ((prepared.cast .empty none).objects.any fun object =>
          object.origin ≠ ⟨"x"⟩ && object.insertTime = some 0) &&
        (prepared'.cast .empty none).objects.all fun object => !object.insertTime = some 0)
    (by decide +kernel) (by decide +kernel) (by decide +kernel)
  simp only [Bool.and_eq_true, List.any_eq_true, List.all_eq_true, decide_eq_true_iff,
    Bool.not_eq_true', decide_eq_false_iff_not] at hseen
  obtain ⟨⟨object, hobject, horigin, htime⟩, hnone⟩ := hseen
  refine ⟨net, net', compilation, compilation', hnet, hnet',
    by rw [Network.compile, hprepare]; exact hrun, by rw [Network.compile, hprepare']; exact hrun',
    object, (Prepared.mem_objects_iff hrun).mpr hobject, horigin, fun object' hobject' => ?_⟩
  rw [htime]
  exact hnone object' ((Prepared.mem_objects_iff hrun').mp hobject')

end SceneFlow
