import Mathlib
import SceneFlow.Proofs.Compile.KeptMotions
import SceneFlow.Proofs.Compile.Variants

/-!
# Whose overrides a track obeys

The settings of a track are resolved for the object whose token passes the animation node, and a
motion that has been rendered is not looked at again. A duplicate node hands the motions of a token
on to its copies. So the motions of an object obey the overrides of the object, except those that a
copy has from the object that it is a copy of: these obey the overrides of the latter.

## Main definitions

* `Node.Renders`: a motion is that of a track of a node, resolved for an object.
* `Network.EmittedFor`: a motion of an object was emitted for a token that came to an animation
  node, and the object is that of the token or a copy made behind the node.

## Main results

* `Network.emitted_invariant`: all motions of tokens have been emitted in this way.
* `Prepared.exists_emittedFor`: so have those of a scene.
-/

namespace SceneFlow

/-! ### What joined tokens have -/

/-- A merge node takes the motions that it keeps under a name from tokens of this name. -/
theorem Token.exists_motions_of_mem_join {tokens : List Token} {result : Token}
    (h : result ∈ join tokens) {m : TrackOrigin × Motion} (hm : m ∈ result.motions) :
    ∃ token ∈ tokens, token.name = result.name ∧ m ∈ token.motions := by
  have hgroup : ∀ token ∈ tokens.filter fun token => token.name = result.name,
      ∀ m ∈ token.motions, ∃ token ∈ tokens, token.name = result.name ∧ m ∈ token.motions := by
    intro token htoken m hm
    obtain ⟨htoken, hname⟩ := List.mem_filter.mp htoken
    exact ⟨token, htoken, of_decide_eq_true hname, hm⟩
  exact Roster.of_fuse_eq_some (fun a b ha hb m hm => (mem_joinMotions hm).elim (ha m) (hb m))
    hgroup ((mem_join_iff tokens result).mp h) m hm

/-! ### Where motions are emitted -/

/-- A motion is that of a track of an animation node, with the settings that the track has for an
object, placed in time from a baseline on. -/
def Node.Renders (node : Node) (resolver : Resolver) (object : NodeId) (baseline : Float)
    (m : TrackOrigin × Motion) : Prop :=
  m.1.node = node.id ∧ ∃ data track resolved, node.kind = .animation data ∧
    data.tracks[m.1.slot]? = some track ∧
      (Animation.resolveTrack resolver object track).1 = .ok resolved ∧
        resolved.motion baseline = .ok m.2

/-- An animation node renders the motions that it adds. -/
theorem Node.renders_of_animate {node : Node} {resolver : Resolver} {data : Animation}
    (hkind : node.kind = .animation data) {token result : Token}
    (h : (data.animate resolver node.id token).1 = some result) {m : TrackOrigin × Motion}
    (hm : m ∈ result.motions) :
    m ∈ token.motions ∨ node.Renders resolver token.name token.cursor m := by
  obtain ⟨rendered, hrendered, rfl⟩ := Animation.animate_fst_eq_some_iff.mp h
  refine (List.mem_append.mp hm).imp_right fun hm => ?_
  obtain ⟨⟨⟨resolved, motion⟩, slot⟩, hslot, rfl⟩ := List.mem_map.mp hm
  obtain ⟨hlt, hget⟩ := List.getElem?_eq_some_iff.mp (List.mem_zipIdx_iff_getElem?.mp hslot)
  have htracks := Animation.render_fst_eq_ok_iff.mp hrendered
  have hlt' : slot < data.tracks.length := htracks.length_eq ▸ hlt
  obtain ⟨hresolved, hmotion⟩ := htracks.get hlt' hlt
  simp only [List.get_eq_getElem, hget] at hresolved hmotion
  exact ⟨rfl, data, data.tracks[slot], resolved, hkind, List.getElem?_eq_getElem hlt', hresolved,
    hmotion⟩

namespace Network

/-- A motion of an object was emitted at a node for a token that came to it. The object is that of
the token, or a copy of it that duplicate nodes behind the node have made. -/
structure EmittedFor (net : Network) (settings : FlowSettings) (u : Fin net.size) (first : Token)
    (object : NodeId) (m : TrackOrigin × Motion) : Prop where
  /-- The token came to the node. -/
  arrived : first ∈ (net.flow settings).arrived u
  /-- The motion was rendered for the token, at its time. -/
  renders : (net.node u).Renders settings.resolver first.name first.cursor m
  /-- Duplicate nodes behind the node have left the marks that the object has besides. -/
  marks : ∃ marks : List CopyMark, object = marks.foldl NodeId.marked first.name ∧
    ∀ mark ∈ marks, ∃ d data, Relation.TransGen (Digraph.Arc net.objectsBehind) u d ∧
      net.id d = mark.node ∧ (net.node d).kind = .duplicate data

variable {net : Network} {settings : FlowSettings} {u v : Fin net.size} {first : Token}
  {object : NodeId} {m : TrackOrigin × Motion}

/-- A copy that a duplicate node behind the node makes has the motion, too. -/
theorem EmittedFor.marked (h : net.EmittedFor settings u first object m)
    (huv : Relation.TransGen (Digraph.Arc net.objectsBehind) u v) {data : Duplication}
    (hkind : (net.node v).kind = .duplicate data) (number : ℕ) :
    net.EmittedFor settings u first (object.marked ⟨net.id v, number⟩) m where
  arrived := h.arrived
  renders := h.renders
  marks := by
    obtain ⟨marks, rfl, hmarks⟩ := h.marks
    refine ⟨marks ++ [⟨net.id v, number⟩], by rw [List.foldl_append]; rfl, ?_⟩
    exact List.forall_mem_append.mpr
      ⟨hmarks, List.forall_mem_singleton.mpr ⟨v, data, huv, rfl, hkind⟩⟩

/-- The object is that of the token if no duplicate node lies behind the node. -/
theorem EmittedFor.name_eq (h : net.EmittedFor settings u first object m)
    (hnone : ∀ d data, Relation.TransGen (Digraph.Arc net.objectsBehind) u d →
      (net.node d).kind ≠ .duplicate data) : first.name = object := by
  obtain ⟨marks, rfl, hmarks⟩ := h.marks
  cases marks with
  | nil => rfl
  | cons mark rest =>
    obtain ⟨d, data, hd, -, hkind⟩ := hmarks mark List.mem_cons_self
    exact absurd hkind (hnone d data hd)

/-- The motions of a token have been emitted at nodes that it has passed. -/
def Emitted (net : Network) (settings : FlowSettings) (passed : Fin net.size → Prop)
    (token : Token) : Prop :=
  ∀ m ∈ token.motions, ∃ u first, passed u ∧ net.EmittedFor settings u first token.name m

theorem Emitted.mono {passed more : Fin net.size → Prop} {token : Token}
    (h : net.Emitted settings passed token) (hsub : ∀ u, passed u → more u) :
    net.Emitted settings more token := fun m hm => by
  obtain ⟨u, first, hu, hemitted⟩ := h m hm
  exact ⟨u, first, hsub u hu, hemitted⟩

/-- Whatever becomes of a token at a node, its motions have been emitted. -/
theorem Emitted.carry {token : Token} (harrived : token ∈ (net.flow settings).arrived v)
    (h : net.Emitted settings (Relation.TransGen (Digraph.Arc net.objectsBehind) · v) token)
    {result : Token} (hresult : result ∈ (net.node v).carry settings.resolver token) :
    net.Emitted settings (Relation.ReflTransGen (Digraph.Arc net.objectsBehind) · v) result := by
  have hstays := h.mono fun u hu => hu.to_reflTransGen
  cases Node.carries_of_mem_carry hresult with
  | pass | insert | restyle => exact hstays
  | copy data hkind number =>
    intro m hm
    obtain ⟨u, first, hu, hemitted⟩ := h m hm
    rw [Token.name_copy]
    exact ⟨u, first, hu.to_reflTransGen, hemitted.marked hu hkind number⟩
  | animate data hkind hanimate =>
    have hname : result.name = token.name := by
      obtain ⟨rendered, -, rfl⟩ := Animation.animate_fst_eq_some_iff.mp hanimate
      rfl
    intro m hm
    rw [hname]
    rcases Node.renders_of_animate hkind hanimate hm with hm | hrenders
    · exact hstays m hm
    · exact ⟨v, token, .refl, harrived, hrenders, [], rfl, fun _ hmark =>
        absurd hmark List.not_mem_nil⟩

/-- The motions of all tokens have been emitted. -/
theorem emitted_invariant (net : Network) (settings : FlowSettings) :
    net.Invariant settings
      (fun v => net.Emitted settings (Relation.TransGen (Digraph.Arc net.objectsBehind) · v))
      fun v => net.Emitted settings
        (Relation.ReflTransGen (Digraph.Arc net.objectsBehind) · v) where
  seed _ _ _ _ hm := absurd hm List.not_mem_nil
  join v _ harrived r hr m hm := by
    obtain ⟨t, ht, hname, hmem⟩ := Token.exists_motions_of_mem_join hr hm
    obtain ⟨u, first, hu, hemitted⟩ := harrived t ht m hmem
    exact ⟨u, first, hu.to_reflTransGen, hname ▸ hemitted⟩
  carry _ _ _ ht h _ hr := h.carry ht hr
  move _ _ hv _ h := h.mono fun _ hw => .tail' hw hv

end Network

namespace Prepared

variable {prepared : Prepared} {overrides : Overrides} {key : Option String}
  {compilation : Compilation}

/-- The motions of a scene have been emitted for tokens. -/
theorem exists_emitted_of_mem_animations (hrun : prepared.run overrides key = .ok compilation)
    {placed : ObjectMotion} (hplaced : placed ∈ compilation.scene.animations) :
    ∃ u first m, prepared.network.EmittedFor (prepared.flowSettings overrides key) u first
      placed.object m ∧ m.2 = placed.motion := by
  obtain ⟨token, htoken, m, hm, rfl⟩ := (mem_animations_iff hrun placed).mp hplaced
  obtain ⟨v, -, hemitted⟩ := (prepared.network.emitted_invariant
    (prepared.flowSettings overrides key)).of_mem_delivered htoken
  obtain ⟨u, first, -, hfirst⟩ := hemitted m hm
  exact ⟨u, first, m, hfirst, rfl⟩

/-- Every track obeys the overrides of the object that passed its animation node. The motions of a
scene are those of the delivered tokens, each with the track that it comes from. Each of them was
rendered for a token that came to the animation node of its track: with the settings that the track
has for the object of this token, and from the time of the token on. This object is the one that
the motion belongs to in the scene, or the latter is a copy of it that duplicate nodes behind the
animation node have made. So where no duplicate node lies behind an animation node, the motions
that come from it obey the overrides of the objects that they belong to. -/
theorem exists_emittedFor (hrun : prepared.run overrides key = .ok compilation) :
    (∀ placed, placed ∈ compilation.scene.animations ↔
      ∃ token ∈ (prepared.flow overrides key).delivered, ∃ m ∈ token.motions,
        placed = ⟨token.name, m.2⟩) ∧
    ∀ token ∈ (prepared.flow overrides key).delivered, ∀ m ∈ token.motions, ∃ u first,
      prepared.network.EmittedFor (prepared.flowSettings overrides key) u first token.name m ∧
        ((∀ d data, Relation.TransGen (Digraph.Arc prepared.network.objectsBehind) u d →
          (prepared.network.node d).kind ≠ .duplicate data) →
            (prepared.network.node u).Renders (prepared.resolver overrides key) token.name
              first.cursor m) := by
  refine ⟨mem_animations_iff hrun, fun token htoken m hm => ?_⟩
  obtain ⟨v, -, hemitted⟩ := (prepared.network.emitted_invariant
    (prepared.flowSettings overrides key)).of_mem_delivered htoken
  obtain ⟨u, first, -, hfirst⟩ := hemitted m hm
  exact ⟨u, first, hfirst, fun hnone => hfirst.name_eq hnone ▸ hfirst.renders⟩

end Prepared

/-! ### A copy that is moved like its original -/

/-- The circle `c` is placed at `i`, fades in at `f` and is copied at `d`. -/
def fadeThenCopy : Network :=
  .ofLinks
    #[⟨⟨"c"⟩, "", .geometry .plainCircle⟩, ⟨⟨"i"⟩, "", .insert ⟨.always, 0⟩⟩,
      ⟨⟨"f"⟩, "", .animation ⟨[.fadeIn], none⟩⟩, ⟨⟨"d"⟩, "", .duplicate ⟨1, .zero⟩⟩,
      ⟨⟨"s"⟩, "", .terminal .video .small⟩]
    [⟨⟨⟨"e1"⟩, ⟨"c"⟩, ⟨""⟩, ⟨"i"⟩, ⟨""⟩⟩, 0, 1⟩, ⟨⟨⟨"e2"⟩, ⟨"i"⟩, ⟨""⟩, ⟨"f"⟩, ⟨""⟩⟩, 1, 2⟩,
      ⟨⟨⟨"e3"⟩, ⟨"f"⟩, ⟨""⟩, ⟨"d"⟩, ⟨""⟩⟩, 2, 3⟩, ⟨⟨⟨"e4"⟩, ⟨"d"⟩, ⟨""⟩, ⟨"s"⟩, ⟨""⟩⟩, 3, 4⟩]
    [] ⟨0, 0⟩

/-- Fading takes two seconds for `c`. -/
def slowOriginal : Overrides :=
  { Overrides.empty with
    manual := .ofList [("c", .ofList [("Timeline.fade.duration", .ofFloat 2)])] }

/-- The copy fades in for two seconds, though for itself the track takes one. -/
theorem exists_copy_fadeThenCopy :
    ∃ prepared compilation token m, fadeThenCopy.prepare .standard = .ok prepared ∧
      prepared.run slowOriginal none = .ok compilation ∧
      token ∈ (prepared.flow slowOriginal none).delivered ∧ token.name = ⟨"c#d.1"⟩ ∧
      m ∈ token.motions ∧ m.2.duration = 2 ∧
      ∀ v data track resolved, (prepared.network.node v).kind = .animation data →
        track ∈ data.tracks → (Animation.resolveTrack (prepared.resolver slowOriginal none)
          token.name track).1 = .ok resolved → resolved.duration = 1 := by
  have hcheck : (match fadeThenCopy.prepare .standard with
      | .ok prepared => prepared.succeeds slowOriginal none &&
          (prepared.flow slowOriginal none).delivered.any fun token =>
            decide (token.name = ⟨"c#d.1"⟩) &&
              (token.motions.any fun m => decide (m.2.duration = 2)) &&
              prepared.network.places.all fun v =>
                match (prepared.network.node v).kind with
                | .animation data => data.tracks.all fun track =>
                  match (Animation.resolveTrack (prepared.resolver slowOriginal none)
                    token.name track).1 with
                  | .ok resolved => decide (resolved.duration = 1)
                  | .error _ => true
                | _ => true
      | .error _ => false) = true := by
    decide +kernel
  match hprepare : fadeThenCopy.prepare .standard with
  | .error _ => simp [hprepare] at hcheck
  | .ok prepared =>
    simp only [hprepare, Bool.and_eq_true, List.any_eq_true, List.all_eq_true,
      decide_eq_true_iff] at hcheck
    obtain ⟨hsucceeds, token, htoken, ⟨hname, m, hm, hlong⟩, hshort⟩ := hcheck
    obtain ⟨compilation, hrun⟩ := (prepared.succeeds_iff slowOriginal none).mp hsucceeds
    refine ⟨prepared, compilation, token, m, rfl, hrun, htoken, hname, hm, hlong, ?_⟩
    intro v data track resolved hkind htrack hresolved
    have hv := hshort v (Network.mem_places v)
    rw [hkind] at hv
    have hduration := List.all_eq_true.mp hv track htrack
    rw [hresolved] at hduration
    exact of_decide_eq_true hduration

/-- The motion of the copy was emitted for a token that came to the animation node. -/
theorem exists_emittedFor_fadeThenCopy :
    ∃ prepared compilation token m, fadeThenCopy.prepare .standard = .ok prepared ∧
      prepared.run slowOriginal none = .ok compilation ∧
      token ∈ (prepared.flow slowOriginal none).delivered ∧ token.name = ⟨"c#d.1"⟩ ∧
      m ∈ token.motions ∧ m.2.duration = 2 ∧ ∃ u first,
        prepared.network.EmittedFor (prepared.flowSettings slowOriginal none) u first
          token.name m := by
  obtain ⟨prepared, compilation, token, m, hprepare, hrun, htoken, hname, hm, hlong, -⟩ :=
    exists_copy_fadeThenCopy
  obtain ⟨u, first, hemitted, -⟩ := (Prepared.exists_emittedFor hrun).2 token htoken m hm
  exact ⟨prepared, compilation, token, m, hprepare, hrun, htoken, hname, hm, hlong, u, first,
    hemitted⟩

/-- The motion of a copy need not be what its track is for the copy. -/
theorem exists_motion_not_renders :
    ¬ ∀ (net : Network) (limits : Limits) (prepared : Prepared) (overrides : Overrides)
        (key : Option String) (compilation : Compilation), net.prepare limits = .ok prepared →
      prepared.run overrides key = .ok compilation →
        ∀ token ∈ (prepared.flow overrides key).delivered, ∀ m ∈ token.motions, ∃ u baseline,
          (prepared.network.node u).Renders (prepared.resolver overrides key) token.name
            baseline m := by
  intro hclaim
  obtain ⟨prepared, compilation, token, m, hprepare, hrun, htoken, -, hm, hlong, hshort⟩ :=
    exists_copy_fadeThenCopy
  obtain ⟨u, baseline, -, data, track, resolved, hkind, htrack, hresolved, hmotion⟩ :=
    hclaim fadeThenCopy .standard prepared slowOriginal none compilation hprepare hrun token htoken
      m hm
  have hduration := hshort u data track resolved hkind (List.mem_of_getElem? htrack) hresolved
  rw [← (Track.of_motion_eq_ok hmotion).2, hlong] at hduration
  exact absurd hduration (by decide)

end SceneFlow
