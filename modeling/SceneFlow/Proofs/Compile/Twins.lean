import Mathlib
import SceneFlow.Proofs.Compile.Joining
import SceneFlow.Proofs.Compile.Variants
import SceneFlow.Proofs.Motion.Rendering

/-!
# One network with two tables of overrides

Overrides change when tokens come, how long they are moved and what their motions lead to, but not
where they go. So two runs of a network without errors send the same tokens along the same links,
turn by turn: tokens of the same line, moved by the same tracks. Tokens of objects of which both
tables say the same are even equal, since the time of a token depends on no other object.

## Main definitions

* `Token.Twin`: a token of one run is a token of the other, up to times and motions.
* `Flow.Twins`: two runs have come as far.

## Main results

* `Node.forall₂_sends`: a node makes twins of twins.
* `Flow.Twins.turn`, `Network.twins_flow`: so does a turn, and a run.
* `Network.identity_of_outcome`: overrides do not change which objects and tracks there are.
-/

namespace SceneFlow

/-! ### Twins -/

namespace Token

/-- The track that a motion comes from, and its kind. -/
def track (m : TrackOrigin × Motion) : TrackOrigin × TrackKind :=
  (m.1, m.2.kind)

/-- Two tokens are the same up to times, style and what their motions lead from and to. They are
equal if their object is one of the same objects. -/
structure Twin (same : NodeId → Prop) (token other : Token) : Prop where
  /-- Both have the same drawable node and the same marks. -/
  frame : token.frame = other.frame
  /-- The same tracks have moved both. -/
  tracks : token.motions.map track = other.motions.map track
  /-- The token of one of the same objects is equal to its twin. -/
  eq : same token.name → token = other

variable {same : NodeId → Prop} {token other : Token}

theorem Twin.refl (token : Token) : Twin same token token :=
  ⟨rfl, rfl, fun _ => rfl⟩

theorem Twin.name_eq (h : Twin same token other) : token.name = other.name :=
  name_eq_of_frame h.frame

/-- Rendered tracks come from the slots that they are in. -/
theorem map_track_zipIdx (id : NodeId) (rendered : List (Track × Motion)) :
    (rendered.zipIdx.map fun ((_, motion), slot) =>
        ((⟨id, slot⟩, motion) : TrackOrigin × Motion)).map track =
      (rendered.map fun r => r.2.kind).zipIdx.map fun r => (⟨id, r.2⟩, r.1) := by
  rw [List.zipIdx_map, List.map_map, List.map_map]
  rfl

/-- Joined motions come from the same tracks if the motions that are joined do. -/
theorem map_track_joinMotions {motions motions' more more' : List (TrackOrigin × Motion)}
    (h : motions.map track = motions'.map track) (hmore : more.map track = more'.map track) :
    (joinMotions motions more).map track = (joinMotions motions' more').map track := by
  induction more generalizing motions motions' more' with
  | nil =>
    obtain rfl := List.map_eq_nil_iff.mp hmore.symm
    exact h
  | cons m rest ih =>
    obtain ⟨m', rest', rfl, hm, hrest⟩ := List.map_eq_cons_iff.mp hmore.symm
    have horigins : ∀ list : List (TrackOrigin × Motion),
        list.map Prod.fst = (list.map track).map Prod.fst := fun list => by
      rw [List.map_map]
      rfl
    have horigin : m'.1 = m.1 := (Prod.mk.inj hm).1
    rw [joinMotions_cons, joinMotions_cons, horigin, horigins motions, horigins motions', h]
    refine ih ?_ hrest.symm
    split
    · exact h
    · rw [List.map_append, List.map_append, h, List.map_singleton, List.map_singleton, hm]

/-- A token that absorbs another of its name is a twin of one that absorbs its twin. -/
theorem Twin.absorb {later later' : Token} (h : Twin same token other)
    (hlater : Twin same later later') (hname : token.name = later.name) :
    Twin same (token.absorb later) (other.absorb later') where
  frame := h.frame
  tracks := map_track_joinMotions h.tracks hlater.tracks
  eq hsame := by rw [h.eq hsame, hlater.eq (hname ▸ hsame)]

/-- Merge nodes keep twins of twins. -/
theorem forall₂_join {tokens tokens' : List Token}
    (h : List.Forall₂ (Twin same) tokens tokens') :
    List.Forall₂ (Twin same) (join tokens) (join tokens') := by
  have hjoin : ∀ token later : Token, (token.absorb later).name.text = token.name.text :=
    fun token later => congrArg NodeId.text (name_absorb token later)
  refine Roster.forall₂_gather hjoin (fun token other htwin => ?_)
    (fun token other later later' htwin hlater hname => ?_) h
  · exact congrArg NodeId.text (Twin.name_eq htwin)
  · exact Twin.absorb htwin hlater (NodeId.eq_iff_text.mpr hname)

/-- Of the same objects there are the same tokens among twins. -/
theorem filter_eq_of_forall₂_twin {tokens tokens' : List Token}
    (h : List.Forall₂ (Twin same) tokens tokens') {id : NodeId} (hid : same id) :
    tokens.filter (fun token => token.name = id) = tokens'.filter fun token => token.name = id := by
  induction h with
  | nil => rfl
  | @cons token token' _ _ htwin _ ih =>
    by_cases hname : token.name = id
    · rw [htwin.eq (hname ▸ hid), List.filter_cons, List.filter_cons, ih]
    · have hname' : token'.name ≠ id := htwin.name_eq ▸ hname
      rw [List.filter_cons_of_neg (by simpa using hname),
        List.filter_cons_of_neg (by simpa using hname'), ih]

end Token

open Token (Twin)

variable {same : NodeId → Prop} {resolver other : Resolver}

/-- Of the same objects two resolvers know the same, and with a copy the object that it is a copy
of is one of them. -/
structure Resolver.Share (same : NodeId → Prop) (resolver other : Resolver) : Prop where
  /-- The resolvers agree at the same objects. -/
  agreesAt : ∀ object, same object → AgreesAt (.object object) resolver other
  /-- What a copy of which is one of the same objects is one itself. -/
  of_marked : ∀ (object : NodeId) (mark : CopyMark), same (object.marked mark) → same object

/-! ### What a node makes of twins -/

namespace Node

variable {node : Node} {token token' : Token} {tokens tokens' : List Token}

/-- A node does not lose a token. -/
def Keeps (node : Node) (resolver : Resolver) (token : Token) : Prop :=
  ∀ data, node.kind = .animation data → (data.animate resolver node.id token).1.isSome

/-- A node that nothing stops loses no token. -/
theorem Unhindered.keeps {settings : FlowSettings} {created : ℕ}
    (h : node.Unhindered settings created tokens) (htoken : token ∈ tokens) :
    node.Keeps settings.resolver token := by
  intro data hkind
  rw [Unhindered, hkind] at h
  exact h token htoken

/-- An animation node makes twins of twins. -/
theorem twin_animate (h : Twin same token token')
    (hagree : same token.name → Resolver.AgreesAt (.object token.name) resolver other)
    {data : Animation} {id : NodeId} {result result' : Token}
    (hresult : (data.animate resolver id token).1 = some result)
    (hresult' : (data.animate other id token').1 = some result') : Twin same result result' := by
  obtain ⟨rendered, hrendered, hmoved⟩ := Animation.animate_fst_eq_some_iff.mp hresult
  obtain ⟨rendered', hrendered', hmoved'⟩ := Animation.animate_fst_eq_some_iff.mp hresult'
  have hname : result.name = token.name := by rw [hmoved]; rfl
  refine ⟨?_, ?_, fun hsame => ?_⟩
  · rw [hmoved, hmoved']
    exact h.frame
  · have hkinds := (Animation.map_kind_of_render hrendered).trans
      (Animation.map_kind_of_render hrendered').symm
    rw [hmoved, hmoved', List.map_append, List.map_append, h.tracks, Token.map_track_zipIdx,
      Token.map_track_zipIdx, hkinds]
  · rw [hname] at hsame
    obtain rfl := h.eq hsame
    rw [(hagree hsame).animate_eq, hresult'] at hresult
    exact (Option.some.inj hresult).symm

/-- A node makes twins of twins. -/
theorem forall₂_carry (hshare : Resolver.Share same resolver other) (h : Twin same token token')
    (hkeeps : node.Keeps resolver token) (hkeeps' : node.Keeps other token') :
    List.Forall₂ (Twin same) (node.carry resolver token) (node.carry other token') := by
  have hsingle : ∀ {t t' : Token}, Twin same t t' → List.Forall₂ (Twin same) [t] [t'] :=
    fun htwin => .cons htwin .nil
  rw [carry, carry]
  cases hkind : node.kind with
  | merge _ | terminal _ _ => exact hsingle h
  | filter data =>
    dsimp only
    rw [(Token.frame_eq_iff.mp h.frame).1]
    split
    · exact hsingle h
    · exact .nil
  | insert data =>
    dsimp only
    cases data.mode with
    | never => exact .nil
    | always => exact hsingle ⟨h.frame, h.tracks, fun hsame => by rw [h.eq hsame]⟩
  | animation data =>
    obtain ⟨result, hresult⟩ := Option.isSome_iff_exists.mp (hkeeps data hkind)
    obtain ⟨result', hresult'⟩ := Option.isSome_iff_exists.mp (hkeeps' data hkind)
    dsimp only
    rw [hresult, hresult']
    exact hsingle (twin_animate h (hshare.agreesAt token.name) hresult hresult')
  | textStyle data => exact hsingle ⟨h.frame, h.tracks, fun hsame => by rw [h.eq hsame]⟩
  | duplicate data =>
    refine .cons h (List.rel_map (R := Eq) (fun i _ hi => ?_) (List.forall₂_refl _))
    obtain ⟨horigin, hgeometry, hcopies, hoffset⟩ := Token.frame_eq_iff.mp h.frame
    subst hi
    refine ⟨Token.frame_eq_iff.mpr ⟨horigin, hgeometry, ?_, ?_⟩, h.tracks, fun hsame => ?_⟩
    · simp only [Token.copy, hcopies]
    · simp only [Token.copy, hoffset]
    · rw [Token.name_copy] at hsame
      rw [h.eq (hshare.of_marked _ _ hsame)]
  | geometry _ | unknown _ | constant _ | result _ | comparison _ | logic _ | math _ => exact .nil

/-- A node that nothing stops sends twins of twins on. -/
theorem forall₂_sends {settings settings' : FlowSettings} {created created' : ℕ}
    (hshare : Resolver.Share same settings.resolver settings'.resolver)
    (h : List.Forall₂ (Twin same) tokens tokens')
    (hfree : node.Unhindered settings created tokens)
    (hfree' : node.Unhindered settings' created' tokens') :
    List.Forall₂ (Twin same) (node.sends settings.resolver tokens)
      (node.sends settings'.resolver tokens') := by
  have hcarry : ∀ {l l' : List Token}, List.Forall₂ (Twin same) l l' →
      (∀ t ∈ l, node.Keeps settings.resolver t) → (∀ t ∈ l', node.Keeps settings'.resolver t) →
        List.Forall₂ (Twin same) (l.flatMap (node.carry settings.resolver))
          (l'.flatMap (node.carry settings'.resolver)) := by
    intro l l' htwins hkeeps hkeeps'
    induction htwins with
    | nil => exact .nil
    | cons htwin _ ih =>
      rw [List.forall_mem_cons] at hkeeps hkeeps'
      exact List.rel_append (forall₂_carry hshare htwin hkeeps.1 hkeeps'.1)
        (ih hkeeps.2 hkeeps'.2)
  rw [sends, sends]
  split
  · exact .nil
  · rw [work, work]
    split
    · exact .cons (.refl _) .nil
    · exact Token.forall₂_join h
    · exact hcarry h (fun _ => hfree.keeps) fun _ => hfree'.keeps

end Node

/-! ### Two runs -/

/-- A turn without an error hands on what the node makes of the tokens that have arrived. -/
theorem Network.turn_of_noError {net : Network} {settings : FlowSettings} {flow : Flow net.size}
    {v : Fin net.size} (h : Finding.NoError (net.turn settings flow v).findings) :
    (net.node v).Unhindered settings flow.created (flow.arrived v) ∧
      (net.turn settings flow v).sent = flow.sent ++ (net.objectsBehind v).map (fun target =>
        (target, (net.node v).sends settings.resolver (flow.arrived v))) ∧
      (net.turn settings flow v).delivered =
        flow.delivered ++ (net.node v).delivers (flow.arrived v) := by
  rw [turn] at h ⊢
  dsimp only at h ⊢
  split at h
  · simp [Finding.gravity] at h
  · rename_i hroom
    rw [if_neg hroom]
    have hpass := ((Finding.noError_append _ _).mp ((Finding.noError_append _ _).mp h).1).2
    have hfree := (Node.noError_pass_iff _ _ _ _).mp hpass
    obtain ⟨hout, hdelivered, -⟩ := Node.pass_eq hfree
    exact ⟨hfree, by rw [hout], by rw [hdelivered]⟩

/-- Two flows through one network have come as far, with twins for tokens. -/
structure Flow.Twins (same : NodeId → Prop) {n : ℕ} (flow flow' : Flow n) : Prop where
  /-- Twins have been handed to the same links. -/
  sent : List.Forall₂ (fun parcel parcel' => parcel.1 = parcel'.1 ∧
    List.Forall₂ (Twin same) parcel.2 parcel'.2) flow.sent flow'.sent
  /-- Twins have been delivered. -/
  delivered : List.Forall₂ (Twin same) flow.delivered flow'.delivered

namespace Flow.Twins

theorem start (same : NodeId → Prop) (n : ℕ) : Twins same (Flow.start n) (.start n) :=
  ⟨.nil, .nil⟩

/-- Twins arrive at every node. -/
theorem arrived {n : ℕ} {flow flow' : Flow n} (h : Twins same flow flow') (v : Fin n) :
    List.Forall₂ (Twin same) (flow.arrived v) (flow'.arrived v) := by
  have hsent := List.rel_filter (p := fun parcel => decide (parcel.1 = v))
    (q := fun parcel => decide (parcel.1 = v))
    (fun parcel parcel' hparcel => by dsimp only; rw [hparcel.1]) h.sent
  exact List.rel_flatMap hsent fun _ _ hparcel => hparcel.2

/-- A turn without an error makes twins of twins. -/
theorem turn {net : Network} {settings settings' : FlowSettings}
    (hshare : Resolver.Share same settings.resolver settings'.resolver) {v : Fin net.size}
    {flow flow' : Flow net.size} (h : Twins same flow flow')
    (hquiet : Finding.NoError (net.turn settings flow v).findings)
    (hquiet' : Finding.NoError (net.turn settings' flow' v).findings) :
    Twins same (net.turn settings flow v) (net.turn settings' flow' v) := by
  obtain ⟨hfree, hsent, hdelivered⟩ := Network.turn_of_noError hquiet
  obtain ⟨hfree', hsent', hdelivered'⟩ := Network.turn_of_noError hquiet'
  have harrived := h.arrived v
  refine ⟨?_, ?_⟩
  · rw [hsent, hsent']
    refine List.rel_append h.sent (List.rel_map (R := Eq) (fun target _ heq => ?_)
      (List.forall₂_refl _))
    exact ⟨heq, (net.node v).forall₂_sends hshare harrived hfree hfree'⟩
  · rw [hdelivered, hdelivered', Node.delivers, Node.delivers]
    refine List.rel_append h.delivered ?_
    split
    · exact harrived
    · exact .nil

end Flow.Twins

/-- Runs without errors are twins. -/
theorem Network.twins_flow {net : Network} {settings settings' : FlowSettings}
    (hshare : Resolver.Share same settings.resolver settings'.resolver)
    (hquiet : Finding.NoError (net.flow settings).findings)
    (hquiet' : Finding.NoError (net.flow settings').findings) :
    Flow.Twins same (net.flow settings) (net.flow settings') := by
  rw [flow] at hquiet hquiet' ⊢
  rw [flow]
  generalize net.objectOrder = turns at *
  induction turns using List.reverseRecOn with
  | nil => exact .start same net.size
  | append_singleton turns v ih =>
    rw [List.foldl_append, List.foldl_cons, List.foldl_nil] at hquiet hquiet' ⊢
    rw [List.foldl_append, List.foldl_cons, List.foldl_nil]
    exact (ih (noError_of_turn hquiet) (noError_of_turn hquiet')).turn hshare hquiet hquiet'

/-- Runs of one network with a scene deliver twins. -/
theorem Prepared.forall₂_delivered {prepared : Prepared} {overrides overrides' : Overrides}
    {key key' : Option String} {compilation compilation' : Compilation}
    (hshare : Resolver.Share same (prepared.resolver overrides key)
      (prepared.resolver overrides' key'))
    (h : prepared.run overrides key = .ok compilation)
    (h' : prepared.run overrides' key' = .ok compilation') :
    List.Forall₂ (Twin same) (prepared.flow overrides key).delivered
      (prepared.flow overrides' key').delivered :=
  have hquiet := ((noError_found_iff _ _ _).mp (of_run_eq_ok h).1).2.1
  have hquiet' := ((noError_found_iff _ _ _).mp (of_run_eq_ok h').1).2.1
  (Network.twins_flow hshare hquiet hquiet').delivered

/-! ### What overrides do not change -/

/-- What is the same in related items is the same in related lists. -/
private theorem map_eq_of_forall₂ {α β γ : Type} {related : α → β → Prop} {f : α → γ} {g : β → γ}
    (hf : ∀ a b, related a b → f a = g b) {list : List α} {list' : List β}
    (h : List.Forall₂ related list list') : list.map f = list'.map g := by
  rw [← List.forall₂_eq_eq_eq, List.forall₂_map_left_iff, List.forall₂_map_right_iff]
  exact h.imp hf

/-- What tells objects apart: the name, the drawable node and the family. -/
def SceneObject.identity (object : SceneObject) : NodeId × NodeId × ShapeKind :=
  (object.id, object.origin, object.kind)

/-- The objects of a scene are told by the tokens that are delivered. -/
theorem Prepared.map_identity_objects {prepared : Prepared} {overrides : Overrides}
    {key : Option String} {compilation : Compilation}
    (h : prepared.run overrides key = .ok compilation) :
    compilation.scene.objects.map SceneObject.identity =
      ((prepared.flow overrides key).delivered.map fun token =>
        (token.name, token.origin, token.geometry.shape)).mergeSort
          fun a b => a.1.text ≤ b.1.text := by
  obtain ⟨-, hcast, hscene⟩ := of_run_eq_ok h
  have hobjects : (prepared.cast overrides key).objects.map SceneObject.identity =
      (prepared.flow overrides key).delivered.map fun token =>
        (token.name, token.origin, token.geometry.shape) :=
    Cast.map_objects hcast fun token object hobject => by
      obtain ⟨hid, horigin, hkind, -⟩ := Token.id_of_object hobject
      rw [SceneObject.identity, hid, horigin, hkind]
  rw [hscene, Cast.scene, ← hobjects]
  exact List.map_mergeSort fun _ _ _ _ => rfl

/-- Two scenes have the same medium and the same canvas. -/
def Scene.SameCanvas (scene other : Scene) : Prop :=
  scene.output = other.output ∧ scene.width = other.width ∧ scene.height = other.height ∧
    scene.fps = other.fps ∧ scene.background = other.background ∧ scene.video = other.video

/-- Scenes with one canvas have the same, whatever is cast in them. -/
theorem Cast.sameCanvas_scene (cast other : Cast) (output : Output) (canvas : Canvas) :
    (cast.scene output canvas).1.SameCanvas (other.scene output canvas).1 :=
  ⟨rfl, rfl, rfl, rfl, rfl, rfl⟩

/-- Overrides do not change which objects and tracks there are. Two scenes that a network is
compiled to, whatever the overrides and the variant, list the same objects with the same drawable
nodes and families, have the same canvas, and give each object as many motions of each kind. -/
theorem Network.identity_of_outcome {net : Network} {limits : Limits}
    {overrides overrides' : Overrides} {key key' : Option String}
    {compilation compilation' : Compilation}
    (h : net.outcome overrides limits key = .ok compilation)
    (h' : net.outcome overrides' limits key' = .ok compilation') :
    let scene := compilation.scene
    let scene' := compilation'.scene
    scene.objects.map SceneObject.identity = scene'.objects.map SceneObject.identity ∧
      scene.SameCanvas scene' ∧
      ∀ id, ((scene.motionsOf id).map fun placed => placed.motion.kind).Perm
        ((scene'.motionsOf id).map fun placed => placed.motion.kind) := by
  dsimp only
  obtain ⟨prepared, hprepare, hrun⟩ := outcome_eq_ok_iff.mp h
  obtain ⟨prepared', hprepare', hrun'⟩ := outcome_eq_ok_iff.mp h'
  obtain rfl := Except.ok.inj (hprepare.symm.trans hprepare')
  -- The overrides need not agree at any object.
  have hshare : Resolver.Share (fun _ => False) (prepared.resolver overrides key)
      (prepared.resolver overrides' key') :=
    ⟨fun _ hfalse => hfalse.elim, fun _ _ hfalse => hfalse⟩
  have hdelivered := Prepared.forall₂_delivered hshare hrun hrun'
  obtain ⟨-, -, hscene⟩ := Prepared.of_run_eq_ok hrun
  obtain ⟨-, -, hscene'⟩ := Prepared.of_run_eq_ok hrun'
  refine ⟨?_, ?_, fun id => ?_⟩
  · rw [Prepared.map_identity_objects hrun, Prepared.map_identity_objects hrun']
    refine congrArg (List.mergeSort · _) (map_eq_of_forall₂ (fun token token' htwin => ?_)
      hdelivered)
    obtain ⟨horigin, hgeometry, -⟩ := Token.frame_eq_iff.mp htwin.frame
    rw [htwin.name_eq, horigin, hgeometry]
  · rw [hscene, hscene']
    exact Cast.sameCanvas_scene _ _ _ _
  · have hkinds : ∀ token token' : Token, Twin (fun _ => False) token token' →
        token.objectMotions.map (fun placed => placed.motion.kind) =
          token'.objectMotions.map fun placed => placed.motion.kind := by
      intro token token' htwin
      have htracks := congrArg (List.map Prod.snd) htwin.tracks
      simpa [Token.objectMotions, Token.track, Function.comp_def] using htracks
    have hnamed := List.rel_filter (p := fun token => decide (token.name = id))
      (q := fun token => decide (token.name = id))
      (fun token token' htwin => by dsimp only; rw [htwin.name_eq]) hdelivered
    rw [Prepared.motionsOf_eq hrun, Prepared.motionsOf_eq hrun']
    refine ((List.mergeSort_perm _ _).map _).trans (List.Perm.trans (List.Perm.of_eq ?_)
      ((List.mergeSort_perm _ _).map _).symm)
    rw [List.map_flatMap, List.map_flatMap, List.flatMap_def, List.flatMap_def,
      map_eq_of_forall₂ hkinds hnamed]

/-- With and without overrides the same objects fade in. -/
theorem identity_of_outcome_fadingPair :
    ∃ compilation compilation',
      fadingPair.outcome .empty .standard none = .ok compilation ∧
      fadingPair.outcome (slowVariant (.ofFloat 4)) .standard (some "slow") = .ok compilation' ∧
      compilation.scene.objects.map SceneObject.identity =
        compilation'.scene.objects.map SceneObject.identity ∧
      ∀ id, ((compilation.scene.motionsOf id).map fun placed => placed.motion.kind).Perm
        ((compilation'.scene.motionsOf id).map fun placed => placed.motion.kind) := by
  obtain ⟨compilation, h⟩ : ∃ compilation, fadingPair.outcome .empty .standard none =
      .ok compilation := Network.exists_outcome_eq_ok (by decide +kernel)
  obtain ⟨compilation', h'⟩ := exists_outcome_fadingPair
  obtain ⟨hobjects, -, hkinds⟩ := Network.identity_of_outcome h h'
  exact ⟨compilation, compilation', h, h', hobjects, hkinds⟩

end SceneFlow
