import Mathlib
import SceneFlow.Proofs.Compile.Invariant
import SceneFlow.Proofs.Compile.Meeting
import SceneFlow.Proofs.Graph.Ordered
import SceneFlow.Proofs.Motion.Rendering
import SceneFlow.Proofs.Override.Plain

/-!
# Scenes without overrides

Without overrides every field has the value that its node holds. Still the views of objects and
tracks are taken apart into leaves and put together again, and this keeps them as they are only if
none of their names holds a dot. Then an object has the properties and the transform of its drawable
node, and every track is rendered as it is configured.

## Main definitions

* `Token.properties`: what a drawable node and styles have for an object.
* `Track.extras`: what a track has besides its settings.
* `Token.Ordered`: the keys of all properties and of the style of a token ascend.

## Main results

* `Token.of_object_eq_ok`: the object that a token becomes without overrides.
* `Track.motion_of_withView_view`: a track that comes back has the same motions.
* `Prepared.unchanged_of_overrides_empty`: what is in a scene without overrides.
-/

namespace SceneFlow

/-! ### Reading back what has been written -/

/-- A number that has been written is read again, if it is finite. -/
theorem Json.toFloat?_ofFloat (x : Float) :
    (ofFloat x).toFloat? = if x.isFinite then some x else none := by
  rw [ofFloat]
  split <;> rfl

namespace Field

variable {view : Entries Json} {name label : String}

theorem eq_of_number {look : Look} {x y default : Float}
    (hlook : look view name = some (.ofFloat x))
    (h : number look view name label default = .ok y) : y = x := by
  rw [number, hlook] at h
  dsimp only at h
  rw [Json.toFloat?_ofFloat] at h
  by_cases hfinite : x.isFinite
  · rw [if_pos hfinite] at h
    dsimp only at h
    rw [if_pos hfinite] at h
    exact (Except.ok.inj h).symm
  · rw [if_neg hfinite] at h
    cases h

theorem eq_of_anyNumber {x y default : Float} (hget : view.get? name = some (.ofFloat x))
    (h : anyNumber view name default = .ok y) : y = x := by
  rw [anyNumber, hget] at h
  dsimp only at h
  rw [Json.toFloat?_ofFloat] at h
  by_cases hfinite : x.isFinite
  · rw [if_pos hfinite] at h
    exact (Except.ok.inj h).symm
  · rw [if_neg hfinite] at h
    cases h

theorem eq_of_vector {a b default : Vec2} (hget : view.get? name = some a.toJson)
    (h : vector Entries.get? view name default = .ok b) : b = a := by
  rw [vector, hget] at h
  obtain ⟨x, hx, h⟩ := bind_eq_ok_iff.mp h
  obtain ⟨y, hy, h⟩ := bind_eq_ok_iff.mp h
  rw [← Except.ok.inj h, eq_of_number rfl hx, eq_of_number rfl hy]

end Field

theorem Json.ordered_ofFloat (x : Float) : (ofFloat x).Ordered := by
  rw [ofFloat]
  split
  · exact .num _
  · exact .null

theorem Vec2.ordered_toJson (a : Vec2) : a.toJson.Ordered := by
  have hlt : "x" < "y" := by decide
  refine .obj (List.pairwise_pair.mpr hlt) fun e he => ?_
  rcases List.mem_cons.mp he with rfl | he
  · exact Json.ordered_ofFloat _
  · rw [List.mem_singleton.mp he]
    exact Json.ordered_ofFloat _

theorem Json.fields_ofFloat (x : Float) : (ofFloat x).fields = [] := by
  rw [ofFloat]
  split <;> rfl

theorem Vec2.plain_toJson (a : Vec2) : Plain a.toJson.fields := by
  have hmem : ∀ e ∈ [("x", Json.ofFloat a.x), ("y", Json.ofFloat a.y)],
      '.' ∉ e.1.toList ∧ Plain e.2.fields := by
    simp [Json.fields_ofFloat, plain_nil]
  exact plain_of_forall_mem hmem

/-! ### Objects -/

namespace Transform

variable {view : Entries Json} {a b : Transform}

/-- The fields of a transform in a view. -/
def entries (a : Transform) : Entries Json :=
  [("position", a.position.toJson), ("rotation", .ofFloat a.rotation), ("scale", a.scale.toJson),
    ("opacity", .ofFloat a.opacity)]

theorem nodup_keys_entries : a.entries.keys.Nodup :=
  (by decide : fieldNames.Nodup)

theorem ordered_entries : ∀ e ∈ a.entries, e.2.Ordered := by
  simp [entries, Vec2.ordered_toJson, Json.ordered_ofFloat]

theorem plain_entries : ∀ e ∈ a.entries, '.' ∉ e.1.toList ∧ Plain e.2.fields := by
  simp [entries, Json.fields_ofFloat, plain_nil, Vec2.plain_toJson]

/-- A transform that is laid over a view is read back. -/
theorem eq_of_ofView (h : ofView (view.overlay a.entries) = .ok b) : b = a := by
  have hget : ∀ {name value}, a.entries.get? name = some value →
      (view.overlay a.entries).get? name = some value :=
    Entries.get?_overlay_of_eq_some nodup_keys_entries
  obtain ⟨position, hposition, h⟩ := bind_eq_ok_iff.mp h
  obtain ⟨scale, hscale, h⟩ := bind_eq_ok_iff.mp h
  obtain ⟨rotation, hrotation, h⟩ := bind_eq_ok_iff.mp h
  obtain ⟨opacity, hopacity, h⟩ := bind_eq_ok_iff.mp h
  rw [← Except.ok.inj h, Field.eq_of_vector (hget rfl) hposition,
    Field.eq_of_vector (hget rfl) hscale, Field.eq_of_number (hget rfl) hrotation,
    Field.eq_of_number (hget rfl) hopacity]

end Transform

namespace Token

variable {token : Token} {resolver : Resolver} {object : SceneObject}

/-- The properties of the drawable node of a token with its style laid over them, but for the fields
of the transform. -/
def properties (token : Token) : Entries Json :=
  Transform.fieldNames.foldl Entries.erase (token.geometry.properties.overlay token.style)

/-- The transform of the drawable node of a token, moved as far as the token. -/
def transform (token : Token) : Transform :=
  ⟨token.geometry.position + token.offset, token.geometry.rotation, token.geometry.scale,
    token.geometry.opacity⟩

theorem canvasView_eq (token : Token) : token.canvasView =
    (token.geometry.properties.overlay token.style).overlay token.transform.entries :=
  rfl

/-- The keys of all properties and of the style of a token ascend. -/
structure Ordered (token : Token) : Prop where
  /-- Those of the properties. -/
  properties : (Json.obj token.geometry.properties).Ordered
  /-- Those of the style. -/
  style : (Json.obj token.style).Ordered

/-- What an object has from its resolved view. -/
theorem view_of_object (h : (token.object resolver).1 = .ok object) :
    Transform.ofView (resolver.view FieldPath.canvas token.canvasView (.object token.name)).1 =
        .ok object.transform ∧
      object.properties = Transform.fieldNames.foldl Entries.erase
        (resolver.view FieldPath.canvas token.canvasView (.object token.name)).1 := by
  obtain ⟨transform, htransform, rfl⟩ := object_eq_ok_iff.mp h
  dsimp only
  exact ⟨htransform, rfl⟩

/-- The object that a token becomes without overrides. -/
theorem of_object_eq_ok (hresolver : resolver.overrides = .empty) (h : token.Ordered)
    (hobject : (token.object resolver).1 = .ok object) :
    (object.properties = token.properties ↔ Plain token.properties) ∧
      (Plain token.properties → object.transform = token.transform) := by
  have hordered := h.properties.overlay h.style.values
  have hnames : Transform.fieldNames = token.transform.entries.keys := rfl
  obtain ⟨htransform, hproperties⟩ := view_of_object hobject
  rw [Resolver.view_of_overrides_empty hresolver, canvasView_eq] at htransform hproperties
  rw [hproperties, properties, hnames]
  refine ⟨foldl_erase_unflatten_flatten_eq_iff Transform.nodup_keys_entries
    Transform.plain_entries hordered Transform.ordered_entries _, fun hplain => ?_⟩
  have hview := (plain_overlay_iff Transform.nodup_keys_entries Transform.plain_entries).mpr hplain
  rw [(unflatten_flatten_eq_iff (hordered.overlay Transform.ordered_entries) _).mpr hview]
    at htransform
  exact Transform.eq_of_ofView htransform

end Token

/-! ### Tokens on their way -/

namespace Network

variable {net : Network}

/-- All tokens of an ordered network are ordered. -/
theorem Ordered.invariant (h : net.Ordered) (settings : FlowSettings) :
    net.Invariant settings (fun _ => Token.Ordered) fun _ => Token.Ordered where
  seed v data hkind := by
    have hordered := h v
    rw [hkind] at hordered
    exact ⟨hordered, .empty⟩
  join v _ harrived r hr := Token.of_mem_join
    (fun token other ht hother => ⟨ht.properties, hother.style.overlay ht.style.values⟩) harrived hr
  carry v _ t _ ht r hr := by
    cases Node.carries_of_mem_carry hr with
    | pass | insert | copy => exact ⟨ht.properties, ht.style⟩
    | animate data hkind hanimate =>
      obtain ⟨rendered, -, rfl⟩ := Animation.animate_fst_eq_some_iff.mp hanimate
      exact ⟨ht.properties, ht.style⟩
    | restyle data hkind =>
      have hordered := h v
      rw [hkind] at hordered
      exact ⟨ht.properties, ht.style.overlay (Json.Ordered.values hordered)⟩
  move _ _ _ _ ht := ht

end Network

/-! ### Tracks -/

/-- Endpoints are read from three fields. -/
theorem Endpoints.ofFields_congr {fields other : Entries Json} (kind : TrackKind)
    (h : ∀ name ∈ ["from", "to", "property"], fields.get? name = other.get? name) :
    ofFields kind fields = ofFields kind other := by
  simp only [List.forall_mem_cons, List.not_mem_nil, false_imp_iff, implies_true, and_true] at h
  obtain ⟨hfirst, hlast, hproperty⟩ := h
  cases kind <;> simp only [ofFields, Field.vector, Field.number, Field.notNull, Field.text,
    Field.color, hfirst, hlast, hproperty]

theorem Ease.ofJson_toJson (ease : Ease) : ofJson ease.toJson = .ok ease := by
  cases ease <;> rfl

namespace Track

variable {track resolved : Track} {resolver : Resolver}

/-- The settings of a track in its view. -/
def settings (track : Track) : Entries Json :=
  [("start_offset", .ofFloat track.startOffset), ("duration", .ofFloat track.duration),
    ("easing", track.easing.toJson)]

/-- What a track has besides its settings. -/
def extras (track : Track) : Entries Json :=
  settingNames.foldl Entries.erase track.properties

theorem view_eq (track : Track) : track.view = track.properties.overlay track.settings :=
  rfl

theorem nodup_keys_settings : track.settings.keys.Nodup :=
  (by decide : settingNames.Nodup)

theorem ordered_settings : ∀ e ∈ track.settings, e.2.Ordered := by
  simp [settings, Json.ordered_ofFloat, Ease.toJson, Json.Ordered.str]

theorem plain_settings : ∀ e ∈ track.settings, '.' ∉ e.1.toList ∧ Plain e.2.fields := by
  have hease : track.easing.toJson.fields = [] := rfl
  simp [settings, Json.fields_ofFloat, hease, plain_nil]

/-- A track that is read back has the same settings. -/
theorem eq_of_withView_view (h : track.withView track.view = .ok resolved) :
    resolved = { track with properties := settingNames.foldl Entries.erase track.view } := by
  have hget : ∀ {name value}, track.settings.get? name = some value →
      track.view.get? name = some value :=
    Entries.get?_overlay_of_eq_some nodup_keys_settings
  obtain ⟨start, hstart, h⟩ := bind_eq_ok_iff.mp h
  obtain ⟨duration, hduration, h⟩ := bind_eq_ok_iff.mp h
  rw [show track.view.get? "easing" = _ from hget rfl] at h
  dsimp only at h
  rw [Ease.ofJson_toJson] at h
  obtain ⟨easing, heasing, h⟩ := bind_eq_ok_iff.mp h
  cases heasing
  split at h
  · cases h
  · split at h
    · cases h
    · rw [← Except.ok.inj h, Field.eq_of_anyNumber (hget rfl) hstart,
        Field.eq_of_anyNumber (hget rfl) hduration]
      rfl

/-- So it has the same motions. -/
theorem motion_of_withView_view (h : track.withView track.view = .ok resolved) (baseline : Float) :
    resolved.motion baseline = track.motion baseline := by
  have hfields : Endpoints.ofFields track.kind (settingNames.foldl Entries.erase track.view) =
      Endpoints.ofFields track.kind track.properties := by
    refine Endpoints.ofFields_congr _ fun name hname => ?_
    -- No field that is read is a setting.
    have hother : name ∉ settingNames := by
      revert name
      decide
    have hnone : track.settings.get? name = none :=
      (Entries.get?_eq_none_iff name).mpr hother
    rw [Entries.get?_foldl_erase, if_neg hother, view_eq, Entries.get?_overlay nodup_keys_settings,
      hnone, Option.none_or]
  rw [eq_of_withView_view h]
  simp only [motion, hfields]
  rfl

/-- Without overrides a plain track is resolved with its own view. -/
theorem withView_of_resolveTrack (hresolver : resolver.overrides = .empty)
    (h : (Json.obj track.properties).Ordered) (hplain : Plain track.extras) {object : NodeId}
    (hresolved : (Animation.resolveTrack resolver object track).1 = .ok resolved) :
    track.withView track.view = .ok resolved := by
  have hview : Plain (track.properties.overlay track.settings) :=
    (plain_overlay_iff nodup_keys_settings plain_settings).mpr hplain
  rw [Animation.resolveTrack, Resolver.view_of_overrides_empty hresolver, view_eq,
    (unflatten_flatten_eq_iff (h.overlay ordered_settings) _).mpr hview] at hresolved
  exact hresolved

/-- Without overrides a plain track is read back. -/
theorem motion_of_resolveTrack (hresolver : resolver.overrides = .empty)
    (h : (Json.obj track.properties).Ordered) (hplain : Plain track.extras) {object : NodeId}
    (hresolved : (Animation.resolveTrack resolver object track).1 = .ok resolved)
    (baseline : Float) : resolved.motion baseline = track.motion baseline :=
  motion_of_withView_view (withView_of_resolveTrack hresolver h hplain hresolved) baseline

end Track

/-! ### Scenes -/

/-- In a run without errors an animation node moves every token that comes to it. -/
theorem Network.exists_rendered {limits : Limits} {net : Network} {settings : FlowSettings}
    (h : Sound limits net) (hquiet : Finding.NoError (net.flow settings).findings)
    {v : Fin net.size} {data : Animation} (hkind : (net.node v).kind = .animation data)
    {token : Token} (htoken : token ∈ (net.flow settings).arrived v) :
    ∃ rendered, (Animation.render settings.resolver token.name token.cursor data.tracks).1 =
        .ok rendered ∧
      (data.animate settings.resolver (net.id v) token).1 = some { token with
        cursor := token.cursor + data.span (rendered.map Prod.fst)
        motions := token.motions ++
          rendered.zipIdx.map fun ((_, motion), slot) => (⟨net.id v, slot⟩, motion) } := by
  obtain ⟨created, hsmooth⟩ := exists_smooth hquiet h v
  have hunhindered := hsmooth.unhindered
  rw [Node.Unhindered, hkind] at hunhindered
  rw [arrived_flow hquiet] at htoken
  obtain ⟨result, hresult⟩ := Option.isSome_iff_exists.mp (hunhindered token htoken)
  obtain ⟨rendered, hrendered, rfl⟩ := Animation.animate_fst_eq_some_iff.mp hresult
  exact ⟨rendered, hrendered, hresult⟩

namespace Prepared

variable {limits : Limits} {prepared : Prepared} {key : Option String}

/-- In a scene without overrides an object has the properties of its drawable node with the style of
its token laid over them exactly if these are plain, and then it has the transform of its drawable
node, moved as far as its token. A plain track is rendered as it is configured for every token that
comes to its node, at the time of the token. -/
theorem unchanged_of_overrides_empty {graph : Graph} (hgraph : graph.Ordered) {net : Network}
    (hnet : Network.ofGraph graph = .ok net) (h : net.prepare limits = .ok prepared)
    (key : Option String) {compilation : Compilation}
    (hrun : prepared.run .empty key = .ok compilation) :
    (∀ object ∈ compilation.scene.objects, ∃ token ∈ (prepared.flow .empty key).delivered,
      token.name = object.id ∧ prepared.network.shape? object.origin = some token.geometry ∧
        (object.properties = token.properties ↔ Plain token.properties) ∧
        (Plain token.properties → object.transform = token.transform)) ∧
    ∀ v data, (prepared.network.node v).kind = .animation data →
      ∀ token ∈ (prepared.flow .empty key).arrived v, ∃ motions,
        List.Forall₂ (fun track motion => Plain track.extras →
          track.motion token.cursor = .ok motion) data.tracks motions ∧
        (data.animate (prepared.resolver .empty key) (prepared.network.id v) token).1.map
            Token.motions =
          some (token.motions ++
            motions.zipIdx.map fun m => (⟨prepared.network.id v, m.2⟩, m.1)) := by
  obtain rfl := Network.network_of_prepare h
  obtain ⟨hsound, -⟩ := Network.sound_of_prepare h
  have hquiet := ((noError_found_iff _ _ _).mp (of_run_eq_ok hrun).1).2.1
  have hordered := hgraph.ofGraph hnet
  refine ⟨fun object hobject => ?_, fun v data hkind token htoken => ?_⟩
  · obtain ⟨token, htoken, hresult⟩ := exists_token_of_mem_objects hrun hobject
    obtain ⟨hid, horigin, -, -⟩ := Token.id_of_object hresult
    obtain ⟨v, hterminal, htokenOrdered⟩ := (hordered.invariant _).of_mem_delivered htoken
    have harriving := htoken
    rw [flow, Network.delivered_flow hquiet hsound hterminal] at harriving
    have hgeometry := (Network.proper_of_mem_arriving hsound harriving).geometry
    exact ⟨token, htoken, hid.symm, horigin ▸ hgeometry,
      Token.of_object_eq_ok rfl htokenOrdered hresult⟩
  · obtain ⟨rendered, hrendered, hresult⟩ := Network.exists_rendered hsound hquiet hkind htoken
    have htracks := hordered v
    rw [hkind] at htracks
    refine ⟨rendered.map Prod.snd, ?_, ?_⟩
    · rw [List.forall₂_map_right_iff]
      refine ((List.forall₂_and_left _ _).mpr ⟨htracks, Animation.render_fst_eq_ok_iff.mp
        hrendered⟩).imp fun track r hr hplain => ?_
      obtain ⟨htrack, hresolved, hmotion⟩ := hr
      rw [← hmotion, Track.motion_of_resolveTrack rfl htrack hplain hresolved]
    · rw [hresult, List.zipIdx_map, List.map_map]
      rfl

end Prepared

/-- A circle with a property inside another, which fades in. -/
def fadingCircle : Graph where
  nodes :=
    [.small "c" "geometry"
        [("properties", .obj [("fill", .obj [("alpha", .small 1)])]), ("shape", .str "circle")],
      .small "f" "animation"
        [("tracks", .arr [.obj [("duration", .small 1), ("type", .str "fade")]])],
      .small "s" "scene" [("height", .small 10), ("width", .small 10)]]
  edges := [.plain "e1" "c" "f", .plain "e2" "f" "s"]

theorem Json.ordered_small (n : Fin 100) : (small n).Ordered :=
  .num _

theorem ordered_fadingCircle : fadingCircle.Ordered := by
  have halpha : (Json.obj [("alpha", .small 1)]).Ordered :=
    .obj (by decide) (by simp [Json.ordered_small])
  have hfill : (Json.obj [("fill", .obj [("alpha", .small 1)])]).Ordered :=
    .obj (by decide) (by simp [halpha])
  have htrack : (Json.obj [("duration", .small 1), ("type", .str "fade")]).Ordered :=
    .obj (by decide) (by simp [Json.ordered_small, Json.Ordered.str])
  have htracks : (Json.arr [.obj [("duration", .small 1), ("type", .str "fade")]]).Ordered :=
    .arr (by simp [htrack])
  simp only [Graph.Ordered, fadingCircle, List.forall_mem_cons]
  exact ⟨.obj (by decide) (by simp [hfill, Json.Ordered.str]),
    .obj (by decide) (by simp [htracks]),
    .obj (by decide) (by simp [Json.ordered_small]), by simp⟩

/-- The circle keeps its property, and fades in as it is configured. -/
theorem unchanged_of_overrides_empty_fadingCircle :
    ∃ (net : Network) (prepared : Prepared) (compilation : Compilation),
      Network.ofGraph fadingCircle = .ok net ∧ net.prepare .standard = .ok prepared ∧
        prepared.run .empty none = .ok compilation ∧
        (∃ object ∈ compilation.scene.objects, ∃ token ∈ (prepared.flow .empty none).delivered,
          token.properties.hasKey "fill" = true ∧ object.properties = token.properties ∧
            object.transform = token.transform) ∧
        ∃ v data, (prepared.network.node v).kind = .animation data ∧ data.tracks.length = 1 ∧
          ∀ token ∈ (prepared.flow .empty none).arrived v, ∃ motions,
            List.Forall₂ (fun track motion => track.motion token.cursor = .ok motion)
              data.tracks motions := by
  obtain ⟨net, -, prepared, -, compilation, -, hnet, -, hprepare, -, hrun, -, hseen⟩ :=
    exists_runs_of_sorted fadingCircle fadingCircle
      (fun _ prepared _ =>
        !(prepared.cast .empty none).objects.isEmpty &&
          ((prepared.flow .empty none).delivered.all fun token =>
            token.properties.hasKey "fill" && token.properties.all fun e =>
              decide ('.' ∉ e.1.toList) && e.2.fields.all fun e =>
                decide ('.' ∉ e.1.toList) && e.2.fields.isEmpty) &&
          prepared.network.places.any fun v =>
            match (prepared.network.node v).kind with
            | .animation data => data.tracks.length = 1 &&
                data.tracks.all fun track => track.extras.isEmpty
            | _ => false)
      (by decide) (by decide) (by decide +kernel)
  simp only [Bool.and_eq_true, List.all_eq_true, List.any_eq_true, List.isEmpty_iff,
    decide_eq_true_iff, Bool.not_eq_true', List.isEmpty_eq_false_iff_exists_mem] at hseen
  obtain ⟨⟨⟨object, hobject⟩, hplain⟩, v, -, htracks⟩ := hseen
  have hmem := (Prepared.mem_objects_iff hrun).mpr hobject
  obtain ⟨hobjects, hmotions⟩ := Prepared.unchanged_of_overrides_empty ordered_fadingCircle hnet
    hprepare none hrun
  obtain ⟨token, htoken, -, -, hproperties, htransform⟩ := hobjects object hmem
  obtain ⟨hfill, hplain⟩ := hplain token htoken
  have hplain : Plain token.properties := plain_of_forall_mem fun e he =>
    ⟨(hplain e he).1, plain_of_forall_mem fun e' he' =>
      ⟨((hplain e he).2 e' he').1, ((hplain e he).2 e' he').2 ▸ plain_nil⟩⟩
  refine ⟨net, prepared, compilation, hnet, hprepare, hrun, ⟨object, hmem, token, htoken, hfill,
    hproperties.mpr hplain, htransform hplain⟩, v, ?_⟩
  cases hkind : (prepared.network.node v).kind with
  | animation data =>
    simp only [hkind, Bool.and_eq_true, decide_eq_true_iff, List.all_eq_true,
      List.isEmpty_iff] at htracks
    refine ⟨data, rfl, htracks.1, fun token htoken => ?_⟩
    obtain ⟨motions, hmotions, -⟩ := hmotions v data hkind token htoken
    refine ⟨motions, ((List.forall₂_and_left _ _).mpr ⟨htracks.2, hmotions⟩).imp ?_⟩
    exact fun track motion h => h.2 (h.1 ▸ plain_nil)
  | _ => simp [hkind] at htracks

/-- A circle with a dot in the name of a property. -/
def dottedCircle : Graph where
  nodes :=
    [.small "c" "geometry" [("properties", .obj [("a.b", .small 1)]), ("shape", .str "circle")],
      .small "s" "scene" [("height", .small 10), ("width", .small 10)]]
  edges := [.plain "e1" "c" "s"]

/-- An object does not keep a property with a dot in its name. -/
theorem exists_properties_changed :
    ¬ ∀ (graph : Graph) (net : Network) (limits : Limits) (prepared : Prepared)
        (key : Option String) (compilation : Compilation), graph.Ordered →
      Network.ofGraph graph = .ok net → net.prepare limits = .ok prepared →
      prepared.run .empty key = .ok compilation →
        ∀ object ∈ compilation.scene.objects, ∃ token ∈ (prepared.flow .empty key).delivered,
          token.name = object.id ∧ object.properties = token.properties := by
  intro hclaim
  obtain ⟨net, -, prepared, -, compilation, -, hnet, -, hprepare, -, hrun, -, hseen⟩ :=
    exists_runs_of_sorted dottedCircle dottedCircle
      (fun _ prepared _ =>
        ((prepared.cast .empty none).objects.any fun object => !object.properties.hasKey "a.b") &&
          (prepared.flow .empty none).delivered.all fun token => token.properties.hasKey "a.b")
      (by decide) (by decide) (by decide +kernel)
  simp only [Bool.and_eq_true, List.any_eq_true, List.all_eq_true, Bool.not_eq_true'] at hseen
  obtain ⟨⟨object, hobject, hlost⟩, hheld⟩ := hseen
  have hordered : dottedCircle.Ordered := by
    have hproperties : (Json.obj [("a.b", .small 1)]).Ordered :=
      .obj (by decide) (by simp [Json.ordered_small])
    simp only [Graph.Ordered, dottedCircle, List.forall_mem_cons]
    exact ⟨.obj (by decide) (by simp [hproperties, Json.Ordered.str]),
      .obj (by decide) (by simp [Json.ordered_small]), by simp⟩
  obtain ⟨token, htoken, -, heq⟩ := hclaim dottedCircle net .standard prepared none compilation
    hordered hnet hprepare hrun object ((Prepared.mem_objects_iff hrun).mpr hobject)
  rw [heq, hheld token htoken] at hlost
  cases hlost

end SceneFlow
