import Mathlib
import SceneFlow.Proofs.Compile.Ownership
import SceneFlow.Proofs.Compile.Unchanged
import SceneFlow.Proofs.Motion.Range

/-!
# The numbers of a scene

The numbers that a scene shows are finite where they are read or checked: those of transforms, the
durations of motions and their endpoints. Times are sums along the ways of tokens and the turns of a
motion are a difference, and neither is checked, so they can overflow; but nothing else can happen
to them, and they do not overflow where all that is added up is far from the limit.

## Main definitions

* `Scene.IsFinite`: all numbers of a scene are finite.
* `Scene.Measured`: they are, up to times and turns that overflow.
* `Prepared.Moderate`: all that times and turns are calculated from is far from the limit.

## Main results

* `Network.measured_of_outcome`: the numbers of a scene, whatever its times.
* `exists_scene_not_isFinite`: a time can overflow.
-/

namespace SceneFlow

/-! ### Numbers that are read -/

namespace Field

variable {look : Look} {view : Entries Json} {name label : String}

/-- A number that is read is finite. -/
theorem isFinite_of_number {default x : Float} (hdefault : default.isFinite = true)
    (h : number look view name label default = .ok x) : x.isFinite = true := by
  rw [number] at h
  split at h
  · exact Except.ok.inj h ▸ hdefault
  · split at h
    · split at h
      · rename_i hfinite
        exact Except.ok.inj h ▸ hfinite
      · cases h
    · cases h

/-- A vector that is read is finite. -/
theorem isFinite_of_vector {default v : Vec2} (hdefault : default.isFinite = true)
    (h : vector look view name default = .ok v) : v.isFinite = true := by
  rw [Vec2.isFinite, Bool.and_eq_true] at hdefault
  rw [vector] at h
  split at h
  · rw [← Except.ok.inj h, Vec2.isFinite, Bool.and_eq_true]
    exact hdefault
  · obtain ⟨x, hx, h⟩ := bind_eq_ok_iff.mp h
    obtain ⟨y, hy, h⟩ := bind_eq_ok_iff.mp h
    rw [← Except.ok.inj h, Vec2.isFinite, Bool.and_eq_true]
    exact ⟨isFinite_of_number hdefault.1 hx, isFinite_of_number hdefault.2 hy⟩
  · cases h

end Field

theorem Vec2.isFinite_zero : Vec2.zero.isFinite = true := by
  decide +kernel

theorem Vec2.isFinite_one : Vec2.one.isFinite = true := by
  decide +kernel

/-- The numbers of a transform are finite. -/
structure Transform.IsFinite (transform : Transform) : Prop where
  /-- The position. -/
  position : transform.position.isFinite = true
  /-- The angle. -/
  rotation : transform.rotation.isFinite = true
  /-- The factors. -/
  scale : transform.scale.isFinite = true
  /-- The opacity. -/
  opacity : transform.opacity.isFinite = true

theorem Transform.isFinite_of_ofView {view : Entries Json} {transform : Transform}
    (h : ofView view = .ok transform) : transform.IsFinite := by
  obtain ⟨position, hposition, h⟩ := bind_eq_ok_iff.mp h
  obtain ⟨scale, hscale, h⟩ := bind_eq_ok_iff.mp h
  obtain ⟨rotation, hrotation, h⟩ := bind_eq_ok_iff.mp h
  obtain ⟨opacity, hopacity, h⟩ := bind_eq_ok_iff.mp h
  rw [← Except.ok.inj h]
  exact ⟨Field.isFinite_of_vector Vec2.isFinite_zero hposition,
    Field.isFinite_of_number (by decide +kernel) hrotation,
    Field.isFinite_of_vector Vec2.isFinite_one hscale,
    Field.isFinite_of_number (by decide +kernel) hopacity⟩

/-- The transform of an object is finite. -/
theorem Token.isFinite_of_object {token : Token} {resolver : Resolver} {object : SceneObject}
    (h : (token.object resolver).1 = .ok object) : object.transform.IsFinite := by
  obtain ⟨transform, htransform, rfl⟩ := Token.object_eq_ok_iff.mp h
  exact Transform.isFinite_of_ofView htransform

namespace Endpoints

/-- The numbers of endpoints are finite. -/
def IsFinite : Endpoints → Prop
  | .color _ _ _ => True
  | .angle first last turns =>
    first.isFinite = true ∧ last.isFinite = true ∧ turns.isFinite = true
  | .vector first last => first.isFinite = true ∧ last.isFinite = true
  | .scalar first last => first.isFinite = true ∧ last.isFinite = true

/-- The numbers of endpoints are finite, up to turns that overflow. -/
def Measured : Endpoints → Prop
  | .color _ _ _ => True
  | .angle first last turns =>
    first.isFinite = true ∧ last.isFinite = true ∧ turns = (last - first) / 360
  | .vector first last => first.isFinite = true ∧ last.isFinite = true
  | .scalar first last => first.isFinite = true ∧ last.isFinite = true

/-- The turns do not overflow if the difference of the angles does not. -/
def Level : Endpoints → Prop
  | .angle first last _ => (last - first).isFinite = true
  | _ => True

variable {kind : TrackKind} {fields : Entries Json} {endpoints : Endpoints}

theorem Measured.isFinite_iff (h : endpoints.Measured) : endpoints.IsFinite ↔ endpoints.Level := by
  cases endpoints with
  | angle first last turns =>
    obtain ⟨hfirst, hlast, rfl⟩ := h
    simp [IsFinite, Level, hfirst, hlast, isFinite_div_360_iff]
  | color _ _ _ => exact Iff.rfl
  | vector _ _ | scalar _ _ => exact iff_of_true h trivial

theorem measured_of_ofFields (h : ofFields kind fields = .ok endpoints) : endpoints.Measured := by
  have hzero : (0 : Float).isFinite = true := by decide +kernel
  have hone : (1 : Float).isFinite = true := by decide +kernel
  unfold ofFields at h
  cases kind with
  | move =>
    obtain ⟨first, hfirst, h⟩ := bind_eq_ok_iff.mp h
    obtain ⟨last, hlast, h⟩ := bind_eq_ok_iff.mp h
    rw [← Except.ok.inj h]
    exact ⟨Field.isFinite_of_vector Vec2.isFinite_zero hfirst,
      Field.isFinite_of_vector Vec2.isFinite_zero hlast⟩
  | scale =>
    obtain ⟨first, hfirst, h⟩ := bind_eq_ok_iff.mp h
    obtain ⟨last, hlast, h⟩ := bind_eq_ok_iff.mp h
    rw [← Except.ok.inj h]
    exact ⟨Field.isFinite_of_vector Vec2.isFinite_one hfirst,
      Field.isFinite_of_vector Vec2.isFinite_one hlast⟩
  | rotate =>
    obtain ⟨first, hfirst, h⟩ := bind_eq_ok_iff.mp h
    obtain ⟨last, hlast, h⟩ := bind_eq_ok_iff.mp h
    rw [← Except.ok.inj h]
    exact ⟨Field.isFinite_of_number hzero hfirst, Field.isFinite_of_number hzero hlast, rfl⟩
  | fade =>
    obtain ⟨first, hfirst, h⟩ := bind_eq_ok_iff.mp h
    obtain ⟨last, hlast, h⟩ := bind_eq_ok_iff.mp h
    rw [← Except.ok.inj h]
    exact ⟨Field.isFinite_of_number hzero hfirst, Field.isFinite_of_number hone hlast⟩
  | color =>
    obtain ⟨property, -, h⟩ := bind_eq_ok_iff.mp h
    obtain ⟨first, -, h⟩ := bind_eq_ok_iff.mp h
    obtain ⟨last, -, h⟩ := bind_eq_ok_iff.mp h
    rw [← Except.ok.inj h]
    trivial

end Endpoints

/-! ### Motions -/

namespace Motion

/-- The numbers of a motion are finite. -/
structure IsFinite (motion : Motion) : Prop where
  /-- The start. -/
  start : motion.start.isFinite = true
  /-- The duration. -/
  duration : motion.duration.isFinite = true
  /-- The endpoints. -/
  endpoints : motion.endpoints.IsFinite

/-- The numbers of a motion are finite, up to a start or turns that overflow. -/
structure Measured (motion : Motion) : Prop where
  /-- The start is finite, or the infinity behind all times. -/
  start : motion.start.isFinite = true ∨ motion.start = endless
  /-- The duration is finite. -/
  duration : motion.duration.isFinite = true
  /-- It is not negative. -/
  isSpan : IsSpan motion.duration
  /-- The endpoints. -/
  endpoints : motion.endpoints.Measured

end Motion

namespace Track

variable {track resolved : Track} {baseline : Float} {motion : Motion}

/-- The times of a resolved track are finite. -/
theorem isFinite_of_withView {view : Entries Json} (h : track.withView view = .ok resolved) :
    resolved.startOffset.isFinite = true ∧ resolved.duration.isFinite = true ∧
      IsSpan resolved.duration := by
  obtain ⟨_, _, _, hstart, hduration, hpositive, rfl⟩ := exists_of_withView h
  exact ⟨hstart, hduration, isSpan_of_isFinite hduration hpositive⟩

end Track

/-- The motions of a track from a time on. -/
theorem Animation.measured_of_rendered {resolver : Resolver} {object : NodeId} {baseline : Float}
    {track resolved : Track} {motion : Motion} (hbaseline : IsTime baseline)
    (hresolved : (resolveTrack resolver object track).1 = .ok resolved)
    (hmotion : resolved.motion baseline = .ok motion) : motion.Measured := by
  obtain ⟨hstart, hduration, hspan⟩ := Track.isFinite_of_withView hresolved
  obtain ⟨endpoints, hendpoints, rfl⟩ := Track.motion_eq_ok_iff.mp hmotion
  exact ⟨hbaseline.add_isFinite hstart, hduration, hspan,
    Endpoints.measured_of_ofFields hendpoints⟩

/-! ### Scenes -/

namespace Scene

/-- All numbers of a scene are finite. -/
structure IsFinite (scene : Scene) : Prop where
  /-- The duration. -/
  duration : scene.duration.isFinite = true
  /-- The frames a second. -/
  fps : scene.fps.isFinite = true
  /-- The transforms of the objects. -/
  transform : ∀ object ∈ scene.objects, object.transform.IsFinite
  /-- The times at which objects are placed. -/
  insertTime : ∀ object ∈ scene.objects, ∀ time ∈ object.insertTime, time.isFinite = true
  /-- The numbers of the motions. -/
  motion : ∀ placed ∈ scene.animations, placed.motion.IsFinite

/-- All numbers of a scene are finite, up to times and turns that overflow. -/
structure Measured (scene : Scene) : Prop where
  /-- The duration is finite, or the infinity behind all times. -/
  duration : scene.duration.isFinite = true ∨ scene.duration = endless
  /-- That of an image is finite. -/
  image : scene.output = .image → scene.duration.isFinite = true
  /-- The frames a second are finite. -/
  fps : scene.fps.isFinite = true
  /-- So are the transforms of the objects. -/
  transform : ∀ object ∈ scene.objects, object.transform.IsFinite
  /-- The times at which objects are placed are finite, or the infinity behind all times. -/
  insertTime : ∀ object ∈ scene.objects, ∀ time ∈ object.insertTime,
    time.isFinite = true ∨ time = endless
  /-- The motions are measured. -/
  motion : ∀ placed ∈ scene.animations, placed.motion.Measured

end Scene

theorem NodeKind.isFinite_of_checkDuration {field : String} {x : Float}
    (h : checkDuration field x = []) : x.isFinite = true := by
  rw [checkDuration] at h
  split at h
  · cases h
  · rename_i hgood
    simp only [Bool.or_eq_true, Bool.not_eq_true', not_or, Bool.not_eq_false] at hgood
    exact hgood.1

namespace Prepared

variable {limits : Limits} {prepared : Prepared} {overrides : Overrides} {key : Option String}
  {net : Network} {compilation : Compilation}

/-- The canvas has been checked. -/
theorem isFinite_canvas (h : net.prepare limits = .ok prepared) :
    prepared.canvas.fps.isFinite = true ∧ prepared.canvas.duration.isFinite = true ∧
      IsSpan prepared.canvas.duration := by
  obtain ⟨hsound, output, canvas, values, hterminal, -, rfl⟩ := Network.prepare_eq_ok_iff.mp h
  obtain ⟨v, output', canvas', hkind, -, hterminal'⟩ := hsound.exists_terminal
  obtain ⟨rfl, rfl⟩ := Prod.mk.inj (Option.some.inj (hterminal'.symm.trans hterminal))
  have hproblems := hsound.problems_eq_nil v
  simp only [hkind, NodeKind.problems, List.append_eq_nil_iff] at hproblems
  obtain ⟨⟨-, hfps⟩, hduration⟩ := hproblems
  have hspan := NodeKind.isSpan_of_checkDuration hduration
  refine ⟨?_, ?_, hspan⟩
  · split at hfps
    · cases hfps
    · rename_i hgood
      simp only [Bool.or_eq_true, Bool.not_eq_true', not_or, Bool.not_eq_false] at hgood
      exact hgood.1
  · exact NodeKind.isFinite_of_checkDuration hduration

section Run

variable (hprepare : net.prepare limits = .ok prepared)
  (hrun : prepared.run overrides key = .ok compilation)
include hprepare hrun

/-- The tokens of a run are neat, also those that are delivered. -/
theorem neat_of_mem_delivered {token : Token}
    (htoken : token ∈ (prepared.flow overrides key).delivered) : token.Neat := by
  obtain ⟨hsound, -⟩ := Network.sound_of_prepare hprepare
  have hquiet := ((noError_found_iff _ _ _).mp (of_run_eq_ok hrun).1).2.1
  obtain ⟨v, _, _, hkind, -, -⟩ := hsound.exists_terminal
  have hdelivered := Network.delivered_flow hquiet hsound (v := v) (by rw [hkind]; rfl)
  rw [flow, hdelivered] at htoken
  exact (Network.proper_of_mem_arriving hsound htoken).neat

/-- The numbers of a scene, whatever its times. -/
theorem measured_of_run : compilation.scene.Measured := by
  obtain ⟨hsound, -⟩ := Network.sound_of_prepare hprepare
  obtain ⟨hfound, -, hscene⟩ := of_run_eq_ok hrun
  have hquiet := ((noError_found_iff _ _ _).mp hfound).2.1
  obtain ⟨hfps, hcanvas, -⟩ := isFinite_canvas hprepare
  refine ⟨?_, fun himage => ?_, by rwa [hscene, Cast.scene], ?_, ?_, ?_⟩
  · rw [hscene, Cast.scene]
    dsimp only
    unfold Output.duration
    split
    · rw [later]
      split
      · rw [← List.foldl_map (f := fun placed : ObjectMotion => placed.motion.finish) (g := later)]
        exact (timeRank_foldl_later isTime_zero _).1.isFinite_or_eq
      · exact .inl hcanvas
    · exact .inl hcanvas
  · rw [hscene, Cast.scene] at himage ⊢
    dsimp only at himage ⊢
    rwa [himage, Output.duration]
  · intro object hobject
    obtain ⟨token, -, hmade⟩ := exists_token_of_mem_objects hrun hobject
    exact Token.isFinite_of_object hmade
  · intro object hobject time htime
    obtain ⟨token, htoken, hmade⟩ := exists_token_of_mem_objects hrun hobject
    obtain ⟨-, -, -, heq⟩ := Token.id_of_object hmade
    exact ((neat_of_mem_delivered hprepare hrun htoken).inserted time (heq ▸ htime)).isFinite_or_eq
  · intro placed hplaced
    obtain ⟨u, first, m, hemitted, hm⟩ := exists_emitted_of_mem_animations hrun hplaced
    obtain ⟨-, data, track, resolved, -, -, hresolved, hmotion⟩ := hemitted.renders
    rw [← hm]
    exact Animation.measured_of_rendered
      (neat_of_mem_arrived hsound hquiet u first hemitted.arrived).cursor hresolved hmotion

end Run

end Prepared

/-! ### Times far from the limit -/

/-- The angles between which turns are calculated are far from the limit. -/
def Endpoints.Moderate : Endpoints → Prop
  | .angle first last _ => Within 1 first ∧ Within 1 last
  | _ => True

/-- What is calculated from a track starts far from the limit. -/
structure Track.Moderate (track : Track) : Prop where
  /-- The start. -/
  startOffset : Within 1 track.startOffset
  /-- The duration. -/
  duration : Within 1 track.duration
  /-- The angles. -/
  endpoints : ∀ endpoints, Endpoints.ofFields track.kind track.properties = .ok endpoints →
    endpoints.Moderate

/-- All that times and turns are calculated from is far from the limit, and so is the number of
nodes: delays, durations and the settings of tracks, as they are resolved for any object. -/
structure Prepared.Moderate (prepared : Prepared) (overrides : Overrides) (key : Option String) :
    Prop where
  /-- There are not too many nodes. -/
  size_lt : prepared.network.size < 2 ^ 51
  /-- The delays of insert nodes. -/
  delay : ∀ v data, (prepared.network.node v).kind = .insert data → Within 1 data.delay
  /-- The durations of animation nodes. -/
  duration : ∀ v data, (prepared.network.node v).kind = .animation data →
    ∀ duration ∈ data.duration, Within 1 duration
  /-- The tracks of animation nodes. -/
  track : ∀ v data, (prepared.network.node v).kind = .animation data → ∀ track ∈ data.tracks,
    ∀ object resolved, (Animation.resolveTrack (prepared.resolver overrides key) object track).1 =
      .ok resolved → resolved.Moderate

theorem Endpoints.level_of_moderate {endpoints : Endpoints} (h : endpoints.Moderate) :
    endpoints.Level := by
  cases endpoints with
  | angle first last turns => exact (h.2.sub h.1 (by decide)).1
  | color _ _ _ | vector _ _ | scalar _ _ => trivial

/-- The time that an animation node takes. -/
theorem Animation.within_span {data : Animation} (resolved : List Track)
    (hduration : ∀ duration ∈ data.duration, Within 1 duration)
    (hresolved : ∀ track ∈ resolved, track.Moderate) : Within 2 (data.span resolved) := by
  rw [span]
  cases h : data.duration with
  | some duration => exact (hduration duration h).mono (by decide)
  | none =>
    rw [Option.getD_none, ← List.foldl_map (f := Track.finish) (g := later)]
    refine Within.foldl_later (fun finish hfinish => ?_) (Within.zero.mono (by decide))
    obtain ⟨track, htrack, rfl⟩ := List.mem_map.mp hfinish
    have hsum := (hresolved track htrack).startOffset.add (hresolved track htrack).duration
      (by decide)
    exact hsum

/-- The times of a token are at most so many times the limit of what is added to them. -/
structure Token.Within (n : ℕ) (token : Token) : Prop where
  /-- The cursor. -/
  cursor : SceneFlow.Within n token.cursor
  /-- The time at which it was placed. -/
  insertTime : ∀ time ∈ token.insertTime, SceneFlow.Within n time

namespace Token.Within

variable {m n : ℕ} {token other : Token}

theorem mono (h : token.Within m) (hle : m ≤ n) : token.Within n :=
  ⟨h.cursor.mono hle, fun time htime => (h.insertTime time htime).mono hle⟩

theorem absorb (h : token.Within n) (hother : other.Within n) : (token.absorb other).Within n := by
  refine ⟨h.cursor.later hother.cursor, fun time htime => ?_⟩
  change time ∈ earliest? token.insertTime other.insertTime at htime
  cases hfirst : token.insertTime with
  | none => exact hother.insertTime time (by rwa [hfirst] at htime)
  | some first =>
    cases hlast : other.insertTime with
    | none =>
      rw [hfirst, hlast] at htime
      exact h.insertTime time (hfirst ▸ htime)
    | some last =>
      rw [hfirst, hlast] at htime
      rw [← Option.some.inj htime]
      exact (h.insertTime first hfirst).earlier (hother.insertTime last hlast)

theorem insert (h : token.Within n) {delay : Float} (hdelay : SceneFlow.Within 1 delay)
    (hlt : n + 1 < 2 ^ 53) : (token.insert delay).Within (n + 1) := by
  have hcursor := h.cursor.add hdelay hlt
  refine ⟨hcursor, fun time htime => ?_⟩
  rcases Option.or_eq_some_iff.mp htime with htime | ⟨-, htime⟩
  · exact (h.insertTime time htime).mono (Nat.le_succ n)
  · exact Option.some.inj htime ▸ hcursor

end Token.Within

namespace Prepared

variable {limits : Limits} {prepared : Prepared} {overrides : Overrides} {key : Option String}
  {net : Network} {compilation : Compilation}

theorem Moderate.idxOf_lt (h : prepared.Moderate overrides key)
    (hsound : Network.Sound limits prepared.network) (v : Fin prepared.network.size) :
    prepared.network.objectOrder.idxOf v < 2 ^ 51 := by
  have hlt := List.idxOf_lt_length_of_mem (Network.mem_objectOrder hsound v)
  rw [(Network.objectOrder_perm hsound).length_eq, Network.places, List.length_finRange] at hlt
  exact hlt.trans h.size_lt

/-- A token passes nodes in the order of their turns, and each adds at most twice the limit. -/
theorem Moderate.invariant (h : prepared.Moderate overrides key)
    (hsound : Network.Sound limits prepared.network) :
    prepared.network.Invariant (prepared.flowSettings overrides key)
      (fun v => Token.Within (2 * prepared.network.objectOrder.idxOf v))
      fun v => Token.Within (2 * (prepared.network.objectOrder.idxOf v + 1)) where
  seed v data hkind := ⟨Within.zero.mono (Nat.zero_le _), by simp [Token.seed]⟩
  join v _ harrived r hr :=
    (Token.of_mem_join (fun _ _ ht hother => ht.absorb hother) harrived hr).mono (by omega)
  carry v _ t _ ht r hr := by
    have hplace := h.idxOf_lt hsound v
    have hstays := ht.mono (n := 2 * (prepared.network.objectOrder.idxOf v + 1)) (by omega)
    cases Node.carries_of_mem_carry hr with
    | pass | restyle | copy => exact ⟨hstays.cursor, hstays.insertTime⟩
    | insert data hkind => exact (ht.insert (h.delay v data hkind) (by omega)).mono (by omega)
    | animate data hkind hanimate =>
      obtain ⟨rendered, hrendered, rfl⟩ := Animation.animate_fst_eq_some_iff.mp hanimate
      have hspan := Animation.within_span (rendered.map Prod.fst)
        (h.duration v data hkind) fun track htrack => by
          obtain ⟨r, hr, rfl⟩ := List.mem_map.mp htrack
          obtain ⟨i, hi, rfl⟩ := List.getElem_of_mem hr
          have htracks := Animation.render_fst_eq_ok_iff.mp hrendered
          have hi' : i < data.tracks.length := htracks.length_eq ▸ hi
          exact h.track v data hkind _ (List.getElem_mem hi') _ _ (htracks.get hi' hi).1
      exact ⟨ht.cursor.add hspan (by omega), hstays.insertTime⟩
  move u v hv t ht := by
    refine ht.mono ?_
    have hlt : prepared.network.objectOrder.idxOf u < prepared.network.objectOrder.idxOf v := by
      obtain ⟨pre, post, horder⟩ := List.append_of_mem (Network.mem_objectOrder hsound v)
      have hnodup := prepared.network.nodup_objectOrder
      have hu := Network.mem_objectOrder hsound u
      have hbehind : u ∉ v :: post := fun hu => Network.notMem_objectsBehind horder hu hv
      rw [horder] at hnodup hu ⊢
      have hpre := (List.mem_append.mp hu).resolve_right hbehind
      have hv' : v ∉ pre := fun hmem =>
        List.disjoint_of_nodup_append hnodup hmem List.mem_cons_self
      rw [List.idxOf_append_of_mem hpre, List.idxOf_append_of_notMem hv', List.idxOf_cons_self]
      exact (List.idxOf_lt_length_of_mem hpre).trans_le (Nat.le_add_right _ _)
    omega

/-- The motions of a scene start at most one limit behind the time of a token. -/
theorem Moderate.within_motion (h : prepared.Moderate overrides key)
    (hsound : Network.Sound limits prepared.network)
    (hrun : prepared.run overrides key = .ok compilation) {placed : ObjectMotion}
    (hplaced : placed ∈ compilation.scene.animations) :
    Within (2 ^ 52 + 1) placed.motion.start ∧ Within 1 placed.motion.duration ∧
      placed.motion.endpoints.Moderate := by
  obtain ⟨u, first, m, hemitted, hm⟩ := exists_emitted_of_mem_animations hrun hplaced
  obtain ⟨-, data, track, resolved, hkind, htrack, hresolved, hmotion⟩ := hemitted.renders
  obtain ⟨endpoints, hendpoints, heq⟩ := Track.motion_eq_ok_iff.mp hmotion
  have hmoderate := h.track u data hkind track (List.mem_of_getElem? htrack) _ resolved hresolved
  have hplace := h.idxOf_lt hsound u
  have hcursor := ((h.invariant hsound).of_mem_arrived hemitted.arrived).cursor.mono
    (n := 2 ^ 52) (by omega)
  rw [← hm, heq]
  exact ⟨hcursor.add hmoderate.startOffset (by decide), hmoderate.duration,
    hmoderate.endpoints endpoints hendpoints⟩

/-- Where times are far from the limit, no number of a scene overflows. -/
theorem Moderate.isFinite (h : prepared.Moderate overrides key)
    (hprepare : net.prepare limits = .ok prepared)
    (hrun : prepared.run overrides key = .ok compilation) : compilation.scene.IsFinite := by
  obtain ⟨hsound, -⟩ := Network.sound_of_prepare hprepare
  obtain ⟨-, -, hscene⟩ := of_run_eq_ok hrun
  have hmeasured := measured_of_run hprepare hrun
  refine ⟨?_, hmeasured.fps, hmeasured.transform, fun object hobject time htime => ?_,
    fun placed hplaced => ?_⟩
  · obtain ⟨-, hcanvas, -⟩ := isFinite_canvas hprepare
    have hfinish : Within (2 ^ 52 + 1 + 1)
        (compilation.scene.animations.foldl
          (fun latest placed => later latest placed.motion.finish) 0) := by
      rw [← List.foldl_map (f := fun placed : ObjectMotion => placed.motion.finish) (g := later)]
      refine Within.foldl_later (fun finish hfinish => ?_) (Within.zero.mono (by decide))
      obtain ⟨placed, hplaced, rfl⟩ := List.mem_map.mp hfinish
      obtain ⟨hstart, hduration, -⟩ := h.within_motion hsound hrun hplaced
      exact hstart.add hduration (by decide)
    rw [hscene, Cast.scene] at hfinish ⊢
    dsimp only at hfinish ⊢
    unfold Output.duration
    split
    · rw [later]
      split
      · exact hfinish.1
      · exact hcanvas
    · exact hcanvas
  · obtain ⟨token, htoken, hmade⟩ := exists_token_of_mem_objects hrun hobject
    obtain ⟨-, -, -, heq⟩ := Token.id_of_object hmade
    obtain ⟨v, -, hwithin⟩ := (h.invariant hsound).of_mem_delivered htoken
    exact (hwithin.insertTime time (heq ▸ htime)).1
  · obtain ⟨hstart, hduration, hendpoints⟩ := h.within_motion hsound hrun hplaced
    exact ⟨hstart.1, hduration.1, (hmeasured.motion placed hplaced).endpoints.isFinite_iff.mpr
      (Endpoints.level_of_moderate hendpoints)⟩

end Prepared

/-- Whatever a network is compiled to, with overrides and for a variant or for none: of the numbers
of the scene only times and turns can overflow, and those do not if all that they are calculated
from is far from the limit. -/
theorem Network.measured_of_outcome {net : Network} {overrides : Overrides} {limits : Limits}
    {key : Option String} {compilation : Compilation}
    (h : net.outcome overrides limits key = .ok compilation) :
    compilation.scene.Measured ∧ ∀ prepared, net.prepare limits = .ok prepared →
      prepared.Moderate overrides key → compilation.scene.IsFinite := by
  obtain ⟨prepared, hprepare, hrun⟩ := outcome_eq_ok_iff.mp h
  refine ⟨Prepared.measured_of_run hprepare hrun, fun other hother hmoderate => ?_⟩
  obtain rfl := Except.ok.inj (hprepare.symm.trans hother)
  exact hmoderate.isFinite hprepare hrun

/-! ### Times near the limit and far from it -/

instance (n : ℕ) (x : Float) : Decidable (Within n x) :=
  inferInstanceAs (Decidable (_ ∧ _))

/-- The times of `fadeThenWait` are far from the limit. -/
theorem moderate_fadeThenWait {prepared : Prepared}
    (h : fadeThenWait.prepare .standard = .ok prepared) : prepared.Moderate .empty none := by
  obtain ⟨-, output, canvas, values, -, -, rfl⟩ := Network.prepare_eq_ok_iff.mp h
  refine ⟨(by decide : fadeThenWait.size < 2 ^ 51), fun v data hkind => ?_,
    fun v data hkind => ?_, fun v data hkind => ?_⟩
  all_goals
    obtain ⟨v, hv⟩ := v
    change v < 5 at hv
    interval_cases v <;> cases hkind
  · decide +kernel
  · simp
  · intro track htrack object resolved hresolved
    obtain rfl := List.mem_singleton.mp htrack
    have hplain : Plain Track.fadeIn.extras := plain_nil
    have hview := Track.withView_of_resolveTrack rfl .empty hplain hresolved
    rw [Track.eq_of_withView_view hview]
    refine ⟨by decide +kernel, by decide +kernel, fun endpoints hendpoints => ?_⟩
    obtain ⟨first, -, hendpoints⟩ := bind_eq_ok_iff.mp hendpoints
    obtain ⟨last, -, hendpoints⟩ := bind_eq_ok_iff.mp hendpoints
    rw [← Except.ok.inj hendpoints]
    trivial

/-- So all numbers of its scene are finite. -/
theorem measured_of_outcome_fadeThenWait :
    ∃ compilation, fadeThenWait.outcome .empty .standard none = .ok compilation ∧
      compilation.scene.Measured ∧ compilation.scene.IsFinite := by
  obtain ⟨prepared, compilation, hprepare, hrun, -⟩ :=
    Prepared.exists_run_eq_ok fadeThenWait .standard .empty none (fun _ => true) (by decide +kernel)
  have houtcome := Network.outcome_eq_ok_iff.mpr ⟨prepared, hprepare, hrun⟩
  obtain ⟨hmeasured, hfinite⟩ := Network.measured_of_outcome houtcome
  exact ⟨compilation, houtcome, hmeasured,
    hfinite prepared hprepare (moderate_fadeThenWait hprepare)⟩

/-- The circle `c` waits in the animation node `a` and in the insert node `i`, each time nearly as
long as it can. -/
def longWait : Network :=
  .ofLinks
    #[⟨⟨"c"⟩, "", .geometry .plainCircle⟩, ⟨⟨"a"⟩, "", .animation ⟨[], some 1e308⟩⟩,
      ⟨⟨"i"⟩, "", .insert ⟨.always, 1e308⟩⟩, ⟨⟨"s"⟩, "", .terminal .video .small⟩]
    [⟨⟨⟨"e1"⟩, ⟨"c"⟩, ⟨""⟩, ⟨"a"⟩, ⟨""⟩⟩, 0, 1⟩, ⟨⟨⟨"e2"⟩, ⟨"a"⟩, ⟨""⟩, ⟨"i"⟩, ⟨""⟩⟩, 1, 2⟩,
      ⟨⟨⟨"e3"⟩, ⟨"i"⟩, ⟨""⟩, ⟨"s"⟩, ⟨""⟩⟩, 2, 3⟩]
    [] ⟨0, 0⟩

/-- The time at which the circle is placed is infinite, and there is a scene. -/
theorem exists_scene_not_isFinite :
    ¬ ∀ (net : Network) (overrides : Overrides) (limits : Limits) (key : Option String)
        (compilation : Compilation), net.outcome overrides limits key = .ok compilation →
      compilation.scene.IsFinite := by
  intro hclaim
  obtain ⟨prepared, compilation, hprepare, hrun, hcheck⟩ :=
    Prepared.exists_run_eq_ok longWait .standard .empty none
      (fun prepared => (prepared.cast .empty none).objects.any fun object =>
        object.insertTime.any fun time => !time.isFinite) (by decide +kernel)
  obtain ⟨object, hobject, htime⟩ := List.any_eq_true.mp hcheck
  have hfinite := hclaim longWait .empty .standard none compilation
    (Network.outcome_eq_ok_iff.mpr ⟨prepared, hprepare, hrun⟩)
  match hinsert : object.insertTime with
  | none => simp [hinsert] at htime
  | some time =>
    have hobject' := (Prepared.mem_objects_iff hrun).mpr hobject
    simp [hinsert, hfinite.insertTime object hobject' time hinsert] at htime

end SceneFlow
