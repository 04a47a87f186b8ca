import Mathlib
import SceneFlow.Compile.Flow
import SceneFlow.Proofs.Entries
import SceneFlow.Proofs.Except

/-!
# What animation nodes render

An animation node renders its tracks one by one, and a token that passes it gets all their motions.
The settings of a track are resolved for the object, so only the starts of its motions depend on
when its tokens come.

## Main definitions

* `Motion.SameButStart`: two motions differ in nothing but their starts.
* `Track.settingNames`: the names of the settings of a track.

## Main results

* `Track.exists_of_withView`: what a track becomes with the settings of a view.
* `Animation.render_fst_eq_ok_iff`: tracks are rendered one by one.
* `Animation.map_kind_of_render`: the motions are of the kinds of the tracks.
* `Animation.render_congr`: the motions of an object differ in nothing but their starts.
* `Animation.animate_fst_eq_some_iff`: what becomes of a token that passes an animation node.
-/

namespace SceneFlow

/-- Two motions differ in nothing but their starts. -/
def Motion.SameButStart (motion other : Motion) : Prop :=
  { motion with start := other.start } = other

/-- The motions of a track from different points of time differ in nothing but their starts. -/
theorem Track.sameButStart_of_motion {track : Track} {baseline baseline' : Float}
    {motion motion' : Motion} (h : track.motion baseline = .ok motion)
    (h' : track.motion baseline' = .ok motion') : motion.SameButStart motion' := by
  rw [Track.motion] at h h'
  split at h
  · rename_i endpoints hendpoints
    rw [hendpoints] at h'
    cases h
    cases h'
    rfl
  · cases h

namespace Track

variable {track resolved : Track} {view : Entries Json}

/-- The names of the settings of a track in its view. -/
def settingNames : List String :=
  ["start_offset", "duration", "easing"]

/-- With the settings of a view a track has finite times and holds what the view holds besides. -/
theorem exists_of_withView (h : track.withView view = .ok resolved) :
    ∃ startOffset duration easing, startOffset.isFinite = true ∧ duration.isFinite = true ∧
      ¬ duration < 0 ∧ resolved = { track with
        startOffset, duration, easing, properties := settingNames.foldl Entries.erase view } := by
  obtain ⟨startOffset, -, h⟩ := bind_eq_ok_iff.mp h
  obtain ⟨duration, -, h⟩ := bind_eq_ok_iff.mp h
  dsimp only at h
  -- The easing is read or kept, and either way the times are checked.
  split at h <;>
  · obtain ⟨easing, -, h⟩ := bind_eq_ok_iff.mp h
    split at h
    · cases h
    · rename_i hstart
      split at h
      · cases h
      · rename_i hduration
        simp only [Bool.or_eq_true, Bool.not_eq_true', decide_eq_true_eq, not_or,
          Bool.not_eq_false] at hstart hduration
        exact ⟨startOffset, duration, easing, hstart, hduration.1, hduration.2,
          (Except.ok.inj h).symm⟩

/-- The settings of a track do not change its kind. -/
theorem kind_of_withView (h : track.withView view = .ok resolved) :
    resolved.kind = track.kind := by
  obtain ⟨_, _, _, -, -, -, rfl⟩ := exists_of_withView h
  rfl

/-- What a track holds besides its settings is what the view holds. -/
theorem get?_properties_of_withView (h : track.withView view = .ok resolved) {name : String}
    (hname : name ∉ settingNames) : resolved.properties.get? name = view.get? name := by
  obtain ⟨_, _, _, -, -, -, rfl⟩ := exists_of_withView h
  rw [Entries.get?_foldl_erase, if_neg hname]

variable {baseline : Float} {motion : Motion}

/-- The motion of a track has its settings and the endpoints that are read. -/
theorem motion_eq_ok_iff : track.motion baseline = .ok motion ↔
    ∃ endpoints, Endpoints.ofFields track.kind track.properties = .ok endpoints ∧
      motion = ⟨track.kind, baseline + track.startOffset, track.duration, track.easing,
        endpoints⟩ := by
  rw [Track.motion]
  cases Endpoints.ofFields track.kind track.properties <;> simp [eq_comm]

/-- A motion is of the kind of its track and lasts as long. -/
theorem of_motion_eq_ok (h : track.motion baseline = .ok motion) :
    motion.kind = track.kind ∧ motion.duration = track.duration := by
  obtain ⟨_, -, rfl⟩ := motion_eq_ok_iff.mp h
  exact ⟨rfl, rfl⟩

end Track

namespace Animation

variable {resolver : Resolver} {object : NodeId} {baseline baseline' : Float}

/-- Tracks are rendered one by one. -/
theorem render_fst_eq_ok_iff {tracks : List Track} {rendered : List (Track × Motion)} :
    (render resolver object baseline tracks).1 = .ok rendered ↔
      List.Forall₂ (fun track r => (resolveTrack resolver object track).1 = .ok r.1 ∧
        r.1.motion baseline = .ok r.2) tracks rendered := by
  induction tracks generalizing rendered with
  | nil =>
    rw [List.forall₂_nil_left_iff, render, Except.ok.injEq, eq_comm]
  | cons track tracks ih =>
    rw [List.forall₂_cons_left_iff, render]
    rcases hresolve : resolveTrack resolver object track with ⟨problem | resolved, stale⟩
    · simp [Except.mapError, Bind.bind, Except.bind]
    · cases hmotion : resolved.motion baseline with
      | error problem => simp [Except.mapError, Bind.bind, Except.bind, hmotion]
      | ok motion =>
        simp only [Except.mapError, Bind.bind, Except.bind, hmotion]
        rw [map_eq_ok_iff]
        constructor
        · rintro ⟨rest, hrest, rfl⟩
          exact ⟨_, rest, ⟨rfl, hmotion⟩, ih.mp hrest, rfl⟩
        · rintro ⟨⟨resolved', motion'⟩, rest, ⟨hresolved, hmotion'⟩, hrest, rfl⟩
          cases hresolved
          cases hmotion.symm.trans hmotion'
          exact ⟨rest, ih.mpr hrest, rfl⟩

/-- The motions are of the kinds of the tracks. -/
theorem map_kind_of_render {tracks : List Track} {rendered : List (Track × Motion)}
    (h : (render resolver object baseline tracks).1 = .ok rendered) :
    rendered.map (fun r => r.2.kind) = tracks.map Track.kind := by
  rw [render_fst_eq_ok_iff] at h
  induction h with
  | nil => rfl
  | cons hr _ ih =>
    rw [List.map_cons, List.map_cons, ih, (Track.of_motion_eq_ok hr.2).1,
      Track.kind_of_withView hr.1]

/-- The tracks of an object have the same settings at any time, and their motions differ in
nothing but their starts. -/
theorem render_congr {tracks : List Track} {rendered rendered' : List (Track × Motion)}
    (h : (render resolver object baseline tracks).1 = .ok rendered)
    (h' : (render resolver object baseline' tracks).1 = .ok rendered') :
    List.Forall₂ (fun r r' => r.2.SameButStart r'.2) rendered rendered' := by
  rw [render_fst_eq_ok_iff] at h h'
  induction h generalizing rendered' with
  | nil =>
    cases h'
    exact .nil
  | cons hr _ ih =>
    cases h' with
    | cons hr' hrest' =>
      refine .cons ?_ (ih hrest')
      have hresolved := Except.ok.inj (hr.1.symm.trans hr'.1)
      exact Track.sameButStart_of_motion hr.2 (hresolved ▸ hr'.2)

/-- What becomes of a token that passes an animation node. -/
theorem animate_fst_eq_some_iff {animation : Animation} {node : NodeId} {token result : Token} :
    (animation.animate resolver node token).1 = some result ↔
      ∃ rendered, (render resolver token.name token.cursor animation.tracks).1 = .ok rendered ∧
        result = { token with
          cursor := token.cursor + animation.span (rendered.map Prod.fst)
          motions := token.motions ++
            rendered.zipIdx.map fun ((_, motion), slot) => (⟨node, slot⟩, motion) } := by
  rw [animate]
  rcases render resolver token.name token.cursor animation.tracks with ⟨problem | rendered, stale⟩
  · simp
  · simp [eq_comm]

end Animation

end SceneFlow
