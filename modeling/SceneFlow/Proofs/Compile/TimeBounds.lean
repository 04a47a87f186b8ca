import Mathlib
import SceneFlow.Proofs.Compile.DeadEnds
import SceneFlow.Proofs.Compile.Numbers
import SceneFlow.Proofs.Decimal.Style
import SceneFlow.Proofs.Motion.Latest

/-!
# The bounds of a scene in time

The duration of a scene is that of its canvas, which a video stretches to the end of its last
motion. Motions that start before the scene or end behind it are left as they are, and there is a
warning about them. Equal warnings are told once, so a warning belongs to all motions of one kind
and one object that exceed the scene by the same; it belongs to no others, since a message shows the
times that it is about.

## Main definitions

* `Finding.isOfTime`: the findings about motions that exceed the scene.

## Main results

* `Finding.eq_early_of_diagnostic_eq`, `Finding.eq_late_of_diagnostic_eq`: what a warning about a
  motion tells.
* `Network.times_of_outcome`: the duration of a scene, its warnings and its motions.
-/

namespace SceneFlow

/-! ### What messages show -/

/-- A message shows a time that is finite or the infinity behind all times. -/
theorem eq_of_render_messageNumber {x y : Float} (hx : x.isFinite = true ∨ x = endless)
    (hy : y.isFinite = true ∨ y = endless)
    (h : messageNumber.render x = messageNumber.render y) : x = y := by
  have hendless : messageNumber.render endless = "inf" := by decide +kernel
  have hother : ∀ z : Float, z.isFinite = true → messageNumber.render z ≠ "inf" := by
    intro z hz heq
    have hmem : 'i' ∈ (messageNumber.render z).toList := by
      rw [heq]
      decide
    exact absurd (Decimal.Style.isNumeral_of_mem_render hz hmem) (by decide)
  rcases hx with hx | rfl <;> rcases hy with hy | rfl
  · exact Decimal.Style.render_inj hx hy h
  · exact absurd (h.trans hendless) (hother x hx)
  · exact absurd (h.symm.trans hendless) (hother y hy)
  · rfl

/-- The names of kinds begin differently. -/
theorem TrackKind.eq_of_name_append {kind other : TrackKind} {rest rest' : String}
    (h : kind.name ++ rest = other.name ++ rest') : kind = other := by
  have hhead := congrArg (fun text : String => text.toList.head?) h
  cases kind <;> cases other <;> first | rfl | simp [name] at hhead

/-- When a motion ends is finite or the infinity behind all times. -/
theorem Motion.Measured.finish {motion : Motion} (h : motion.Measured) :
    motion.finish.isFinite = true ∨ motion.finish = endless :=
  h.isSpan.isFinite_or_eq_add h.duration h.start

namespace Finding

/-- Whether a finding tells that a motion exceeds the scene. -/
def isOfTime : Finding → Bool
  | early _ | late _ _ => true
  | _ => false

variable {finding : Finding} {placed : ObjectMotion} {duration : Float}

/-- Only motions that exceed the scene are warned of as its other problems are reported. -/
theorem isOfTime_of_diagnostic (hcode : finding.diagnostic.code = .sceneValidationFailed)
    (hseverity : finding.diagnostic.severity = .warning) : finding.isOfTime = true := by
  cases finding with
  | early _ | late _ _ => rfl
  | unresolved cause => cases cause <;> simp [diagnostic, error, QueryError.code] at hcode hseverity
  | _ => simp [diagnostic, error, StaleBinding.diagnostic] at hcode hseverity

/-- A warning that a motion starts early is told of motions that start at the same time. -/
theorem eq_early_of_diagnostic_eq (h : finding.diagnostic = (early placed).diagnostic) :
    ∃ other, finding = early other ∧ (other.motion.Measured → placed.motion.Measured →
      other.motion.start = placed.motion.start) := by
  have htime := isOfTime_of_diagnostic (congrArg Diagnostic.code h)
    (congrArg Diagnostic.severity h)
  have hsuggestions := congrArg Diagnostic.suggestions h
  have hnodes := congrArg Diagnostic.nodes h
  have hmessage := congrArg Diagnostic.message h
  cases finding with
  | early other =>
    refine ⟨other, rfl, fun hother hplaced => ?_⟩
    have hobject : other.object = placed.object := (List.cons.inj hnodes).1
    simp only [diagnostic, hobject, String.append_assoc] at hmessage
    rw [TrackKind.eq_of_name_append hmessage] at hmessage
    simp only [String.append_right_inj, String.append_left_inj] at hmessage
    exact eq_of_render_messageNumber hother.start hplaced.start hmessage
  | late _ _ => simp [diagnostic] at hsuggestions
  | _ => cases htime

/-- A warning that a motion ends late is told of motions that end at the same time. -/
theorem eq_late_of_diagnostic_eq (h : finding.diagnostic = (late placed duration).diagnostic) :
    ∃ other duration', finding = late other duration' ∧ (duration' = duration →
      other.motion.Measured → placed.motion.Measured →
        other.motion.finish = placed.motion.finish) := by
  have htime := isOfTime_of_diagnostic (congrArg Diagnostic.code h)
    (congrArg Diagnostic.severity h)
  have hsuggestions := congrArg Diagnostic.suggestions h
  have hnodes := congrArg Diagnostic.nodes h
  have hmessage := congrArg Diagnostic.message h
  cases finding with
  | late other duration' =>
    refine ⟨other, duration', rfl, fun hduration hother hplaced => ?_⟩
    have hobject : other.object = placed.object := (List.cons.inj hnodes).1
    simp only [diagnostic, hobject, hduration, String.append_assoc] at hmessage
    rw [TrackKind.eq_of_name_append hmessage] at hmessage
    simp only [String.append_right_inj, String.append_left_inj] at hmessage
    exact eq_of_render_messageNumber hother.finish hplaced.finish hmessage
  | early _ => simp [diagnostic] at hsuggestions
  | _ => cases htime

end Finding

/-! ### What is told of the times of motions -/

theorem early_mem_timeFindings_iff {duration : Float} {motions : List ObjectMotion}
    {placed : ObjectMotion} :
    .early placed ∈ motions.flatMap (ObjectMotion.timeFindings duration) ↔
      placed ∈ motions ∧ placed.motion.start < 0 := by
  rw [List.mem_flatMap]
  constructor
  · rintro ⟨other, hother, hmem⟩
    rcases List.mem_append.mp hmem with hmem | hmem <;> split at hmem
    · rename_i hearly
      obtain rfl := Finding.early.inj (List.mem_singleton.mp hmem)
      exact ⟨hother, hearly⟩
    all_goals simp at hmem
  · rintro ⟨hplaced, hearly⟩
    exact ⟨placed, hplaced, List.mem_append_left _ (by rw [if_pos hearly]; simp)⟩

theorem late_mem_timeFindings_iff {duration duration' : Float} {motions : List ObjectMotion}
    {placed : ObjectMotion} :
    .late placed duration' ∈ motions.flatMap (ObjectMotion.timeFindings duration) ↔
      placed ∈ motions ∧ duration + endTolerance < placed.motion.finish ∧ duration' = duration := by
  rw [List.mem_flatMap]
  constructor
  · rintro ⟨other, hother, hmem⟩
    rcases List.mem_append.mp hmem with hmem | hmem <;> split at hmem
    · simp at hmem
    · simp at hmem
    · rename_i hlate
      obtain ⟨rfl, rfl⟩ := Finding.late.inj (List.mem_singleton.mp hmem)
      exact ⟨hother, hlate, rfl⟩
    · simp at hmem
  · rintro ⟨hplaced, hlate, rfl⟩
    exact ⟨placed, hplaced, List.mem_append_right _ (by rw [if_pos hlate]; simp)⟩

namespace Network

/-- No flow finds that a motion exceeds the scene. -/
theorem isOfTime_of_mem_findings_flow {net : Network} {settings : FlowSettings} {finding : Finding}
    (h : finding ∈ (net.flow settings).findings) : finding.isOfTime = false := by
  have hflow := isOfFlow_of_mem_findings_flow h
  cases finding <;> first | rfl | cases hflow

end Network

namespace Prepared

variable {net : Network} {limits : Limits} {prepared : Prepared} {overrides : Overrides}
  {key : Option String} {compilation : Compilation}

section Run

variable (hprepare : net.prepare limits = .ok prepared)
  (hrun : prepared.run overrides key = .ok compilation)
include hprepare hrun

/-- What is told of the times of motions is found when the scene is put together. -/
theorem mem_told_iff_of_isOfTime {finding : Finding} (htime : finding.isOfTime = true) :
    finding ∈ prepared.told overrides key ↔ finding ∈
      compilation.scene.animations.flatMap
        (ObjectMotion.timeFindings compilation.scene.duration) := by
  obtain ⟨hfound, -, hscene⟩ := of_run_eq_ok hrun
  have hstage : prepared.stage overrides key = prepared.cast overrides key := by
    rw [stage, if_neg (by simp [(Finding.noError_iff_any _).mp hfound])]
  have hlate : ((prepared.stage overrides key).scene prepared.output prepared.canvas).2 =
      compilation.scene.animations.flatMap
        (ObjectMotion.timeFindings compilation.scene.duration) := by
    rw [hstage, hscene]
    rfl
  rw [told, hlate, List.mem_append]
  refine or_iff_right fun hother => ?_
  simp only [found, Network.deliveryFindings, List.mem_append] at hother
  rcases hother with ((hother | hother) | hother | hother) | hother
  · obtain ⟨hsound, _, _, _, -, -, rfl⟩ := Network.prepare_eq_ok_iff.mp hprepare
    obtain ⟨_, -, rfl⟩ := Network.eq_dangling_of_mem_findings hother
      ((Network.sound_iff limits net).mpr hsound finding hother)
    cases htime
  · cases htime.symm.trans (Network.isOfTime_of_mem_findings_flow hother)
  · obtain ⟨_, -, rfl⟩ := (Network.mem_repeatedDeliveries_iff _ _ _).mp hother
    cases htime
  · obtain ⟨_, -, rfl⟩ := List.mem_map.mp hother
    cases htime
  · rw [hstage] at hother
    obtain ⟨_, rfl⟩ | ⟨_, _, _, rfl⟩ := Cast.stale_or_badTransform_of_mem_findings hother <;>
      cases htime

/-- A motion is warned of as early exactly if it starts before the scene. -/
theorem early_mem_warnings_iff {placed : ObjectMotion}
    (hplaced : placed ∈ compilation.scene.animations) :
    (Finding.early placed).diagnostic ∈ compilation.warnings ↔ placed.motion.start < 0 := by
  have hmeasured := (measured_of_run hprepare hrun).motion
  rw [mem_warnings_iff hrun]
  constructor
  · rintro ⟨finding, htold, heq⟩
    obtain ⟨other, rfl, hstart⟩ := Finding.eq_early_of_diagnostic_eq heq
    rw [mem_told_iff_of_isOfTime hprepare hrun rfl, early_mem_timeFindings_iff] at htold
    rw [← hstart (hmeasured other htold.1) (hmeasured placed hplaced)]
    exact htold.2
  · intro hearly
    refine ⟨.early placed, ?_, rfl⟩
    rw [mem_told_iff_of_isOfTime hprepare hrun rfl, early_mem_timeFindings_iff]
    exact ⟨hplaced, hearly⟩

/-- A motion is warned of as late exactly if it ends behind the scene. -/
theorem late_mem_warnings_iff {placed : ObjectMotion}
    (hplaced : placed ∈ compilation.scene.animations) :
    (Finding.late placed compilation.scene.duration).diagnostic ∈ compilation.warnings ↔
      compilation.scene.duration + endTolerance < placed.motion.finish := by
  have hmeasured := (measured_of_run hprepare hrun).motion
  rw [mem_warnings_iff hrun]
  constructor
  · rintro ⟨finding, htold, heq⟩
    obtain ⟨other, duration, rfl, hfinish⟩ := Finding.eq_late_of_diagnostic_eq heq
    rw [mem_told_iff_of_isOfTime hprepare hrun rfl, late_mem_timeFindings_iff] at htold
    obtain ⟨hother, hlate, hduration⟩ := htold
    rw [← hfinish hduration (hmeasured other hother) (hmeasured placed hplaced)]
    exact hlate
  · intro hlate
    refine ⟨.late placed compilation.scene.duration, ?_, rfl⟩
    rw [mem_told_iff_of_isOfTime hprepare hrun rfl, late_mem_timeFindings_iff]
    exact ⟨hplaced, hlate, rfl⟩

/-- The duration of a video is the latest of that of its canvas and the ends of its motions. -/
theorem isGreatest_duration (hvideo : compilation.scene.output = .video) :
    IsGreatest {time | time = prepared.canvas.duration ∨
      ∃ placed ∈ compilation.scene.animations, time = placed.motion.finish}
      compilation.scene.duration := by
  obtain ⟨-, -, hspan⟩ := isFinite_canvas hprepare
  have hmeasured := (measured_of_run hprepare hrun).motion
  have htimes : ∀ time ∈ compilation.scene.animations.map fun placed => placed.motion.finish,
      time.isNaN = false := by
    intro time htime
    obtain ⟨placed, hplaced, rfl⟩ := List.mem_map.mp htime
    rcases (hmeasured placed hplaced).finish with hfinite | hendless
    · exact isNaN_of_isFinite hfinite
    · rw [hendless]
      decide +kernel
  obtain ⟨-, -, hscene⟩ := of_run_eq_ok hrun
  have hduration : compilation.scene.duration = later prepared.canvas.duration
      ((compilation.scene.animations.map fun placed => placed.motion.finish).foldl later 0) := by
    rw [hscene, Cast.scene] at hvideo ⊢
    dsimp only at hvideo ⊢
    rw [hvideo, Output.duration, List.foldl_map]
  rw [hduration]
  simpa only [List.mem_map, eq_comm] using isGreatest_later hspan htimes

end Run

/-- That of an image is the duration of its canvas. -/
theorem duration_of_image (hrun : prepared.run overrides key = .ok compilation)
    (himage : compilation.scene.output = .image) :
    compilation.scene.duration = prepared.canvas.duration := by
  obtain ⟨-, -, hscene⟩ := of_run_eq_ok hrun
  rw [hscene, Cast.scene] at himage ⊢
  dsimp only at himage ⊢
  rw [himage, Output.duration]

end Prepared

/-- Whatever a network is compiled to, with overrides and for a variant or for none: the duration of
a video is the latest of the duration of its canvas and the ends of its motions, and that of an
image is the duration of its canvas. There is a warning that a motion starts before the scene
exactly if it does, and one that it ends behind the scene exactly if it does by more than the
tolerance. No motion is changed or left out for this: the motions of the scene are those of the
delivered tokens, each starts at the time of the token that it was rendered for, as much later as
its track says, and lasts as long as this says, and they are the same for any other medium and
duration. -/
theorem Network.times_of_outcome {net : Network} {overrides : Overrides} {limits : Limits}
    {key : Option String} {compilation : Compilation}
    (h : net.outcome overrides limits key = .ok compilation) :
    ∃ prepared, net.prepare limits = .ok prepared ∧
      net.terminal? = some (compilation.scene.output, prepared.canvas) ∧
      (compilation.scene.output = .video →
        IsGreatest {time | time = prepared.canvas.duration ∨
          ∃ placed ∈ compilation.scene.animations, time = placed.motion.finish}
          compilation.scene.duration) ∧
      (compilation.scene.output = .image →
        compilation.scene.duration = prepared.canvas.duration) ∧
      (∀ placed ∈ compilation.scene.animations,
        ((Finding.early placed).diagnostic ∈ compilation.warnings ↔ placed.motion.start < 0) ∧
        ((Finding.late placed compilation.scene.duration).diagnostic ∈ compilation.warnings ↔
          compilation.scene.duration + endTolerance < placed.motion.finish)) ∧
      compilation.scene.animations.Perm
        ((prepared.flow overrides key).delivered.flatMap Token.objectMotions) ∧
      (∀ placed ∈ compilation.scene.animations, ∃ u token m data track resolved,
        prepared.network.EmittedFor (prepared.flowSettings overrides key) u token
          placed.object m ∧ m.2 = placed.motion ∧
        (prepared.network.node u).kind = .animation data ∧ data.tracks[m.1.slot]? = some track ∧
        (Animation.resolveTrack (prepared.resolver overrides key) token.name track).1 =
          .ok resolved ∧
        placed.motion.start = token.cursor + resolved.startOffset ∧
        placed.motion.duration = resolved.duration) ∧
      ∀ output duration, ∃ other,
        { prepared with output, canvas := { prepared.canvas with duration } }.run overrides key =
          .ok other ∧ other.scene.animations = compilation.scene.animations := by
  obtain ⟨prepared, hprepare, hrun⟩ := outcome_eq_ok_iff.mp h
  obtain ⟨hfound, hcast, hscene⟩ := Prepared.of_run_eq_ok hrun
  refine ⟨prepared, hprepare, ?_, Prepared.isGreatest_duration hprepare hrun,
    Prepared.duration_of_image hrun, fun placed hplaced =>
      ⟨Prepared.early_mem_warnings_iff hprepare hrun hplaced,
        Prepared.late_mem_warnings_iff hprepare hrun hplaced⟩, ?_, fun placed hplaced => ?_,
    fun output duration => ?_⟩
  · obtain ⟨-, output, canvas, values, hterminal, -, rfl⟩ := prepare_eq_ok_iff.mp hprepare
    rw [hscene]
    exact hterminal
  · rw [hscene, ← Cast.motions_eq hcast]
    exact List.mergeSort_perm _ _
  · obtain ⟨u, token, m, hemitted, hm⟩ := Prepared.exists_emitted_of_mem_animations hrun hplaced
    obtain ⟨-, data, track, resolved, hkind, htrack, hresolved, hmotion⟩ := hemitted.renders
    obtain ⟨endpoints, -, heq⟩ := Track.motion_eq_ok_iff.mp hmotion
    refine ⟨u, token, m, data, track, resolved, hemitted, hm, hkind, htrack, hresolved, ?_, ?_⟩ <;>
      rw [← hm, heq]
  · obtain ⟨other, hother, hanimations⟩ := (Prepared.exists_run_eq_ok_iff
      { prepared with output, canvas := { prepared.canvas with duration } } overrides key _).mpr
        ⟨hfound, hcast, rfl⟩
    refine ⟨other, hother, ?_⟩
    rw [hanimations, hscene]
    rfl

/-! ### A motion that exceeds its scene -/

/-- The circle `c` begins to fade in one second before an image that takes no time, and ends two
seconds behind it. -/
def fadeAround : Network :=
  .ofLinks
    #[⟨⟨"c"⟩, "", .geometry .plainCircle⟩,
      ⟨⟨"f"⟩, "", .animation ⟨[⟨none, .fade, -1, 3, .linear, []⟩], none⟩⟩,
      ⟨⟨"s"⟩, "", .terminal .image .small⟩]
    [⟨⟨⟨"e1"⟩, ⟨"c"⟩, ⟨""⟩, ⟨"f"⟩, ⟨""⟩⟩, 0, 1⟩, ⟨⟨⟨"e2"⟩, ⟨"f"⟩, ⟨""⟩, ⟨"s"⟩, ⟨""⟩⟩, 1, 2⟩]
    [] ⟨0, 0⟩

/-- Both are warned of. -/
theorem times_of_outcome_fadeAround :
    ∃ compilation, fadeAround.outcome .empty .standard none = .ok compilation ∧
      compilation.scene.duration = 0 ∧ ∃ placed ∈ compilation.scene.animations,
        (Finding.early placed).diagnostic ∈ compilation.warnings ∧
        (Finding.late placed compilation.scene.duration).diagnostic ∈ compilation.warnings := by
  obtain ⟨prepared, compilation, hprepare, hrun, hcheck⟩ :=
    Prepared.exists_run_eq_ok fadeAround .standard .empty none
      (fun prepared => (prepared.cast .empty none).motions.any fun placed =>
        placed.motion.start < 0 && 0 + endTolerance < placed.motion.finish) (by decide +kernel)
  have houtcome := Network.outcome_eq_ok_iff.mpr ⟨prepared, hprepare, hrun⟩
  obtain ⟨other, hother, hterminal, -, himage, hwarnings, -⟩ := Network.times_of_outcome houtcome
  obtain ⟨houtput, hcanvas⟩ := Prod.mk.inj (Option.some.inj hterminal)
  have hduration : compilation.scene.duration = 0 := by
    rw [himage houtput.symm, ← hcanvas]
    rfl
  obtain ⟨placed, hplaced, hexceeds⟩ := List.any_eq_true.mp hcheck
  rw [Bool.and_eq_true, decide_eq_true_iff, decide_eq_true_iff] at hexceeds
  have hmem : placed ∈ compilation.scene.animations := by
    rw [(Prepared.of_run_eq_ok hrun).2.2, Cast.scene, List.mem_mergeSort]
    exact hplaced
  obtain ⟨hearly, hlate⟩ := hwarnings placed hmem
  exact ⟨compilation, houtcome, hduration, placed, hmem, hearly.mpr hexceeds.1,
    hlate.mpr (hduration ▸ hexceeds.2)⟩

end SceneFlow
