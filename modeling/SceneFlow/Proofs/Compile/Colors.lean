import Mathlib
import SceneFlow.Proofs.Color
import SceneFlow.Proofs.Compile.Ownership
import SceneFlow.Proofs.Override.RoundTrip

/-!
# The colours of a scene

A scene shows colours in two places, as its background and as the endpoints of the motions that
animate colours. Both are written anew: the background, which validation has read before, from the
canvas of the terminal, and an endpoint from the value that its field has for the object that the
motion was rendered for, wherever this value comes from. So all of them have one form, and stand for
the colours that they were written from.

## Main definitions

* `Resolver.WritesField`: a text is how the colour that a field of a track has for an object is
  written.

## Main results

* `Prepared.writes_background`: how the background of a scene is written.
* `Network.colors_of_outcome`: how all colours of a scene are written.
-/

namespace SceneFlow

/-! ### Fields that hold colours -/

/-- A colour that is read from a field has been written anew. -/
theorem Field.color_eq_ok_iff {view : Entries Json} {name output : String} :
    Field.color view name = .ok output ↔
      ∃ input, view.get? name = some (.str input) ∧ Color.Writes input output := by
  rw [Field.color]
  cases hfound : view.get? name with
  | none => simp
  | some found =>
    cases found with
    | str input =>
      simp only [Color.writes_iff, Color.normalize, Option.some.injEq, Json.str.injEq,
        exists_eq_left']
      cases Color.parse input <;> simp [Except.map]
    | _ => simp

/-- A text is how the colour is written that a field of a track has for an object. -/
def Resolver.WritesField (resolver : Resolver) (object : NodeId) (track : Track)
    (name output : String) : Prop :=
  ∃ input, resolver.fieldValue? (FieldPath.join FieldPath.timeline track.key).text track.view
    (.object object) name = some (.str input) ∧ Color.Writes input output

section Tracks

variable {resolver : Resolver} {object : NodeId} {track resolved : Track}
  (hresolved : (Animation.resolveTrack resolver object track).1 = .ok resolved)
include hresolved

/-- A colour that is read from a resolved track is that of the value that its field has. -/
theorem Resolver.writesField_of_color {name output : String} (hname : name ∉ Track.settingNames)
    (hdot : '.' ∉ name.toList) (h : Field.color resolved.properties name = .ok output) :
    resolver.WritesField object track name output := by
  obtain ⟨input, hinput, hwrites⟩ := Field.color_eq_ok_iff.mp h
  rw [Track.get?_properties_of_withView hresolved hname] at hinput
  exact ⟨input, fieldValue?_of_get?_view hdot hinput rfl, hwrites⟩

/-- A motion that animates a colour leads from the one colour of its track to the other. -/
theorem Track.exists_color_of_motion {baseline : Float} {motion : Motion}
    (hmotion : resolved.motion baseline = .ok motion) (hkind : motion.kind = .color) :
    ∃ property first last, motion.endpoints = .color property first last ∧
      resolver.WritesField object track "from" first ∧
      resolver.WritesField object track "to" last := by
  obtain ⟨endpoints, hendpoints, rfl⟩ := motion_eq_ok_iff.mp hmotion
  rw [show resolved.kind = .color from hkind] at hendpoints
  obtain ⟨property, -, hendpoints⟩ := bind_eq_ok_iff.mp hendpoints
  obtain ⟨first, hfirst, hendpoints⟩ := bind_eq_ok_iff.mp hendpoints
  obtain ⟨last, hlast, hendpoints⟩ := bind_eq_ok_iff.mp hendpoints
  exact ⟨property, first, last, (Except.ok.inj hendpoints).symm,
    Resolver.writesField_of_color hresolved (by decide) (by decide) hfirst,
    Resolver.writesField_of_color hresolved (by decide) (by decide) hlast⟩

end Tracks

/-! ### Scenes -/

/-- Validation has read the background of a terminal. -/
theorem NodeKind.exists_parse_background {limits : Limits} {node : Node} {output : Output}
    {canvas : Canvas} (hkind : node.kind = .terminal output canvas)
    (h : Network.nodeFindings limits node = []) :
    ∃ color, Color.parse canvas.background = .ok color := by
  rw [Network.nodeFindings, List.append_eq_nil_iff] at h
  obtain ⟨-, hbackground⟩ := h
  rw [hkind] at hbackground
  cases hparse : Color.parse canvas.background with
  | ok color => exact ⟨color, rfl⟩
  | error cause => simp [hparse] at hbackground

/-- How the background of a scene is written. -/
theorem Prepared.writes_background {net : Network} {limits : Limits} {prepared : Prepared}
    {overrides : Overrides} {key : Option String} {compilation : Compilation}
    (hprepare : net.prepare limits = .ok prepared)
    (hrun : prepared.run overrides key = .ok compilation) :
    Color.Writes prepared.canvas.background compilation.scene.background := by
  obtain ⟨hsound, output, canvas, values, hterminal, -, rfl⟩ :=
    Network.prepare_eq_ok_iff.mp hprepare
  obtain ⟨v, output', canvas', hkind, -, hterminal'⟩ := hsound.exists_terminal
  obtain ⟨rfl, rfl⟩ := Prod.mk.inj (Option.some.inj (hterminal'.symm.trans hterminal))
  obtain ⟨color, hparse⟩ := NodeKind.exists_parse_background hkind (hsound.nodes v)
  obtain ⟨-, -, hscene⟩ := of_run_eq_ok hrun
  rw [Color.writes_iff, Color.normalize, hscene, Cast.scene]
  dsimp only
  rw [hparse]
  rfl

/-- Whatever a network is compiled to, with overrides and for a variant or for none: the background
is how the colour of the canvas of its terminal is written. A motion that animates a colour was
emitted for a token at the animation node of a track, and leads between two colours, each of which
is how the colour is written that the field of the track has for the object of the token. So all
colours have one form, stand for the colours that they were written from, and do not change when
they are written once more; and two texts are of one colour exactly if the same is written for
them. -/
theorem Network.colors_of_outcome {net : Network} {overrides : Overrides} {limits : Limits}
    {key : Option String} {compilation : Compilation}
    (h : net.outcome overrides limits key = .ok compilation) :
    ∃ prepared, net.prepare limits = .ok prepared ∧
      (∃ output canvas, net.terminal? = some (output, canvas) ∧
        Color.Writes canvas.background compilation.scene.background) ∧
      (∀ placed ∈ compilation.scene.animations, placed.motion.kind = .color →
        ∃ property first last, placed.motion.endpoints = .color property first last ∧
          ∃ u token m data track,
            prepared.network.EmittedFor (prepared.flowSettings overrides key) u token
              placed.object m ∧ m.2 = placed.motion ∧
            (prepared.network.node u).kind = .animation data ∧
            data.tracks[m.1.slot]? = some track ∧
            (prepared.resolver overrides key).WritesField token.name track "from" first ∧
            (prepared.resolver overrides key).WritesField token.name track "to" last) ∧
      ∀ input output input' output', Color.Writes input output → Color.Writes input' output' →
        (Color.parse input = Color.parse input' ↔ output = output') := by
  obtain ⟨prepared, hprepare, hrun⟩ := outcome_eq_ok_iff.mp h
  refine ⟨prepared, hprepare, ?_, fun placed hplaced hkind => ?_,
    fun _ _ _ _ hwrites hwrites' => hwrites.parse_eq_iff hwrites'⟩
  · have hbackground := Prepared.writes_background hprepare hrun
    obtain ⟨-, output, canvas, values, hterminal, -, rfl⟩ := prepare_eq_ok_iff.mp hprepare
    exact ⟨output, canvas, hterminal, hbackground⟩
  · obtain ⟨u, token, m, hemitted, hm⟩ := Prepared.exists_emitted_of_mem_animations hrun hplaced
    obtain ⟨-, data, track, resolved, hnode, htrack, hresolved, hmotion⟩ := hemitted.renders
    obtain ⟨property, first, last, hendpoints, hfirst, hlast⟩ :=
      Track.exists_color_of_motion hresolved hmotion (hm ▸ hkind)
    exact ⟨property, first, last, hm ▸ hendpoints, u, token, m, data, track, hemitted, hm, hnode,
      htrack, hfirst, hlast⟩

/-! ### A network with colours -/

/-- The circle `c` turns from one colour into another in the light of a white background. -/
def turningCircle : Network :=
  .ofLinks
    #[⟨⟨"c"⟩, "", .geometry .plainCircle⟩,
      ⟨⟨"t"⟩, "", .animation
        ⟨[⟨none, .color, 0, 1, .linear, [("from", .str "FF0000"), ("to", .str "0000FF")]⟩], none⟩⟩,
      ⟨⟨"s"⟩, "", .terminal .image { Canvas.small with background := " FFFFFFff" }⟩]
    [⟨⟨⟨"e1"⟩, ⟨"c"⟩, ⟨""⟩, ⟨"t"⟩, ⟨""⟩⟩, 0, 1⟩, ⟨⟨⟨"e2"⟩, ⟨"t"⟩, ⟨""⟩, ⟨"s"⟩, ⟨""⟩⟩, 1, 2⟩]
    [] ⟨0, 0⟩

/-- In the variant `faded` the second colour is not opaque. -/
def fadedVariant : Overrides :=
  { Overrides.empty with
    batch := .ofList [("Timeline.color.to", ⟨some (.ofList [("faded", .str "#00FF0080 ")]), ∅⟩)] }

/-- The white background of the variant is written with lower-case digits only. -/
theorem colors_of_outcome_turningCircle :
    ∃ compilation, turningCircle.outcome fadedVariant .standard (some "faded") = .ok compilation ∧
      compilation.scene.background = "#ffffff" := by
  obtain ⟨compilation, houtcome⟩ : ∃ compilation,
      turningCircle.outcome fadedVariant .standard (some "faded") = .ok compilation :=
    Network.exists_outcome_eq_ok (by decide +kernel)
  obtain ⟨-, -, ⟨output, canvas, hterminal, hwrites⟩, -, -⟩ := Network.colors_of_outcome houtcome
  obtain ⟨-, rfl⟩ := Prod.mk.inj (Option.some.inj hterminal)
  exact ⟨compilation, houtcome,
    Except.ok.inj ((Color.writes_iff.mp hwrites).symm.trans (by decide +kernel))⟩

end SceneFlow
