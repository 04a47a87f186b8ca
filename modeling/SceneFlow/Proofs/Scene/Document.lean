import Mathlib
import SceneFlow.Proofs.Graph.Document
import SceneFlow.Scene.Basic

/-!
# Scenes as documents

The document that is written for a scene is read as the same scene. The form of endpoints is not
written: they are read in the first of four forms that they fit, and what is written for endpoints
of one form fits none of those before it. A colour names a property, an angle has turns, and of the
other two a vector leads from an object and a scalar from a number.

## Main results

* `ShapeKind.gives_restored`, `Endpoints.gives_restored`: families and endpoints are read again.
* `Scene.gives_restored`: a scene is read again, in either spelling of its document.
* `Scene.document_restored`: what that means for the parts of a scene.
-/

namespace SceneFlow

open Decoder
open Decoder.Fields (Finds Misses finds_present finds_optional misses_missing misses_mismatch
  gives_required gives_optional gives_true)

variable {V : Json → Prop} {spell : Json → Json} (h : Json.Spelling V spell)

/-! ### Names -/

theorem ShapeKind.ofName_name (name : String) : ofName (ofName name).name = ofName name := by
  simp only [ofName]
  split_ifs <;> simp_all [ShapeKind.name]

include h

theorem ShapeKind.gives_restored : Gives V ofJson (Restored spell ofJson toJson) := by
  intro value kind _ hread
  obtain ⟨name, -, rfl⟩ := map_eq_ok_iff.mp hread
  exact restored_text h (ofName_name name)

theorem Output.restored (output : Output) : Restored spell Output.ofJson Output.toJson output :=
  restored_choice h (by cases output <;> rfl)

theorem TrackKind.restored (kind : TrackKind) :
    Restored spell TrackKind.ofJson TrackKind.toJson kind :=
  restored_choice h (by cases kind <;> rfl)

theorem Ease.restored (ease : Ease) : Restored spell Ease.ofJson Ease.toJson ease :=
  restored_choice h (by cases ease <;> rfl)

/-! ### Numbers -/

theorem gives_restored_double : Gives V double (Restored spell double .ofFloat) :=
  fun value x hvalue hread => restored_double h (gives_double value x hvalue hread)

omit h in
theorem exists_num_of_double {value : Json} {x : Float} (hread : double value = .ok x) :
    ∃ n, value = .num n := by
  cases value with
  | num n => exact ⟨n, rfl⟩
  | _ => cases hread

theorem Vec2.restored {a : Vec2} (hx : Restored spell double .ofFloat a.x)
    (hy : Restored spell double .ofFloat a.y) : Restored spell Vec2.ofJson Vec2.toJson a :=
  restored_record h (by simp [Entries.keys]) <|
    .seq (.map (finds_present rfl hx)) (finds_present rfl hy)

theorem Vec2.gives_restored : Gives V Vec2.ofJson (Restored spell Vec2.ofJson Vec2.toJson) :=
  gives_record h.toInherited <|
    .seq (.map (fun _ hx _ hy => Vec2.restored h hx hy) (gives_required (gives_restored_double h)))
      (gives_required (gives_restored_double h))

/-! ### Endpoints -/

theorem Endpoints.restored_color (property first last : String) :
    Restored spell ofJson toJson (.color property first last) :=
  firstOf_cons_of_ok h (by simp [Entries.keys]) <| restored_record h (by simp [Entries.keys]) <|
    .seq (.seq (.map (finds_present rfl (restored_string h property)))
      (finds_present rfl (restored_string h first))) (finds_present rfl (restored_string h last))

theorem Endpoints.restored_angle {first last turns : Float}
    (hfirst : Restored spell double .ofFloat first) (hlast : Restored spell double .ofFloat last)
    (hturns : Restored spell double .ofFloat turns) :
    Restored spell ofJson toJson (.angle first last turns) := by
  have hkeys : (Entries.keys [("from", Json.ofFloat first), ("to", Json.ofFloat last),
      ("rotations", Json.ofFloat turns)]).Nodup := by simp [Entries.keys]
  refine (firstOf_cons_of_ne_ok (record_misses h hkeys ?_)).trans <|
    firstOf_cons_of_ok h hkeys <| restored_record h hkeys ?_
  · exact .seq_left (.seq_left (.map (misses_missing rfl)))
  · exact .seq (.seq (.map (finds_present rfl hfirst)) (finds_present rfl hlast))
      (finds_present rfl hturns)

theorem Endpoints.restored_vector {first last : Vec2}
    (hfirst : Restored spell Vec2.ofJson Vec2.toJson first)
    (hlast : Restored spell Vec2.ofJson Vec2.toJson last) :
    Restored spell ofJson toJson (.vector first last) := by
  have hkeys : (Entries.keys [("from", first.toJson), ("to", last.toJson)]).Nodup := by
    simp [Entries.keys]
  refine (firstOf_cons_of_ne_ok (record_misses h hkeys ?_)).trans <|
    (firstOf_cons_of_ne_ok (record_misses h hkeys ?_)).trans <|
    firstOf_cons_of_ok h hkeys <| restored_record h hkeys ?_
  · exact .seq_left (.seq_left (.map (misses_missing rfl)))
  · exact .seq_right (misses_missing rfl)
  · exact .seq (.map (finds_present rfl hfirst)) (finds_present rfl hlast)

theorem Endpoints.restored_scalar {first last : Float}
    (hfirst : Restored spell double .ofFloat first) (hlast : Restored spell double .ofFloat last) :
    Restored spell ofJson toJson (.scalar first last) := by
  have hkeys : (Entries.keys [("from", Json.ofFloat first), ("to", Json.ofFloat last)]).Nodup := by
    simp [Entries.keys]
  refine (firstOf_cons_of_ne_ok (record_misses h hkeys ?_)).trans <|
    (firstOf_cons_of_ne_ok (record_misses h hkeys ?_)).trans <|
    (firstOf_cons_of_ne_ok (record_misses h hkeys ?_)).trans <|
    firstOf_cons_of_ok h hkeys <| restored_record h hkeys ?_
  · exact .seq_left (.seq_left (.map (misses_missing rfl)))
  · exact .seq_right (misses_missing rfl)
  · obtain ⟨n, hn⟩ := exists_num_of_double hfirst
    refine .seq_left (.map (misses_mismatch rfl fun a ha => ?_))
    rw [hn] at ha
    cases ha
  · exact .seq (.map (finds_present rfl hfirst)) (finds_present rfl hlast)

theorem Endpoints.gives_restored : Gives V ofJson (Restored spell ofJson toJson) := by
  have hdouble := gives_restored_double h
  have hvector := Vec2.gives_restored h
  refine gives_firstOf fun form hform => ?_
  simp only [List.mem_cons, List.not_mem_nil, or_false] at hform
  rcases hform with rfl | rfl | rfl | rfl
  · exact gives_record h.toInherited <|
      .seq (.seq (.map (fun property _ first _ last _ => restored_color h property first last)
        (gives_true _)) (gives_true _)) (gives_true _)
  · exact gives_record h.toInherited <|
      .seq (.seq (.map (fun _ hfirst _ hlast _ hturns => restored_angle h hfirst hlast hturns)
        (gives_required hdouble)) (gives_required hdouble)) (gives_required hdouble)
  · exact gives_record h.toInherited <|
      .seq (.map (fun _ hfirst _ hlast => restored_vector h hfirst hlast) (gives_required hvector))
        (gives_required hvector)
  · exact gives_record h.toInherited <|
      .seq (.map (fun _ hfirst _ hlast => restored_scalar h hfirst hlast) (gives_required hdouble))
        (gives_required hdouble)

/-! ### Motions and objects -/

theorem ObjectMotion.gives_restored : Gives V ofJson (Restored spell ofJson toJson) :=
  gives_record h.toInherited <|
    .seq (.seq (.seq (.seq (.seq (.map
      (fun object _ kind _ start hstart duration hduration easing _ endpoints hendpoints =>
        restored_record h (by simp [Entries.keys]) <|
          .seq (.seq (.seq (.seq (.seq (.map (finds_present rfl (object.restored h)))
            (finds_present rfl (kind.restored h))) (finds_present rfl hstart))
            (finds_present rfl hduration)) (finds_present rfl (easing.restored h)))
            (finds_present rfl hendpoints))
      (gives_true _)) (gives_true _)) (gives_required (gives_restored_double h)))
      (gives_required (gives_restored_double h))) (gives_true _))
      (gives_required (Endpoints.gives_restored h))

theorem Transform.gives_restored : Gives V ofJson (Restored spell ofJson toJson) :=
  gives_record h.toInherited <|
    .seq (.seq (.seq (.map
      (fun position hposition rotation hrotation scale hscale opacity hopacity =>
        restored_record h (by simp [Entries.keys]) <|
          .seq (.seq (.seq (.map (finds_present rfl hposition)) (finds_present rfl hrotation))
            (finds_present rfl hscale)) (finds_present rfl hopacity))
      (gives_required (Vec2.gives_restored h))) (gives_required (gives_restored_double h)))
      (gives_required (Vec2.gives_restored h))) (gives_required (gives_restored_double h))

theorem gives_restored_time : Gives V (nullable double) fun found =>
    ∀ time, found = some time → nullable double (spell (.ofFloat time)) = .ok (some time) := by
  refine gives_nullable (fun _ htime => by cases htime) fun value time _ hvalue hread => ?_
  rintro _ ⟨⟩
  have htime := gives_restored_double h value time hvalue hread
  obtain ⟨n, hn⟩ := exists_num_of_double htime
  rw [restored_iff, hn] at htime
  rw [hn]
  exact map_eq_ok_iff.mpr ⟨time, htime, rfl⟩

theorem gives_restored_settings : Gives V (nullable any) fun found =>
    ∀ settings, found = some settings → nullable any (spell settings) = .ok (some settings) := by
  refine gives_nullable (fun _ hsettings => by cases hsettings) ?_
  rintro value _ hnull hvalue ⟨⟩ _ ⟨⟩
  rw [h.kept hvalue, nullable]
  · rfl
  · exact hnull

theorem SceneObject.restored {object : SceneObject}
    (hkind : Restored spell ShapeKind.ofJson ShapeKind.toJson object.kind)
    (htransform : Restored spell Transform.ofJson Transform.toJson object.transform)
    (hproperties : Restored spell Decoder.object .obj object.properties)
    (htime : ∀ time, object.insertTime = some time →
      nullable double (spell (.ofFloat time)) = .ok (some time)) :
    Restored spell ofJson toJson object := by
  obtain ⟨id, origin, kind, transform, properties, time⟩ := object
  cases time
  all_goals
    exact restored_record h (by simp [Entries.keys]) <|
      .seq (.seq (.seq (.seq (.seq (.map (finds_present rfl (id.restored h)))
        (finds_present rfl (origin.restored h))) (finds_present rfl hkind))
        (finds_present rfl htransform)) (finds_present rfl hproperties)) (finds_optional rfl htime)

theorem SceneObject.gives_restored : Gives V ofJson (Restored spell ofJson toJson) :=
  gives_record h.toInherited <|
    .seq (.seq (.seq (.seq (.seq (.map
      (fun _ _ _ _ _ hkind _ htransform _ hproperties _ htime =>
        restored h hkind htransform hproperties htime)
      (gives_true _)) (gives_true _)) (gives_required (ShapeKind.gives_restored h)))
      (gives_required (Transform.gives_restored h)))
      (gives_required (gives_restored_object h)))
      (gives_optional (gives_restored_time h) (by simp))

/-! ### Scenes -/

theorem Scene.restored {scene : Scene}
    (hduration : Restored spell double .ofFloat scene.duration)
    (hfps : Restored spell double .ofFloat scene.fps)
    (hvideo : ∀ settings, scene.video = some settings →
      nullable any (spell settings) = .ok (some settings))
    (hobjects : ∀ object ∈ scene.objects,
      Restored spell SceneObject.ofJson SceneObject.toJson object)
    (hanimations : ∀ placed ∈ scene.animations,
      Restored spell ObjectMotion.ofJson ObjectMotion.toJson placed) :
    Restored spell ofJson toJson scene := by
  obtain ⟨output, duration, width, height, fps, background, video, objects, animations⟩ := scene
  cases video
  all_goals
    exact restored_record h (by simp [Entries.keys]) <|
      .seq (.seq (.seq (.seq (.seq (.seq (.seq (.seq (.map (finds_present rfl (output.restored h)))
        (finds_present rfl hduration)) (finds_present rfl (restored_word h width)))
        (finds_present rfl (restored_word h height))) (finds_present rfl hfps))
        (finds_present rfl (restored_string h background))) (finds_optional rfl hvideo))
        (finds_present rfl (restored_list h hobjects)))
        (finds_present rfl (restored_list h hanimations))

theorem Scene.gives_restored : Gives V ofJson (Restored spell ofJson toJson) :=
  have hdouble := gives_restored_double h
  gives_record h.toInherited <|
    .seq (.seq (.seq (.seq (.seq (.seq (.seq (.seq (.map
      (fun _ _ _ hduration _ _ _ _ _ hfps _ _ _ hvideo _ hobjects _ hanimations =>
        restored h hduration hfps hvideo hobjects hanimations)
      (gives_true _)) (gives_required hdouble)) (gives_true _)) (gives_true _))
      (gives_required hdouble)) (gives_true _))
      (gives_optional (gives_restored_settings h) (by simp)))
      (gives_required (gives_list h.toInherited (SceneObject.gives_restored h))))
      (gives_required (gives_list h.toInherited (ObjectMotion.gives_restored h)))

/-- The families and the endpoints in a scene are each read again on their own. -/
theorem Scene.gives_parts :
    Gives V ofJson fun scene =>
      (∀ object ∈ scene.objects, Restored spell ShapeKind.ofJson ShapeKind.toJson object.kind) ∧
        ∀ placed ∈ scene.animations,
          Restored spell Endpoints.ofJson Endpoints.toJson placed.motion.endpoints := by
  have hobject : Gives V SceneObject.ofJson fun object =>
      Restored spell ShapeKind.ofJson ShapeKind.toJson object.kind :=
    gives_record h.toInherited <|
      .seq (.seq (.seq (.seq (.seq (.map (fun _ _ _ _ _ hkind _ _ _ _ _ _ => hkind) (gives_true _))
        (gives_true _)) (gives_required (ShapeKind.gives_restored h))) (gives_true _))
        (gives_true _)) (gives_true _)
  have hmotion : Gives V ObjectMotion.ofJson fun placed =>
      Restored spell Endpoints.ofJson Endpoints.toJson placed.motion.endpoints :=
    gives_record h.toInherited <|
      .seq (.seq (.seq (.seq (.seq (.map (fun _ _ _ _ _ _ _ _ _ _ _ hendpoints => hendpoints)
        (gives_true _)) (gives_true _)) (gives_true _)) (gives_true _)) (gives_true _))
        (gives_required (Endpoints.gives_restored h))
  exact gives_record h.toInherited <|
    .seq (.seq (.seq (.seq (.seq (.seq (.seq (.seq (.map
      (fun _ _ _ _ _ _ _ _ _ _ _ _ _ _ _ hobjects _ hanimations => ⟨hobjects, hanimations⟩)
      (gives_true _)) (gives_true _)) (gives_true _)) (gives_true _)) (gives_true _))
      (gives_true _)) (gives_true _)) (gives_required (gives_list h.toInherited hobject)))
      (gives_required (gives_list h.toInherited hmotion))

omit h

/-- A scene that has been read is read again, as it was, from the document that is written for it,
whether its fields stand in the order of their declaration or ascend. Its endpoints stay of the
form that they are, its families keep their names, and what was absent is not written. -/
theorem Scene.document_restored {value : Json} {scene : Scene} (h : ofJson value = .ok scene) :
    ofJson scene.toJson = .ok scene ∧
      (value.Ordered → ofJson scene.toJson.sorted = .ok scene) ∧
      (∀ placed ∈ scene.animations,
        Endpoints.ofJson placed.motion.endpoints.toJson = .ok placed.motion.endpoints) ∧
      (∀ object ∈ scene.objects, ShapeKind.ofJson object.kind.toJson = .ok object.kind) ∧
      (∃ fields, scene.toJson = .obj fields ∧ Entries.get? fields "video" = scene.video) ∧
      ∀ object ∈ scene.objects, ∃ fields, object.toJson = .obj fields ∧
        Entries.get? fields "insertTime" = object.insertTime.map .ofFloat := by
  obtain ⟨hkinds, hendpoints⟩ := gives_parts .declared value scene trivial h
  refine ⟨gives_restored .declared value scene trivial h,
    fun hvalue => gives_restored .ascending value scene hvalue h, hendpoints, hkinds,
    ⟨_, rfl, ?_⟩, fun object _ => ⟨_, rfl, ?_⟩⟩
  · cases scene.video <;> rfl
  · cases object.insertTime <;> rfl

/-- A scene with endpoints of each form and some keys that name no field. -/
def quartetScene : Json :=
  let number (x : Number) : Json := .num x
  let motion (kind : String) (endpoints : Json) : Json :=
    .obj [("duration", number (.int 2 (by decide))), ("easing", .str "linear"),
      ("objectId", .str "c1"), ("properties", endpoints),
      ("startTime", number (.real 0.5 (by decide))), ("type", .str kind)]
  .obj [("animations", .arr [
      motion "color" (.obj [("from", .str "#000000"), ("property", .str "fill"),
        ("rotations", number (.int 1 (by decide))), ("to", .str "#ffffff")]),
      motion "rotate" (.obj [("from", number (.int 0 (by decide))),
        ("property", number (.int 7 (by decide))), ("rotations", number (.int 1 (by decide))),
        ("to", number (.int 75 (by decide)))]),
      motion "move" (.obj [
        ("from", .arr [number (.int 0 (by decide)), number (.int 1 (by decide))]),
        ("to", .obj [("x", number (.int 3 (by decide))), ("y", number (.real 2.5 (by decide)))])]),
      motion "fade" (.obj [("from", number (.int 0 (by decide))),
        ("to", number (.int 1 (by decide)))])]),
    ("background", .str "#000000"), ("duration", number (.int 4 (by decide))),
    ("fps", number (.int 30 (by decide))), ("height", number (.int 720 (by decide))),
    ("objects", .arr [.obj [("id", .str "c1"), ("insertTime", .null), ("origin", .str "c1"),
      ("properties", .obj [("color", .str "#ff0000")]),
      ("transform", .arr [.arr [number (.int 1 (by decide)), number (.int 2 (by decide))],
        number (.int 0 (by decide)),
        .arr [number (.int 1 (by decide)), number (.int 1 (by decide))],
        number (.real 0.5 (by decide))]), ("type", .str "star")]]),
    ("output", .obj [("video", .null)]), ("width", number (.int 1280 (by decide)))]

theorem ordered_quartetScene : quartetScene.Ordered := by
  have hsorted : quartetScene.sorted = quartetScene := by rfl
  exact hsorted ▸ Json.ordered_sorted quartetScene

/-- The four forms of endpoints are each read again as themselves. -/
theorem Scene.document_restored_quartetScene :
    ∃ scene, ofJson quartetScene = .ok scene ∧ quartetScene.Ordered ∧
      ofJson scene.toJson = .ok scene ∧ ofJson scene.toJson.sorted = .ok scene ∧
      scene.animations.map (fun placed => placed.motion.endpoints)
        = [.color "fill" "#000000" "#ffffff", .angle 0 75 1, .vector ⟨0, 1⟩ ⟨3, 2.5⟩, .scalar 0 1] ∧
      scene.objects.map (fun object => object.kind) = [.other "star"] := by
  obtain ⟨scene, hscene, hparts⟩ : ∃ scene, ofJson quartetScene = .ok scene ∧
      scene.animations.map (fun placed => placed.motion.endpoints)
        = [.color "fill" "#000000" "#ffffff", .angle 0 75 1, .vector ⟨0, 1⟩ ⟨3, 2.5⟩, .scalar 0 1] ∧
      scene.objects.map (fun object => object.kind) = [.other "star"] := ⟨_, rfl, rfl, rfl⟩
  obtain ⟨hdeclared, hascending, -⟩ := Scene.document_restored hscene
  exact ⟨scene, hscene, ordered_quartetScene, hdeclared, hascending ordered_quartetScene, hparts⟩

end SceneFlow
