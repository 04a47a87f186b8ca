import Mathlib
import SceneFlow.Proofs.Compile.Labels
import SceneFlow.Proofs.Compile.Variants

/-!
# Scenes are well formed

A scene shows what has been delivered, nothing more and nothing less. Each delivered token is one
object, and each of its motions is there once under the name that the motion is labelled with. That
objects can be found by their names, and motions put in the order of their objects, rests on what
happens on the way: no object is delivered twice, and labels name the token that holds them.

## Main definitions

* `Scene.position`: the place of an object in a scene.
* `Scene.Shows`: the scene shows delivered tokens.

## Main results

* `Scene.position_lt_position`: the names of objects tell their places.
* `Prepared.shows_of_run`: a run shows what it has delivered.
* `Network.shows_of_outcome`: so does every compilation of a network, for a variant or for none.
-/

namespace SceneFlow

/-- The place of an object in a scene. -/
def Scene.position (scene : Scene) (id : NodeId) : ℕ :=
  scene.objects.findIdx fun object => object.id = id

/-- A scene shows delivered tokens. -/
structure Scene.Shows (scene : Scene) (resolver : Resolver) (delivered : List LabelledToken) :
    Prop where
  /-- Objects stand in the order of their names, and each has a name of its own. -/
  ascending : scene.objects.Pairwise fun a b => a.id.text < b.id.text
  /-- There is one object for every token. -/
  objects : ∃ tokens : List LabelledToken, tokens.Perm delivered ∧
    List.Forall₂ (fun labelled object => (labelled.token.object resolver).1 = .ok object)
      tokens scene.objects
  /-- Every motion is one of an object in the scene. -/
  owners : ∀ placed ∈ scene.animations, ∃ object ∈ scene.objects, object.id = placed.object
  /-- The motions are those that the tokens hold, as they are labelled. -/
  animations : scene.animations.Perm
    (delivered.flatMap fun labelled => labelled.tracks.map Prod.snd)
  /-- They stand in the order of their objects, those of one object in the order of their
  starts. -/
  ordered : scene.animations.Pairwise fun a b =>
    scene.position a.object < scene.position b.object ∨
      a.object = b.object ∧ totalRank a.motion.start ≤ totalRank b.motion.start
  /-- Motions of one object that start together stand as the token holds them. -/
  ties : ∀ labelled ∈ delivered, ∀ start : Float,
    (scene.motionsOf labelled.token.name).filter (fun placed => placed.motion.start = start) =
      (labelled.tracks.map Prod.snd).filter fun placed => placed.motion.start = start

/-! ### Places -/

section Position

variable {scene : Scene} (hascending : scene.objects.Pairwise fun a b => a.id.text < b.id.text)
include hascending

/-- Where objects stand in the order of their names, each is found at its place. -/
theorem Scene.position_getElem {i : ℕ} (hi : i < scene.objects.length) :
    scene.position scene.objects[i].id = i := by
  rw [position, List.findIdx_eq hi]
  refine ⟨decide_eq_true rfl, fun j hj => decide_eq_false fun heq => ?_⟩
  have hlt := List.pairwise_iff_getElem.mp hascending j i (hj.trans hi) hi hj
  rw [heq] at hlt
  exact lt_irrefl _ hlt

/-- The names of objects tell which of them stands before the other. -/
theorem Scene.position_lt_position {a b : SceneObject} (ha : a ∈ scene.objects)
    (hb : b ∈ scene.objects) (hlt : a.id.text < b.id.text) :
    scene.position a.id < scene.position b.id := by
  obtain ⟨i, hi, rfl⟩ := List.getElem_of_mem ha
  obtain ⟨j, hj, rfl⟩ := List.getElem_of_mem hb
  rw [position_getElem hascending hi, position_getElem hascending hj]
  by_contra hle
  rcases (Nat.not_lt.mp hle).lt_or_eq with hji | rfl
  · exact absurd (List.pairwise_iff_getElem.mp hascending j i hj hi hji) hlt.asymm
  · exact lt_irrefl _ hlt

end Position

/-! ### Objects -/

namespace Cast

variable {resolver : Resolver} {delivered : List Token}
  (hok : Finding.NoError (ofTokens resolver delivered).findings)
include hok

/-- Tokens and objects go together in their order. -/
theorem forall₂_objects :
    List.Forall₂ (fun token object => (token.object resolver).1 = .ok object) delivered
      (ofTokens resolver delivered).objects := by
  have hobjects := (noError_findings_iff resolver delivered).mp hok
  rw [objects_eq]
  clear hok
  induction delivered with
  | nil => exact .nil
  | cons token rest ih =>
    obtain ⟨⟨object, hobject⟩, hrest⟩ := List.forall_mem_cons.mp hobjects
    rw [List.filterMap_cons, hobject]
    exact .cons hobject (ih hrest)

end Cast

/-! ### Runs -/

namespace Prepared

variable {prepared : Prepared} {overrides : Overrides} {key : Option String}
  {compilation : Compilation}

/-- The labelled tokens that a run delivers. -/
def labelled (prepared : Prepared) (overrides : Overrides) (key : Option String) :
    List LabelledToken :=
  (prepared.network.labelledFlow
    ⟨prepared.resolver overrides key, prepared.coverage, prepared.instances⟩).delivered

theorem labelled_eq (prepared : Prepared) (overrides : Overrides) (key : Option String) :
    prepared.labelled overrides key =
      (prepared.flow overrides key).delivered.map .ofToken := by
  rw [labelled, Network.labelledFlow_eq]
  rfl

theorem pairwise_objects (h : prepared.run overrides key = .ok compilation) :
    compilation.scene.objects.Pairwise fun a b => a.id.text < b.id.text := by
  obtain ⟨hfound, hcast, hscene⟩ := of_run_eq_ok h
  rw [hscene]
  refine pairwise_lt_mergeSort_objects ?_
  rw [cast, Cast.map_id_objects hcast]
  exact ((noError_found_iff _ _ _).mp hfound).2.2.1

theorem exists_owner (h : prepared.run overrides key = .ok compilation) {placed : ObjectMotion}
    (hplaced : placed ∈ compilation.scene.animations) :
    ∃ object ∈ compilation.scene.objects, object.id = placed.object := by
  obtain ⟨token, htoken, m, -, rfl⟩ := (mem_animations_iff h placed).mp hplaced
  refine List.mem_map.mp ((mem_ids_iff h token.name).mpr ?_)
  exact List.countP_pos_iff.mpr ⟨token, htoken, decide_eq_true rfl⟩

/-- The names of objects, by which motions are put in order, tell the places of the objects. -/
theorem pairwise_animations (h : prepared.run overrides key = .ok compilation) :
    compilation.scene.animations.Pairwise fun a b =>
      compilation.scene.position a.object < compilation.scene.position b.object ∨
        a.object = b.object ∧ totalRank a.motion.start ≤ totalRank b.motion.start := by
  have hbefore : compilation.scene.animations.Pairwise fun a b => a.before b = true := by
    rw [(of_run_eq_ok h).2.2, Cast.scene]
    exact List.pairwise_mergeSort ObjectMotion.before_trans ObjectMotion.before_total _
  refine hbefore.imp_of_mem fun {a b} ha hb hab => ?_
  rcases (ObjectMotion.before_iff a b).mp hab with hlt | ⟨heq, hle⟩
  · obtain ⟨object, hobject, hid⟩ := exists_owner h ha
    obtain ⟨other, hother, hid'⟩ := exists_owner h hb
    rw [← hid, ← hid'] at hlt ⊢
    exact .inl (Scene.position_lt_position (pairwise_objects h) hobject hother hlt)
  · exact .inr ⟨congrArg NodeId.mk heq, hle⟩

/-- Motions of one object that start together stay in their order. -/
theorem filter_motionsOf (h : prepared.run overrides key = .ok compilation) {token : Token}
    (htoken : token ∈ (prepared.flow overrides key).delivered) (start : Float) :
    (compilation.scene.motionsOf token.name).filter (fun placed => placed.motion.start = start) =
      token.objectMotions.filter fun placed => placed.motion.start = start := by
  rw [motionsOf_name h htoken,
    filter_mergeSort ObjectMotion.before_trans ObjectMotion.before_total]
  have hname : ∀ placed ∈ token.objectMotions, placed.object = token.name := by
    intro placed hplaced
    obtain ⟨_, -, rfl⟩ := List.mem_map.mp hplaced
    rfl
  -- They may stand in any order, so sorting leaves them as they are.
  refine List.mergeSort_of_pairwise (List.pairwise_of_forall_mem_list fun a ha b hb => ?_)
  obtain ⟨ha, hstart⟩ := List.mem_filter.mp ha
  obtain ⟨hb, hstart'⟩ := List.mem_filter.mp hb
  refine (ObjectMotion.before_iff a b).mpr (.inr ⟨?_, le_of_eq (congrArg totalRank ?_)⟩)
  · rw [hname a ha, hname b hb]
  · exact (of_decide_eq_true hstart).trans (of_decide_eq_true hstart').symm

/-- A run shows what it has delivered. -/
theorem shows_of_run (h : prepared.run overrides key = .ok compilation) :
    compilation.scene.Shows (prepared.resolver overrides key)
      (prepared.labelled overrides key) := by
  obtain ⟨-, hcast, hscene⟩ := of_run_eq_ok h
  have hmotions : (prepared.labelled overrides key).flatMap
      (fun labelled => labelled.tracks.map Prod.snd) = (prepared.cast overrides key).motions := by
    rw [labelled_eq, List.flatMap_map, cast, Cast.motions_eq hcast]
    exact List.flatMap_congr fun token _ => LabelledToken.map_snd_tracks_ofToken token
  refine ⟨pairwise_objects h, ?_, fun _ => exists_owner h, ?_, pairwise_animations h, ?_⟩
  · have hobjects : compilation.scene.objects.Perm (prepared.cast overrides key).objects := by
      rw [hscene]
      exact List.mergeSort_perm _ _
    obtain ⟨tokens, hforall, hperm⟩ :=
      List.perm_comp_forall₂ hobjects (Cast.forall₂_objects hcast).flip
    rw [labelled_eq]
    exact ⟨tokens.map .ofToken, hperm.map _, List.forall₂_map_left_iff.mpr hforall.flip⟩
  · rw [hmotions, hscene]
    exact List.mergeSort_perm _ _
  · intro labelled hlabelled start
    rw [labelled_eq] at hlabelled
    obtain ⟨token, htoken, rfl⟩ := List.mem_map.mp hlabelled
    rw [LabelledToken.map_snd_tracks_ofToken]
    exact filter_motionsOf h htoken start

end Prepared

/-- Every compilation of a network, for a variant or for none, shows the tokens that its run has
delivered. -/
theorem Network.shows_of_outcome {net : Network} {overrides : Overrides} {limits : Limits}
    {key : Option String} {compilation : Compilation}
    (h : net.outcome overrides limits key = .ok compilation) :
    ∃ prepared, net.prepare limits = .ok prepared ∧
      compilation.scene.Shows (prepared.resolver overrides key)
        (prepared.labelled overrides key) := by
  obtain ⟨prepared, hprepare, hrun⟩ := outcome_eq_ok_iff.mp h
  exact ⟨prepared, hprepare, Prepared.shows_of_run hrun⟩

/-- The variant `slow` of two circles that fade in shows both. -/
theorem shows_of_outcome_fadingPair :
    ∃ compilation prepared,
      fadingPair.outcome (slowVariant (.ofFloat 4)) .standard (some "slow") = .ok compilation ∧
        fadingPair.prepare .standard = .ok prepared ∧
        compilation.scene.Shows (prepared.resolver (slowVariant (.ofFloat 4)) (some "slow"))
          (prepared.labelled (slowVariant (.ofFloat 4)) (some "slow")) := by
  obtain ⟨compilation, houtcome⟩ := exists_outcome_fadingPair
  obtain ⟨prepared, hprepare, hshows⟩ := Network.shows_of_outcome houtcome
  exact ⟨compilation, prepared, houtcome, hprepare, hshows⟩

end SceneFlow
