import Mathlib
import SceneFlow.Compile.Assembly
import SceneFlow.Proofs.Motion.Time

/-!
# Scenes of the same objects and motions

The objects of a scene are put in the order of their names, and the motions in the order of objects
and starts. So the order in which objects and motions come in makes no difference, except that
motions of one object that start at the same time stay as they come. The order of the motions of one
object does not depend on the motions of others.

## Main definitions

* `Scene.Alike`: two scenes differ in the order of motions that start together, if at all.

## Main results

* `filter_mergeSort`: sorting is stable.
* `Cast.scene_alike`: the same objects and motions make scenes that are alike.
* `Cast.motionsOf_scene`: the motions of an object are put in order by themselves.
-/

namespace SceneFlow

/-- What the motions of a scene are put in order by: the object and the start. -/
def ObjectMotion.slot (placed : ObjectMotion) : NodeId × Float :=
  (placed.object, placed.motion.start)

/-- Two scenes are the same but for the order of motions of one object that start at the same
time. -/
structure Scene.Alike (scene other : Scene) : Prop where
  /-- All but the motions are equal. -/
  rest : { scene with animations := other.animations } = other
  /-- The motions are the same. -/
  animations : scene.animations.Perm other.animations
  /-- At every place of the list there is a motion of the same object with the same start. -/
  slots : scene.animations.map ObjectMotion.slot = other.animations.map ObjectMotion.slot

theorem Scene.Alike.objects_eq {scene other : Scene} (h : scene.Alike other) :
    scene.objects = other.objects := by
  rw [← h.rest]

/-! ### Sorting -/

section Stable

variable {α : Type} {le : α → α → Bool}
  (htrans : ∀ a b c, le a b = true → le b c = true → le a c = true)
  (htotal : ∀ a b, (le a b || le b a) = true)
include htrans htotal

/-- An item that comes before others is sorted in behind those that it may not stand before. -/
theorem mergeSort_cons_spec (a : α) (rest : List α) :
    let first := (rest.mergeSort le).filter fun b => !le a b
    let last := (rest.mergeSort le).filter fun b => le a b
    rest.mergeSort le = first ++ last ∧ (a :: rest).mergeSort le = first ++ a :: last := by
  dsimp only
  obtain ⟨first, last, hsorted, hrest, hfirst⟩ := List.mergeSort_cons htrans htotal a rest
  have hlast : ∀ b ∈ last, le a b = true := by
    have hpairwise := List.pairwise_mergeSort htrans htotal (a :: rest)
    rw [hsorted, List.pairwise_append, List.pairwise_cons] at hpairwise
    exact hpairwise.2.1.1
  have hcut : (first ++ last).filter (fun b => !le a b) = first ∧
      (first ++ last).filter (fun b => le a b) = last := by
    rw [List.filter_append, List.filter_append, List.filter_eq_self.mpr hfirst,
      List.filter_eq_self.mpr hlast, List.filter_eq_nil_iff.mpr fun b hb => by simp [hlast b hb],
      List.filter_eq_nil_iff.mpr fun b hb => by simpa using hfirst b hb, List.append_nil,
      List.nil_append]
    exact ⟨rfl, rfl⟩
  rw [hsorted, hrest, hcut.1, hcut.2]
  exact ⟨rfl, rfl⟩

/-- Sorting is stable: the items that fit a predicate stand among all as they are sorted alone. -/
theorem filter_mergeSort (p : α → Bool) (list : List α) :
    (list.mergeSort le).filter p = (list.filter p).mergeSort le := by
  induction list with
  | nil => simp
  | cons a rest ih =>
    obtain ⟨hrest, hsorted⟩ := mergeSort_cons_spec htrans htotal a rest
    by_cases ha : p a = true
    · rw [hsorted, List.filter_append, List.filter_cons_of_pos ha, List.filter_cons_of_pos ha,
        List.filter_comm, List.filter_comm (p := p), ih]
      exact (mergeSort_cons_spec htrans htotal a (rest.filter p)).2.symm
    · rw [List.filter_cons_of_neg ha, ← ih, hsorted, List.filter_append,
        List.filter_cons_of_neg ha, ← List.filter_append, ← hrest]

end Stable

/-! ### The order of motions -/

/-- Doubles of one rank are the same. -/
theorem totalRank_injective : Function.Injective totalRank := by
  intro x y heq
  have hx := x.toBits.toNat_lt
  have hy := y.toBits.toNat_lt
  have hbits : x.toBits.toNat = y.toBits.toNat := by
    simp only [totalRank] at heq
    split at heq <;> split at heq <;> omega
  obtain ⟨⟨bits, _⟩⟩ := x
  obtain ⟨⟨bits', _⟩⟩ := y
  obtain rfl : bits = bits' := UInt64.toNat_inj.mp hbits
  rfl

namespace ObjectMotion

theorem before_iff (a b : ObjectMotion) : a.before b = true ↔
    a.object.text < b.object.text ∨
      a.object.text = b.object.text ∧ totalRank a.motion.start ≤ totalRank b.motion.start := by
  rw [before, Bool.or_eq_true, Bool.and_eq_true, decide_eq_true_iff, decide_eq_true_iff,
    decide_eq_true_iff]
  have hid : a.object = b.object ↔ a.object.text = b.object.text :=
    ⟨congrArg NodeId.text, congrArg NodeId.mk⟩
  rw [hid]

theorem before_trans (a b c : ObjectMotion) (hab : a.before b = true) (hbc : b.before c = true) :
    a.before c = true := by
  rw [before_iff] at *
  rcases hab with hab | ⟨hab, hstart⟩
  · rcases hbc with hbc | ⟨hbc, -⟩
    · exact .inl (hab.trans hbc)
    · exact .inl (hbc ▸ hab)
  · rw [hab]
    exact hbc.imp_right fun ⟨hbc, hle⟩ => ⟨hbc, hstart.trans hle⟩

theorem before_total (a b : ObjectMotion) : (a.before b || b.before a) = true := by
  rw [Bool.or_eq_true, before_iff, before_iff]
  rcases lt_trichotomy a.object.text b.object.text with hlt | heq | hlt
  · exact .inl (.inl hlt)
  · exact (le_total (totalRank a.motion.start) (totalRank b.motion.start)).imp
      (fun hle => .inr ⟨heq, hle⟩) fun hle => .inr ⟨heq.symm, hle⟩
  · exact .inr (.inl hlt)

/-- The same motions in order have the same slots. -/
theorem map_slot_mergeSort {motions other : List ObjectMotion} (h : motions.Perm other) :
    (motions.mergeSort before).map slot = (other.mergeSort before).map slot := by
  have hperm : ((motions.mergeSort before).map slot).Perm ((other.mergeSort before).map slot) :=
    ((List.mergeSort_perm _ _).trans (h.trans (List.mergeSort_perm _ _).symm)).map slot
  -- Whether one motion may stand before another is told from their slots.
  have hpairwise : ∀ list : List ObjectMotion,
      ((list.mergeSort before).map slot).Pairwise fun x y => x.1.text < y.1.text ∨
        x.1.text = y.1.text ∧ totalRank x.2 ≤ totalRank y.2 := fun list => by
    refine List.pairwise_map.mpr ((List.pairwise_mergeSort before_trans before_total list).imp ?_)
    exact fun hbefore => (before_iff _ _).mp hbefore
  refine hperm.eq_of_pairwise (fun x y _ _ hxy hyx => ?_) (hpairwise motions) (hpairwise other)
  rcases hxy with hlt | ⟨heq, hle⟩
  · rcases hyx with hlt' | ⟨heq', -⟩
    · exact absurd hlt hlt'.asymm
    · exact absurd hlt (heq' ▸ lt_irrefl _)
  · have hle' := (hyx.resolve_left (heq ▸ lt_irrefl _)).2
    exact Prod.ext (congrArg NodeId.mk heq) (totalRank_injective (le_antisymm hle hle'))

end ObjectMotion

/-! ### Scenes -/

theorem pairwise_mergeSort_objects (objects : List SceneObject) :
    (objects.mergeSort fun a b => a.id.text ≤ b.id.text).Pairwise fun a b =>
      a.id.text ≤ b.id.text := by
  refine (List.pairwise_mergeSort (fun a b c hab hbc => ?_) (fun a b => ?_) objects).imp
    of_decide_eq_true
  · exact decide_eq_true ((of_decide_eq_true hab).trans (of_decide_eq_true hbc))
  · simpa using le_total a.id.text b.id.text

/-- Objects with names of their own are put in a strict order. -/
theorem pairwise_lt_mergeSort_objects {objects : List SceneObject}
    (hnames : (objects.map SceneObject.id).Nodup) :
    (objects.mergeSort fun a b => a.id.text ≤ b.id.text).Pairwise fun a b =>
      a.id.text < b.id.text := by
  have hdifferent : (objects.mergeSort fun a b => a.id.text ≤ b.id.text).Pairwise fun a b =>
      a.id ≠ b.id :=
    List.pairwise_map.mp (((List.mergeSort_perm _ _).map SceneObject.id).nodup_iff.mpr hnames)
  exact (pairwise_mergeSort_objects objects).imp₂
    (fun a b hle hne => lt_of_le_of_ne hle fun heq => hne (congrArg NodeId.mk heq)) hdifferent

/-- The same objects with names of their own are put in one order. -/
theorem mergeSort_objects_eq {objects other : List SceneObject} (h : objects.Perm other)
    (hnames : (objects.map SceneObject.id).Nodup) :
    (objects.mergeSort fun a b => a.id.text ≤ b.id.text) =
      other.mergeSort fun a b => a.id.text ≤ b.id.text := by
  refine List.Perm.eq_of_pairwise (fun a b ha hb hab hba => ?_)
    (pairwise_mergeSort_objects objects) (pairwise_mergeSort_objects other)
    ((List.mergeSort_perm _ _).trans (h.trans (List.mergeSort_perm _ _).symm))
  exact List.inj_on_of_nodup_map hnames (List.mem_mergeSort.mp ha)
    (h.mem_iff.mpr (List.mem_mergeSort.mp hb)) (congrArg NodeId.mk (le_antisymm hab hba))

/-- A scene does not end earlier or later if its motions come in another order. -/
theorem Output.duration_eq (output : Output) (canvas : Canvas) {motions other : List ObjectMotion}
    (h : motions.Perm other) :
    output.duration canvas motions = output.duration canvas other := by
  have hfold : ∀ list : List ObjectMotion,
      list.foldl (fun latest placed => later latest placed.motion.finish) 0 =
        (list.map fun placed => placed.motion.finish).foldl later 0 := fun list => by
    rw [List.foldl_map]
  match output with
  | .image => rfl
  | .video => rw [duration, duration, hfold, hfold, foldl_later_eq_of_perm isTime_zero (h.map _)]

/-- The motions of an object are put in order by themselves. -/
theorem Cast.motionsOf_scene (cast : Cast) (output : Output) (canvas : Canvas) (id : NodeId) :
    (cast.scene output canvas).1.motionsOf id =
      (cast.motions.filter fun placed => placed.object = id).mergeSort ObjectMotion.before :=
  filter_mergeSort ObjectMotion.before_trans ObjectMotion.before_total _ cast.motions

/-- The same objects and motions make scenes that are alike. -/
theorem Cast.scene_alike {cast other : Cast} (hobjects : cast.objects.Perm other.objects)
    (hnames : (cast.objects.map SceneObject.id).Nodup) (hmotions : cast.motions.Perm other.motions)
    (output : Output) (canvas : Canvas) :
    (cast.scene output canvas).1.Alike (other.scene output canvas).1 := by
  have hperm : (cast.motions.mergeSort ObjectMotion.before).Perm
      (other.motions.mergeSort ObjectMotion.before) :=
    (List.mergeSort_perm _ _).trans (hmotions.trans (List.mergeSort_perm _ _).symm)
  refine ⟨?_, hperm, ObjectMotion.map_slot_mergeSort hmotions⟩
  simp only [scene, mergeSort_objects_eq hobjects hnames, output.duration_eq canvas hperm]

end SceneFlow
