import Mathlib
import SceneFlow.Proofs.Compile.Twins

/-!
# Overrides of one object

What overrides say of one object changes this object and its copies and nothing else. The tokens of
the object may come later and be moved in other ways, but a token has a time of its own, a merge
node joins it only with tokens of its name, and the motions of a scene are put in order object by
object. So every object whose name neither is that of the object nor begins like the names of its
copies is in both scenes the same, with the same motions in the same order.

## Main definitions

* `Overrides.AgreeBeside`: two tables of overrides say the same of all objects but one.
* `NodeId.Beside`: an object is neither another one nor named like a copy of it.

## Main results

* `Network.object_of_agreeBeside`: overrides of one object change no other object.
-/

namespace SceneFlow

/-- Two tables of overrides say the same of all objects together and of each by itself but one. -/
structure Overrides.AgreeBeside (x : NodeId) (overrides other : Overrides) : Prop where
  /-- In all other scopes fields are bound alike. -/
  binding? : ∀ field, ∀ scope ≠ .object x,
    overrides.binding? field scope = other.binding? field scope
  /-- In all other scopes fields have the same batch slots. -/
  slot? : ∀ field, ∀ scope ≠ .object x, ∀ slot,
    overrides.slot? field scope slot = other.slot? field scope slot
  /-- In all other scopes fields have the same assignments. -/
  manual? : ∀ field, ∀ scope ≠ .object x,
    overrides.manual? field scope = other.manual? field scope

namespace NodeId

/-- An object is neither another one nor named like a copy of it: its name does not begin with that
of the other and a number sign. -/
def Beside (x id : NodeId) : Prop :=
  id ≠ x ∧ ∀ rest, id.text ≠ x.text ++ "#" ++ rest

/-- What a copy of which is beside an object is beside it, too. -/
theorem Beside.of_marked {x id : NodeId} {mark : CopyMark} (h : Beside x (id.marked mark)) :
    Beside x id := by
  obtain ⟨-, hcopy⟩ := h
  refine ⟨fun heq => ?_, fun rest heq => ?_⟩
  · refine hcopy (mark.node.text ++ "." ++ toString mark.number) ?_
    simp only [marked, CopyMark.text, heq, String.append_assoc]
  · refine hcopy (rest ++ mark.text) ?_
    simp only [marked, heq, String.append_assoc]

end NodeId

/-- Of the objects beside one, resolvers know the same whose overrides differ in this one only. -/
theorem Overrides.AgreeBeside.share {x : NodeId} {overrides other : Overrides}
    (h : overrides.AgreeBeside x other) (values : VariableValues) (key : Option String) :
    Resolver.Share (NodeId.Beside x) ⟨overrides, values, key⟩ ⟨other, values, key⟩ where
  agreesAt object hbeside := by
    have hscope : ObjectScope.object object ≠ .object x := fun heq =>
      hbeside.1 (ObjectScope.object.inj heq)
    have hchain : ∀ s ∈ (ObjectScope.object object).chain, s ≠ .object x := by
      simp [ObjectScope.chain, hbeside.1]
    refine ⟨fun field s hs => h.binding? field s (hchain s hs), fun field s hs => ?_,
      fun field s hs => h.slot? field s (hchain s hs) defaultKey,
      fun field => h.manual? field _ hscope, fun _ => rfl⟩
    exact congrArg _ (funext (h.slot? field s (hchain s hs)))
  of_marked _ _ := .of_marked

/-- Overrides of one object change no other object. If the overrides of two scenes of a network
differ in what they say of the object `x` by itself only, every object is in both or in neither, and
has the same motions in both, unless it is `x` or its name begins with that of `x` and a number
sign. -/
theorem Network.object_of_agreeBeside {net : Network} {limits : Limits} {x : NodeId}
    {overrides overrides' : Overrides} {key : Option String}
    {compilation compilation' : Compilation} (hagree : overrides.AgreeBeside x overrides')
    (h : net.outcome overrides limits key = .ok compilation)
    (h' : net.outcome overrides' limits key = .ok compilation') :
    (∀ object : SceneObject, NodeId.Beside x object.id →
      (object ∈ compilation.scene.objects ↔ object ∈ compilation'.scene.objects)) ∧
    ∀ id, NodeId.Beside x id →
      compilation.scene.motionsOf id = compilation'.scene.motionsOf id := by
  obtain ⟨prepared, hprepare, hrun⟩ := outcome_eq_ok_iff.mp h
  obtain ⟨prepared', hprepare', hrun'⟩ := outcome_eq_ok_iff.mp h'
  obtain rfl := Except.ok.inj (hprepare.symm.trans hprepare')
  have hshare : Resolver.Share (NodeId.Beside x) (prepared.resolver overrides key)
      (prepared.resolver overrides' key) := hagree.share prepared.values key
  have hdelivered := Prepared.forall₂_delivered hshare hrun hrun'
  refine ⟨fun object hbeside => ?_, fun id hbeside => ?_⟩
  · have hsame := Token.filter_eq_of_forall₂_twin hdelivered hbeside
    rw [Prepared.mem_objects_iff hrun, Prepared.mem_objects_iff hrun', Prepared.cast,
      Prepared.cast, Cast.mem_objects_iff, Cast.mem_objects_iff]
    refine exists_congr fun token => ?_
    by_cases hname : token.name = object.id
    · have hmem : token ∈ (prepared.flow overrides key).delivered ↔
          token ∈ (prepared.flow overrides' key).delivered := by
        have hfilter := congrArg (token ∈ ·) hsame
        simpa [hname] using hfilter
      rw [hmem, (hshare.agreesAt token.name (hname ▸ hbeside)).object_eq]
    · -- A token of another name does not become the object.
      have hother : ∀ resolver, (token.object resolver).1 ≠ .ok object := fun resolver hobject =>
        hname (Token.id_of_object hobject).1.symm
      simp only [hother, and_false]
  · rw [Prepared.motionsOf_eq hrun, Prepared.motionsOf_eq hrun',
      Token.filter_eq_of_forall₂_twin hdelivered hbeside]

/-! ### An object that waits -/

/-- In addition to the batch slots, the circle `a` is assigned a later start. -/
def lateFirst : Overrides :=
  { slowVariant (.ofFloat 4) with
    manual := .ofList [("a", .ofList [("Timeline.fade.start_offset", .ofFloat 1)])] }

theorem agreeBeside_lateFirst : (slowVariant (.ofFloat 4)).AgreeBeside ⟨"a"⟩ lateFirst where
  binding? _ _ _ := rfl
  slot? _ _ _ _ := rfl
  manual? field scope hscope := by
    cases scope with
    | all => rfl
    | object id =>
      have hid : "a" ≠ id.text := fun heq =>
        hscope (congrArg ObjectScope.object (NodeId.eq_iff_text.mpr heq.symm))
      change none = (if "a" = id.text then some _ else none).bind _
      rw [if_neg hid]
      rfl

/-- The circle `b` fades in as it does when `a` does not wait. -/
theorem object_of_agreeBeside_fadingPair :
    ∃ compilation compilation',
      fadingPair.outcome (slowVariant (.ofFloat 4)) .standard (some "slow") = .ok compilation ∧
      fadingPair.outcome lateFirst .standard (some "slow") = .ok compilation' ∧
      (∀ object : SceneObject, object.id = ⟨"b"⟩ →
        (object ∈ compilation.scene.objects ↔ object ∈ compilation'.scene.objects)) ∧
      compilation.scene.motionsOf ⟨"b"⟩ = compilation'.scene.motionsOf ⟨"b"⟩ := by
  obtain ⟨compilation, h⟩ := exists_outcome_fadingPair
  obtain ⟨compilation', h'⟩ : ∃ compilation, fadingPair.outcome lateFirst .standard
      (some "slow") = .ok compilation := Network.exists_outcome_eq_ok (by decide +kernel)
  have hbeside : NodeId.Beside ⟨"a"⟩ ⟨"b"⟩ := by
    refine ⟨by decide, fun rest heq => ?_⟩
    have hlist := congrArg String.toList heq
    simp at hlist
  obtain ⟨hobjects, hmotions⟩ := Network.object_of_agreeBeside agreeBeside_lateFirst h h'
  exact ⟨compilation, compilation', h, h', fun object hid => hobjects object (hid ▸ hbeside),
    hmotions ⟨"b"⟩ hbeside⟩

end SceneFlow
