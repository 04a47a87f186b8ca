import Mathlib
import SceneFlow.Proofs.Compile.Validation
import SceneFlow.Proofs.Roster
import SceneFlow.Proofs.Scene.Alike

/-!
# Outcomes of a run

There is a scene exactly if no step finds an error. The flow of objects and the deliveries are
looked at first; delivered tokens become objects only if they are in order. So in a scene every
delivered token is an object of its own.

## Main definitions

* `Prepared.cast`: what the delivered tokens of a run become.
* `Outcome.ReportsRepeated`: an outcome reports that an object is delivered more than once.

## Main results

* `Prepared.exists_run_eq_ok_iff`, `Prepared.succeeds_iff`: when there is a scene, and which.
* `Network.noError_repeatedDeliveries_iff`: deliveries are in order if no name occurs twice.
* `Prepared.reportsRepeated_iff`: exactly the objects that are delivered more than once are
  reported.
* `Prepared.mem_ids_iff`, `Prepared.mem_animations_iff`: exactly the delivered objects and their
  motions are in the scene.
-/

namespace SceneFlow

/-! ### Diagnostics -/

theorem any_isError_distinct (findings : List Finding) :
    (distinct Diagnostic.message (findings.map Finding.diagnostic)).any Diagnostic.isError =
      findings.any Finding.isError := by
  rw [Bool.eq_iff_iff]
  simp only [List.any_eq_true, mem_distinct, List.mem_map]
  constructor
  · rintro ⟨_, ⟨finding, hmem, rfl⟩, herror⟩
    exact ⟨finding, hmem, herror⟩
  · rintro ⟨finding, hmem, herror⟩
    exact ⟨_, ⟨finding, hmem, rfl⟩, herror⟩

theorem mem_errorsFirst {list : List Diagnostic} {d : Diagnostic} :
    d ∈ Diagnostic.errorsFirst list ↔ d ∈ list := by
  simp only [Diagnostic.errorsFirst, List.mem_append, List.mem_filter, ← and_or_left]
  refine and_iff_left ?_
  cases d.isError <;> simp

/-- What is found of the times of motions is that they start too early or end too late. -/
theorem early_or_late_of_mem_timeFindings {duration : Float} {motions : List ObjectMotion}
    {finding : Finding} (h : finding ∈ motions.flatMap (ObjectMotion.timeFindings duration)) :
    (∃ placed, finding = .early placed) ∨ ∃ placed duration, finding = .late placed duration := by
  obtain ⟨placed, -, hplaced⟩ := List.mem_flatMap.mp h
  rw [ObjectMotion.timeFindings, List.mem_append] at hplaced
  rcases hplaced with hplaced | hplaced
  · split at hplaced
    · exact .inl ⟨placed, List.mem_singleton.mp hplaced⟩
    · simp at hplaced
  · split at hplaced
    · exact .inr ⟨placed, duration, List.mem_singleton.mp hplaced⟩
    · simp at hplaced

theorem noError_timeFindings (duration : Float) (motions : List ObjectMotion) :
    Finding.NoError (motions.flatMap (ObjectMotion.timeFindings duration)) := by
  intro finding hfinding
  obtain ⟨_, rfl⟩ | ⟨_, _, rfl⟩ := early_or_late_of_mem_timeFindings hfinding <;> rfl

/-! ### Deliveries -/

namespace Delivery

theorem foldl_add_ofToken (tokens : List Token) (first : Delivery) :
    (tokens.map ofToken).foldl add first =
      { first with count := first.count + tokens.length } := by
  induction tokens generalizing first with
  | nil => rfl
  | cons token rest ih =>
    rw [List.map_cons, List.foldl_cons, ih]
    simp only [add, ofToken, List.length_cons]
    rw [Nat.add_assoc, Nat.add_comm 1]

theorem name_add (delivery other : Delivery) :
    (delivery.add other).object.text = delivery.object.text :=
  rfl

/-- A delivery comes of the tokens of its object: the first of them tells the drawable node. -/
theorem eq_of_mem_ofTokens {delivered : List Token} {delivery : Delivery}
    (h : delivery ∈ ofTokens delivered) :
    ∃ first rest, (delivered.filter fun token => token.name = delivery.object) = first :: rest ∧
      delivery = { ofToken first with count := 1 + rest.length } := by
  have hgroup := (Roster.mem_gather_iff name_add (delivered.map ofToken) delivery).mp h
  simp only [← NodeId.eq_iff_text, List.filter_map] at hgroup
  change Roster.fuse add
    ((delivered.filter fun token => token.name = delivery.object).map ofToken) =
      some delivery at hgroup
  match hfilter : delivered.filter fun token => token.name = delivery.object with
  | [] => simp [hfilter, Roster.fuse] at hgroup
  | first :: rest =>
    rw [hfilter, List.map_cons, Roster.fuse, foldl_add_ofToken] at hgroup
    exact ⟨first, rest, hfilter, (Option.some.inj hgroup).symm⟩

/-- An object is counted as often as it is delivered. -/
theorem count_of_mem_ofTokens {delivered : List Token} {delivery : Delivery}
    (h : delivery ∈ ofTokens delivered) :
    delivery.count = delivered.countP fun token => token.name = delivery.object := by
  obtain ⟨first, rest, hfilter, heq⟩ := eq_of_mem_ofTokens h
  rw [List.countP_eq_length_filter, hfilter, List.length_cons, Nat.add_comm, heq]

/-- The drawable node of a delivery is that of a token of its object. -/
theorem exists_token_of_mem_ofTokens {delivered : List Token} {delivery : Delivery}
    (h : delivery ∈ ofTokens delivered) :
    ∃ token ∈ delivered, token.name = delivery.object ∧ token.origin = delivery.origin := by
  obtain ⟨first, rest, hfilter, heq⟩ := eq_of_mem_ofTokens h
  have hfirst : first ∈ delivered.filter fun token => token.name = delivery.object :=
    hfilter ▸ List.mem_cons_self
  obtain ⟨hmem, hname⟩ := List.mem_filter.mp hfirst
  exact ⟨first, hmem, of_decide_eq_true hname, by rw [heq]; rfl⟩

theorem exists_mem_ofTokens {delivered : List Token} {token : Token} (h : token ∈ delivered) :
    ∃ delivery ∈ ofTokens delivered, delivery.object = token.name := by
  have hmem : token.name.text ∈ (ofTokens delivered).map fun delivery => delivery.object.text :=
    (Roster.mem_map_gather name_add _ _).mpr
      (List.mem_map.mpr ⟨ofToken token, List.mem_map.mpr ⟨token, h, rfl⟩, rfl⟩)
  obtain ⟨delivery, hdelivery, hname⟩ := List.mem_map.mp hmem
  exact ⟨delivery, hdelivery, NodeId.eq_iff_text.mpr hname⟩

theorem mem_repeated_iff {delivered : List Token} {delivery : Delivery} :
    delivery ∈ repeated delivered ↔ delivery ∈ ofTokens delivered ∧ 1 < delivery.count := by
  rw [repeated, List.mem_mergeSort, List.mem_filter, decide_eq_true_iff]

/-- Exactly the objects that are delivered more than once are repeated. -/
theorem exists_mem_repeated_iff (delivered : List Token) (object : NodeId) :
    (∃ delivery ∈ repeated delivered, delivery.object = object) ↔
      2 ≤ delivered.countP fun token => token.name = object := by
  constructor
  · rintro ⟨delivery, hmem, rfl⟩
    obtain ⟨hmem, hcount⟩ := mem_repeated_iff.mp hmem
    rwa [count_of_mem_ofTokens hmem] at hcount
  · intro hcount
    obtain ⟨token, htoken, hname⟩ := List.countP_pos_iff.mp (Nat.lt_of_lt_of_le Nat.two_pos hcount)
    obtain ⟨delivery, hmem, hobject⟩ := exists_mem_ofTokens htoken
    rw [decide_eq_true_iff.mp hname] at hobject
    refine ⟨delivery, mem_repeated_iff.mpr ⟨hmem, ?_⟩, hobject⟩
    rwa [count_of_mem_ofTokens hmem, hobject]

end Delivery

namespace Network

theorem mem_repeatedDeliveries_iff (net : Network) (delivered : List Token) (finding : Finding) :
    finding ∈ net.repeatedDeliveries delivered ↔
      ∃ delivery ∈ Delivery.repeated delivered,
        finding = .repeatedDelivery delivery.object delivery.count delivery.origin
          (deliversAgain net.claims delivery.origin) := by
  rw [repeatedDeliveries]
  split
  · rename_i hnone
    simp [hnone]
  · rw [List.mem_map]
    exact exists_congr fun delivery => and_congr_right fun _ => eq_comm

/-- Deliveries are in order if no object is delivered twice. -/
theorem noError_repeatedDeliveries_iff (net : Network) (delivered : List Token) :
    Finding.NoError (net.repeatedDeliveries delivered) ↔ (delivered.map Token.name).Nodup := by
  have hcount : ∀ object, (delivered.map Token.name).count object =
      delivered.countP fun token => token.name = object := fun object => by
    rw [List.count, List.countP_map]
    rfl
  rw [List.nodup_iff_count_le_one]
  constructor
  · intro h object
    by_contra hmany
    rw [hcount] at hmany
    obtain ⟨delivery, hmem, -⟩ :=
      (Delivery.exists_mem_repeated_iff delivered object).mpr (by omega)
    have hfinding := h _ ((mem_repeatedDeliveries_iff _ _ _).mpr ⟨delivery, hmem, rfl⟩)
    simp [Finding.gravity] at hfinding
  · intro h finding hfinding
    obtain ⟨delivery, hmem, -⟩ := (mem_repeatedDeliveries_iff _ _ _).mp hfinding
    have hmany := (Delivery.exists_mem_repeated_iff delivered delivery.object).mp ⟨_, hmem, rfl⟩
    have hfew := h delivery.object
    rw [hcount] at hfew
    omega

theorem noError_uninserted_iff (coverage : Severity) (delivered : List Token) :
    Finding.NoError (uninserted coverage delivered) ↔
      (coverage = .error → ∀ token ∈ delivered, token.insertTime.isSome) := by
  constructor
  · rintro h rfl token htoken
    by_contra hnone
    have hfinding := h _ (List.mem_map.mpr ⟨token,
      List.mem_filter.mpr ⟨htoken, by simpa using hnone⟩, rfl⟩)
    simp [Finding.gravity] at hfinding
  · intro h finding hfinding
    obtain ⟨token, hmem, rfl⟩ := List.mem_map.mp hfinding
    obtain ⟨htoken, hnone⟩ := List.mem_filter.mp hmem
    cases coverage with
    | warning => rfl
    | error =>
      have hsome := h rfl token htoken
      rw [Option.isNone_iff_eq_none] at hnone
      simp [hnone] at hsome

end Network

/-! ### Objects -/

namespace Token

variable {token : Token} {resolver : Resolver} {object : SceneObject}

/-- A token becomes an object if the transform can be read from its resolved view. -/
theorem object_eq_ok_iff :
    (token.object resolver).1 = .ok object ↔
      ∃ transform,
        Transform.ofView
          (resolver.view FieldPath.canvas token.canvasView (.object token.name)).1 =
            .ok transform ∧
        ⟨token.name, token.origin, token.geometry.shape, transform,
          Transform.fieldNames.foldl Entries.erase
            (resolver.view FieldPath.canvas token.canvasView (.object token.name)).1,
          token.insertTime⟩ = object := by
  rw [Token.object]
  dsimp only
  split
  · rename_i transform htransform
    simp [htransform]
  · rename_i problem hproblem
    simp [hproblem]

/-- What the object of a delivered token has from the token. -/
theorem id_of_object (h : (token.object resolver).1 = .ok object) :
    object.id = token.name ∧ object.origin = token.origin ∧
      object.kind = token.geometry.shape ∧ object.insertTime = token.insertTime := by
  obtain ⟨transform, -, rfl⟩ := object_eq_ok_iff.mp h
  exact ⟨rfl, rfl, rfl, rfl⟩

end Token

/-- The motions of the objects of one name are those of the tokens of this name. -/
theorem Token.filter_objectMotions (tokens : List Token) (id : NodeId) :
    (tokens.flatMap objectMotions).filter (fun placed => placed.object = id) =
      (tokens.filter fun token => token.name = id).flatMap objectMotions := by
  have hfilter : ∀ token : Token, token.objectMotions.filter (fun placed => placed.object = id) =
      if token.name = id then token.objectMotions else [] := by
    intro token
    rw [objectMotions, List.filter_map]
    by_cases hname : token.name = id <;> simp [Function.comp_def, hname]
  rw [List.filter_flatMap]
  simp only [hfilter]
  induction tokens with
  | nil => rfl
  | cons token rest ih => by_cases hname : token.name = id <;> simp [hname, ih]

namespace Cast

variable {resolver : Resolver} {delivered : List Token}

theorem gravity_object {token : Token} {finding : Finding}
    (h : (token.object resolver).1 = .error finding) : ∃ object origin problem,
      finding = .badTransform object origin problem := by
  rw [Token.object] at h
  dsimp only at h
  split at h
  · simp at h
  · exact ⟨_, _, _, (Except.error.inj h).symm⟩

theorem noError_findings_iff (resolver : Resolver) (delivered : List Token) :
    Finding.NoError (ofTokens resolver delivered).findings ↔
      ∀ token ∈ delivered, ∃ object, (token.object resolver).1 = .ok object := by
  have hnotes : ∀ token : Token, Finding.NoError (token.object resolver).2 := by
    intro token finding hfinding
    obtain ⟨binding, -, rfl⟩ := List.mem_map.mp hfinding
    rfl
  simp only [ofTokens, List.flatMap_map]
  constructor
  · intro h token htoken
    match hobject : (token.object resolver).1 with
    | .ok object => exact ⟨object, rfl⟩
    | .error finding =>
      obtain ⟨_, _, _, rfl⟩ := gravity_object hobject
      have hfinding := h _ (List.mem_flatMap.mpr ⟨token, htoken, by
        rw [hobject]
        exact List.mem_append_right _ List.mem_cons_self⟩)
      simp [Finding.gravity] at hfinding
  · intro h finding hfinding
    obtain ⟨token, htoken, hmem⟩ := List.mem_flatMap.mp hfinding
    obtain ⟨object, hobject⟩ := h token htoken
    rw [hobject] at hmem
    exact hnotes token finding hmem

theorem objects_eq (resolver : Resolver) (delivered : List Token) :
    (ofTokens resolver delivered).objects =
      delivered.filterMap fun token => (token.object resolver).1.toOption := by
  rw [ofTokens, List.filterMap_map]
  rfl

theorem mem_objects_iff {object : SceneObject} :
    object ∈ (ofTokens resolver delivered).objects ↔
      ∃ token ∈ delivered, (token.object resolver).1 = .ok object := by
  simp only [ofTokens, List.mem_filterMap, List.mem_map]
  constructor
  · rintro ⟨_, ⟨token, htoken, rfl⟩, hobject⟩
    refine ⟨token, htoken, ?_⟩
    dsimp only at hobject
    match hresult : (token.object resolver).1 with
    | .ok other =>
      rw [hresult] at hobject
      rw [Option.some.inj hobject]
    | .error finding =>
      rw [hresult] at hobject
      simp [Except.toOption] at hobject
  · rintro ⟨token, htoken, hobject⟩
    exact ⟨_, ⟨token, htoken, rfl⟩, by rw [hobject]; rfl⟩

section Ok

variable (hok : Finding.NoError (ofTokens resolver delivered).findings)
include hok

/-- Every delivered token becomes an object, with what the object has from the token. -/
theorem map_objects {β : Type} {f : SceneObject → β} {g : Token → β}
    (h : ∀ token object, (token.object resolver).1 = .ok object → f object = g token) :
    (ofTokens resolver delivered).objects.map f = delivered.map g := by
  have hobjects := (noError_findings_iff resolver delivered).mp hok
  simp only [ofTokens, List.filterMap_map, List.map_filterMap]
  rw [← List.filterMap_eq_map]
  refine List.filterMap_congr fun token htoken => ?_
  obtain ⟨object, hobject⟩ := hobjects token htoken
  simp [hobject, Except.toOption, h token object hobject]

/-- Every delivered token becomes an object of its name. -/
theorem map_id_objects :
    (ofTokens resolver delivered).objects.map SceneObject.id = delivered.map Token.name :=
  map_objects hok fun _ _ hobject => (Token.id_of_object hobject).1

/-- The motions are those of all delivered tokens. -/
theorem motions_eq : (ofTokens resolver delivered).motions =
    delivered.flatMap Token.objectMotions := by
  have hobjects := (noError_findings_iff resolver delivered).mp hok
  simp only [ofTokens, List.flatMap_map]
  refine List.flatMap_congr fun token htoken => ?_
  obtain ⟨object, hobject⟩ := hobjects token htoken
  rw [hobject]
  rfl

end Ok

end Cast

/-! ### Runs -/

namespace Prepared

/-- What the delivered tokens of a run become. -/
def cast (prepared : Prepared) (overrides : Overrides) (key : Option String) : Cast :=
  .ofTokens (prepared.resolver overrides key) (prepared.flow overrides key).delivered

/-- What is found before delivered tokens become objects. -/
def found (prepared : Prepared) (overrides : Overrides) (key : Option String) : List Finding :=
  prepared.findings ++ (prepared.flow overrides key).findings ++
    prepared.network.deliveryFindings prepared.coverage (prepared.flow overrides key).delivered

/-- What the run puts on the stage: nothing if there has been an error. -/
def stage (prepared : Prepared) (overrides : Overrides) (key : Option String) : Cast :=
  if (prepared.found overrides key).any Finding.isError then .empty
  else prepared.cast overrides key

/-- Everything that a run finds. -/
def told (prepared : Prepared) (overrides : Overrides) (key : Option String) : List Finding :=
  prepared.found overrides key ++ (prepared.stage overrides key).findings ++
    ((prepared.stage overrides key).scene prepared.output prepared.canvas).2

theorem run_eq (prepared : Prepared) (overrides : Overrides) (key : Option String) :
    prepared.run overrides key =
      if (prepared.told overrides key).any Finding.isError then
        .error (Diagnostic.errorsFirst
          (distinct Diagnostic.message ((prepared.told overrides key).map Finding.diagnostic)))
      else
        .ok ⟨((prepared.stage overrides key).scene prepared.output prepared.canvas).1,
          distinct Diagnostic.message ((prepared.told overrides key).map Finding.diagnostic)⟩ := by
  rw [← any_isError_distinct]
  rfl

theorem noError_told_iff (prepared : Prepared) (overrides : Overrides) (key : Option String) :
    Finding.NoError (prepared.told overrides key) ↔
      Finding.NoError (prepared.found overrides key) ∧
        Finding.NoError (prepared.cast overrides key).findings := by
  have hlate : Finding.NoError
      ((prepared.stage overrides key).scene prepared.output prepared.canvas).2 :=
    noError_timeFindings _ _
  rw [told, Finding.noError_append, Finding.noError_append, and_iff_left hlate]
  refine and_congr_right fun hfound => ?_
  rw [stage, if_neg (by simp [(Finding.noError_iff_any _).mp hfound])]

/-- When there is a scene, and which. -/
theorem exists_run_eq_ok_iff (prepared : Prepared) (overrides : Overrides) (key : Option String)
    (scene : Scene) :
    (∃ compilation, prepared.run overrides key = .ok compilation ∧ compilation.scene = scene) ↔
      Finding.NoError (prepared.found overrides key) ∧
        Finding.NoError (prepared.cast overrides key).findings ∧
          scene = ((prepared.cast overrides key).scene prepared.output prepared.canvas).1 := by
  rw [← and_assoc, ← noError_told_iff, run_eq]
  by_cases htold : Finding.NoError (prepared.told overrides key)
  · have hstage : prepared.stage overrides key = prepared.cast overrides key := by
      have hfound := ((noError_told_iff prepared overrides key).mp htold).1
      rw [stage, if_neg (by simp [(Finding.noError_iff_any _).mp hfound])]
    rw [if_neg (by simp [(Finding.noError_iff_any _).mp htold]), hstage]
    simp [htold, eq_comm]
  · simp only [htold, false_and, iff_false, not_exists, not_and]
    rw [Finding.noError_iff_any, Bool.not_eq_false] at htold
    simp [htold]

/-- A run with a scene, seen from the scene. -/
theorem of_run_eq_ok {prepared : Prepared} {overrides : Overrides} {key : Option String}
    {compilation : Compilation} (h : prepared.run overrides key = .ok compilation) :
    Finding.NoError (prepared.found overrides key) ∧
      Finding.NoError (prepared.cast overrides key).findings ∧
        compilation.scene =
          ((prepared.cast overrides key).scene prepared.output prepared.canvas).1 :=
  (prepared.exists_run_eq_ok_iff overrides key compilation.scene).mp ⟨compilation, h, rfl⟩

theorem noError_found_iff (prepared : Prepared) (overrides : Overrides) (key : Option String) :
    Finding.NoError (prepared.found overrides key) ↔
      Finding.NoError prepared.findings ∧
        Finding.NoError (prepared.flow overrides key).findings ∧
          ((prepared.flow overrides key).delivered.map Token.name).Nodup ∧
            (prepared.coverage = .error →
              ∀ token ∈ (prepared.flow overrides key).delivered, token.insertTime.isSome) := by
  rw [found, Network.deliveryFindings, Finding.noError_append, Finding.noError_append,
    Finding.noError_append, Network.noError_repeatedDeliveries_iff,
    Network.noError_uninserted_iff, and_assoc]

/-- Whether no step of a run finds an error, told without putting anything in order. -/
def succeeds (prepared : Prepared) (overrides : Overrides) (key : Option String) : Bool :=
  !prepared.findings.any Finding.isError &&
    !(prepared.flow overrides key).findings.any Finding.isError &&
    decide ((prepared.flow overrides key).delivered.map Token.name).Nodup &&
    (prepared.coverage = .warning ||
      (prepared.flow overrides key).delivered.all fun token => token.insertTime.isSome) &&
    !(prepared.cast overrides key).findings.any Finding.isError

theorem succeeds_iff_noError (prepared : Prepared) (overrides : Overrides) (key : Option String) :
    prepared.succeeds overrides key = true ↔
      Finding.NoError (prepared.found overrides key) ∧
        Finding.NoError (prepared.cast overrides key).findings := by
  have hcoverage : ((prepared.coverage = .warning ||
      (prepared.flow overrides key).delivered.all fun token => token.insertTime.isSome) = true) ↔
        (prepared.coverage = .error →
          ∀ token ∈ (prepared.flow overrides key).delivered, token.insertTime.isSome) := by
    cases prepared.coverage <;> simp
  rw [noError_found_iff, succeeds]
  simp only [Bool.and_eq_true, hcoverage, Bool.not_eq_true', ← Finding.noError_iff_any,
    decide_eq_true_iff, and_assoc]

/-- There is a scene exactly if no step finds an error. -/
theorem succeeds_iff (prepared : Prepared) (overrides : Overrides) (key : Option String) :
    prepared.succeeds overrides key = true ↔
      ∃ compilation, prepared.run overrides key = .ok compilation := by
  rw [succeeds_iff_noError]
  constructor
  · rintro ⟨hfound, hcast⟩
    obtain ⟨compilation, hrun, -⟩ :=
      (prepared.exists_run_eq_ok_iff overrides key _).mpr ⟨hfound, hcast, rfl⟩
    exact ⟨compilation, hrun⟩
  · rintro ⟨compilation, hrun⟩
    obtain ⟨hfound, hcast, -⟩ := of_run_eq_ok hrun
    exact ⟨hfound, hcast⟩

/-- Whether a network has a scene can be computed, together with a check of what is prepared. -/
theorem exists_run_eq_ok (net : Network) (limits : Limits) (overrides : Overrides)
    (key : Option String) (check : Prepared → Bool)
    (h : ((net.prepare limits).toOption.any fun prepared =>
      prepared.succeeds overrides key && check prepared) = true) :
    ∃ prepared compilation, net.prepare limits = .ok prepared ∧
      prepared.run overrides key = .ok compilation ∧ check prepared = true := by
  cases hprepare : net.prepare limits with
  | error findings => simp [hprepare, Except.toOption] at h
  | ok prepared =>
    rw [hprepare, Except.toOption, Option.any_some, Bool.and_eq_true, succeeds_iff] at h
    obtain ⟨⟨compilation, hrun⟩, hcheck⟩ := h
    exact ⟨prepared, compilation, rfl, hrun, hcheck⟩

/-- The objects of a scene are those of the cast. -/
theorem mem_objects_iff {prepared : Prepared} {overrides : Overrides} {key : Option String}
    {compilation : Compilation} (h : prepared.run overrides key = .ok compilation)
    {object : SceneObject} :
    object ∈ compilation.scene.objects ↔ object ∈ (prepared.cast overrides key).objects := by
  obtain ⟨-, -, hscene⟩ := of_run_eq_ok h
  rw [hscene, Cast.scene, List.mem_mergeSort]

/-- Exactly the delivered objects are in a scene. -/
theorem mem_ids_iff {prepared : Prepared} {overrides : Overrides} {key : Option String}
    {compilation : Compilation} (h : prepared.run overrides key = .ok compilation)
    (object : NodeId) :
    object ∈ compilation.scene.objects.map SceneObject.id ↔
      0 < (prepared.flow overrides key).delivered.countP fun token => token.name = object := by
  obtain ⟨-, hcast, hscene⟩ := of_run_eq_ok h
  have hperm : (compilation.scene.objects.map SceneObject.id).Perm
      ((prepared.flow overrides key).delivered.map Token.name) := by
    rw [hscene, Cast.scene, ← Cast.map_id_objects hcast]
    exact (List.mergeSort_perm _ _).map _
  rw [hperm.mem_iff, List.mem_map, List.countP_pos_iff]
  simp

/-- The objects of a scene are delivered tokens. -/
theorem exists_token_of_mem_objects {prepared : Prepared} {overrides : Overrides}
    {key : Option String} {compilation : Compilation}
    (h : prepared.run overrides key = .ok compilation) {object : SceneObject}
    (hobject : object ∈ compilation.scene.objects) :
    ∃ token ∈ (prepared.flow overrides key).delivered,
      (token.object (prepared.resolver overrides key)).1 = .ok object := by
  exact Cast.mem_objects_iff.mp ((mem_objects_iff h).mp hobject)

/-- The motions of an object in a scene are those of the tokens that are delivered under its
name. -/
theorem motionsOf_eq {prepared : Prepared} {overrides : Overrides} {key : Option String}
    {compilation : Compilation} (h : prepared.run overrides key = .ok compilation) (id : NodeId) :
    compilation.scene.motionsOf id =
      (((prepared.flow overrides key).delivered.filter fun token => token.name = id).flatMap
        Token.objectMotions).mergeSort ObjectMotion.before := by
  obtain ⟨-, hcast, hscene⟩ := of_run_eq_ok h
  rw [hscene, Cast.motionsOf_scene, cast, Cast.motions_eq hcast, Token.filter_objectMotions]

/-- The animations of a scene are the motions of the delivered tokens. -/
theorem mem_animations_iff {prepared : Prepared} {overrides : Overrides} {key : Option String}
    {compilation : Compilation} (h : prepared.run overrides key = .ok compilation)
    (placed : ObjectMotion) :
    placed ∈ compilation.scene.animations ↔ ∃ token ∈ (prepared.flow overrides key).delivered,
      ∃ m ∈ token.motions, placed = ⟨token.name, m.2⟩ := by
  obtain ⟨-, hcast, hscene⟩ := of_run_eq_ok h
  rw [hscene, Cast.scene, List.mem_mergeSort, cast, Cast.motions_eq hcast, List.mem_flatMap]
  simp only [Token.objectMotions, List.mem_map, eq_comm]

/-- The animations of an object in a scene are the motions of its token in the order of their
starts. -/
theorem motionsOf_name {prepared : Prepared} {overrides : Overrides} {key : Option String}
    {compilation : Compilation} (h : prepared.run overrides key = .ok compilation) {token : Token}
    (htoken : token ∈ (prepared.flow overrides key).delivered) :
    compilation.scene.motionsOf token.name =
      token.objectMotions.mergeSort ObjectMotion.before := by
  obtain ⟨hfound, -, -⟩ := of_run_eq_ok h
  have hnames := ((noError_found_iff _ _ _).mp hfound).2.2.1
  have honly : (prepared.flow overrides key).delivered.filter
      (fun other => other.name = token.name) = [token] := by
    refine List.perm_singleton.mp ((List.perm_ext_iff_of_nodup ((hnames.of_map _).filter _)
      (List.nodup_singleton _)).mpr fun other => ?_)
    rw [List.mem_filter, List.mem_singleton, decide_eq_true_iff]
    exact ⟨fun ⟨hother, hname⟩ => List.inj_on_of_nodup_map hnames hother htoken hname,
      fun heq => ⟨heq ▸ htoken, congrArg Token.name heq⟩⟩
  rw [motionsOf_eq h, honly, List.flatMap_singleton]

theorem animations_perm {prepared : Prepared} {overrides : Overrides} {key : Option String}
    {compilation : Compilation} (h : prepared.run overrides key = .ok compilation) {token : Token}
    (htoken : token ∈ (prepared.flow overrides key).delivered) :
    (compilation.scene.animations.filter fun placed => placed.object = token.name).Perm
      token.objectMotions := by
  rw [← Scene.motionsOf, motionsOf_name h htoken]
  exact List.mergeSort_perm _ _

end Prepared

/-! ### Reports of objects that are delivered more than once -/

/-- An outcome reports that an object reaches the scene along several paths. -/
def Outcome.ReportsRepeated (outcome : Outcome) (object : NodeId) : Prop :=
  ∃ (diagnostics : List Diagnostic) (count : Nat), outcome = .error diagnostics ∧ ∃ d ∈ diagnostics,
    d.code = .duplicateObjectIds ∧
      d.message = "object '" ++ object.text ++ "' reaches the scene through " ++ toString count
        ++ " separate paths"

namespace Finding

/-- Only findings about repeated deliveries have their code. -/
theorem eq_repeatedDelivery_of_code {finding : Finding}
    (h : finding.diagnostic.code = .duplicateObjectIds) :
    ∃ object count origin again, finding = .repeatedDelivery object count origin again := by
  cases finding with
  | repeatedDelivery object count origin again => exact ⟨object, count, origin, again, rfl⟩
  | unresolved cause => cases cause <;> simp [diagnostic, error, QueryError.code] at h
  | _ => simp [diagnostic, error, StaleBinding.diagnostic] at h

end Finding

/-- What stands before the last occurrence of an item is determined by the list. -/
private theorem eq_of_append_cons_eq {α : Type} {a : α} {pre pre' post post' : List α}
    (h : pre ++ a :: post = pre' ++ a :: post') (hpost : a ∉ post) (hpost' : a ∉ post') :
    pre = pre' := by
  rcases List.append_eq_append_iff.mp h with ⟨mid, rfl, hmid⟩ | ⟨mid, rfl, hmid⟩
  · cases mid with
    | nil => rw [List.append_nil]
    | cons b mid => exact absurd ((List.cons.inj hmid).2 ▸ by simp) hpost
  · cases mid with
    | nil => rw [List.append_nil]
    | cons b mid => exact absurd ((List.cons.inj hmid).2 ▸ by simp) hpost'

/-- The message about repeated deliveries names the object, since numbers have no blanks. -/
theorem eq_of_repeatedDelivery_message {object other : String} {count count' : Nat}
    (h : "object '" ++ object ++ "' reaches the scene through " ++ toString count
        ++ " separate paths" =
      "object '" ++ other ++ "' reaches the scene through " ++ toString count'
        ++ " separate paths") : object = other := by
  have hblank : ∀ n : Nat, ' ' ∉ (toString n).toList := by
    intro n hmem
    have hdigit := Nat.isDigit_of_mem_toDigits (b := 10) (n := n) (by decide) (by decide)
      (c := ' ') (by simpa using hmem)
    simp at hdigit
  have hlists := congrArg String.toList ((String.append_left_inj _).mp h)
  have hsplit : ∀ (text : String) (n : Nat),
      ("object '" ++ text ++ "' reaches the scene through " ++ toString n).toList =
        ("object '" ++ text ++ "' reaches the scene through").toList ++ ' ' ::
          (toString n).toList := by
    intro text n
    simp
  rw [hsplit, hsplit] at hlists
  have hinit := String.toList_inj.mp
    (eq_of_append_cons_eq hlists (hblank count) (hblank count'))
  exact (String.append_right_inj _).mp ((String.append_left_inj _).mp hinit)

/-- What is found when tokens become objects is that bindings are passed over or that a transform
cannot be read. -/
theorem Cast.stale_or_badTransform_of_mem_findings {resolver : Resolver} {delivered : List Token}
    {finding : Finding} (h : finding ∈ (Cast.ofTokens resolver delivered).findings) :
    (∃ binding, finding = .stale binding) ∨
      ∃ object origin problem, finding = .badTransform object origin problem := by
  have hnotes : ∀ token : Token, ∀ note ∈ (token.object resolver).2,
      ∃ binding, note = .stale binding := by
    intro token note hnote
    obtain ⟨binding, -, rfl⟩ := List.mem_map.mp hnote
    exact ⟨binding, rfl⟩
  simp only [ofTokens, List.flatMap_map] at h
  obtain ⟨token, -, hmem⟩ := List.mem_flatMap.mp h
  match hobject : (token.object resolver).1 with
  | .ok object =>
    rw [hobject] at hmem
    exact .inl (hnotes token finding hmem)
  | .error problem =>
    rw [hobject] at hmem
    rcases List.mem_append.mp hmem with hmem | hmem
    · exact .inl (hnotes token finding hmem)
    · rw [List.mem_singleton.mp hmem]
      exact .inr (gravity_object hobject)

/-- What is found when tokens become objects is not about deliveries. -/
theorem Cast.code_ne_of_mem_findings {resolver : Resolver} {delivered : List Token}
    {finding : Finding} (h : finding ∈ (Cast.ofTokens resolver delivered).findings) :
    finding.diagnostic.code ≠ .duplicateObjectIds := by
  obtain ⟨_, rfl⟩ | ⟨_, _, _, rfl⟩ := stale_or_badTransform_of_mem_findings h <;>
    simp [Finding.diagnostic, Finding.error, StaleBinding.diagnostic]

namespace Prepared

variable {prepared : Prepared} {overrides : Overrides} {key : Option String}

/-- What a run without errors before the deliveries finds about deliveries. -/
theorem mem_found_iff (hfindings : Finding.NoError prepared.findings)
    (hquiet : Finding.NoError (prepared.flow overrides key).findings) {object origin : NodeId}
    {count : Nat} {again : List (EdgeId × NodeId)} :
    .repeatedDelivery object count origin again ∈ prepared.found overrides key ↔
      .repeatedDelivery object count origin again ∈
        prepared.network.repeatedDeliveries (prepared.flow overrides key).delivered := by
  have hnot : ∀ list, Finding.NoError list →
      .repeatedDelivery object count origin again ∉ list := fun list hlist hmem => by
    simpa [Finding.gravity] using hlist _ hmem
  rw [found, Network.deliveryFindings, List.mem_append, List.mem_append, List.mem_append,
    or_iff_right (not_or.mpr ⟨hnot _ hfindings, hnot _ hquiet⟩), or_iff_left]
  simp [Network.uninserted]

/-- Exactly the objects that are delivered more than once are reported. -/
theorem reportsRepeated_iff (hfindings : Finding.NoError prepared.findings)
    (hquiet : Finding.NoError (prepared.flow overrides key).findings) (object : NodeId) :
    (prepared.run overrides key).ReportsRepeated object ↔
      2 ≤ (prepared.flow overrides key).delivered.countP fun token => token.name = object := by
  rw [← Delivery.exists_mem_repeated_iff, Outcome.ReportsRepeated, run_eq]
  constructor
  · rintro ⟨diagnostics, count, herror, d, hd, hcode, hmessage⟩
    split at herror
    · obtain rfl := Except.error.inj herror
      rw [mem_errorsFirst, mem_distinct, List.mem_map] at hd
      obtain ⟨finding, hmem, rfl⟩ := hd
      obtain ⟨other, count', origin, again, rfl⟩ := Finding.eq_repeatedDelivery_of_code hcode
      rw [told, List.mem_append, List.mem_append] at hmem
      rcases hmem with (hfound | hcast) | hlate
      · rw [mem_found_iff hfindings hquiet, Network.mem_repeatedDeliveries_iff] at hfound
        obtain ⟨delivery, hdelivery, heq⟩ := hfound
        obtain ⟨rfl, rfl, -, -⟩ := Finding.repeatedDelivery.inj heq
        exact ⟨delivery, hdelivery,
          NodeId.eq_iff_text.mpr (eq_of_repeatedDelivery_message hmessage)⟩
      · rw [stage] at hcast
        split at hcast
        · exact absurd hcast List.not_mem_nil
        · exact absurd hcode (Cast.code_ne_of_mem_findings hcast)
      · have hwarning := noError_timeFindings _ _ _ hlate
        simp [Finding.gravity] at hwarning
    · simp at herror
  · rintro ⟨delivery, hdelivery, rfl⟩
    have hmem := (mem_found_iff hfindings hquiet).mpr
      ((Network.mem_repeatedDeliveries_iff _ _ _).mpr ⟨delivery, hdelivery, rfl⟩)
    have htold : .repeatedDelivery delivery.object delivery.count delivery.origin _ ∈
        prepared.told overrides key :=
      List.mem_append_left _ (List.mem_append_left _ hmem)
    rw [if_pos (List.any_eq_true.mpr ⟨_, htold, rfl⟩)]
    obtain ⟨d, hd, hcode, hmessage⟩ : ∃ d ∈ (prepared.told overrides key).map Finding.diagnostic,
        d.code = .duplicateObjectIds ∧ d.message = "object '" ++ delivery.object.text
          ++ "' reaches the scene through " ++ toString delivery.count ++ " separate paths" :=
      ⟨_, List.mem_map_of_mem htold, rfl, rfl⟩
    refine ⟨_, delivery.count, rfl, d, mem_errorsFirst.mpr ?_, hcode, hmessage⟩
    rwa [mem_distinct]

end Prepared

end SceneFlow
