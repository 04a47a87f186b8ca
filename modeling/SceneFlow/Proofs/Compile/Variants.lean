import Mathlib
import SceneFlow.Compile.Batch
import SceneFlow.Proofs.Compile.Delivery
import SceneFlow.Proofs.Override.Resolution

/-!
# Variants

A run looks at overrides in two places only: where an animation node resolves its tracks for a
token, and where a delivered token becomes an object. So runs whose resolvers agree at every object
have one outcome, down to the last note and its place among the others. Overrides that differ in
batch slots of other variants give a variant resolvers of this kind.

## Main definitions

* `Network.outcome`: the outcome for a variant, or for none.

## Main results

* `Prepared.run_congr`: runs with resolvers that agree have one outcome.
* `Network.batch_eq`: a batch is made of outcomes.
* `Network.outcome_of_slots`: the outcome for a variant depends on no slots of other variants.
-/

namespace SceneFlow

/-! ### Runs with resolvers that agree -/

section Congr

variable {resolver other : Resolver}
  (h : ∀ object, Resolver.AgreesAt (.object object) resolver other)
include h

theorem Node.pass_congr (node : Node) (coverage : Severity) (limit created : ℕ)
    (tokens : List Token) :
    node.pass ⟨resolver, coverage, limit⟩ created tokens =
      node.pass ⟨other, coverage, limit⟩ created tokens := by
  have hanimate : ∀ data : Animation,
      data.animate resolver node.id = data.animate other node.id := fun data => by
    funext token
    exact (h token.name).animate_eq data node.id
  simp only [pass, hanimate]

theorem Network.flow_congr (net : Network) (coverage : Severity) (limit : ℕ) :
    net.flow ⟨resolver, coverage, limit⟩ = net.flow ⟨other, coverage, limit⟩ := by
  have hturn : net.turn ⟨resolver, coverage, limit⟩ = net.turn ⟨other, coverage, limit⟩ := by
    funext flow v
    simp only [turn, Node.pass_congr h]
  rw [flow, flow, hturn]

theorem Cast.ofTokens_congr (delivered : List Token) :
    ofTokens resolver delivered = ofTokens other delivered := by
  have hobject : ∀ token : Token, token.object resolver = token.object other :=
    fun token => (h token.name).object_eq
  simp only [ofTokens, hobject]

end Congr

/-- Runs with resolvers that agree have one outcome. -/
theorem Prepared.run_congr (prepared : Prepared) {overrides other : Overrides}
    {key key' : Option String}
    (h : ∀ object, Resolver.AgreesAt (.object object) (prepared.resolver overrides key)
      (prepared.resolver other key')) :
    prepared.run overrides key = prepared.run other key' := by
  have hflow : prepared.flow overrides key = prepared.flow other key' :=
    prepared.network.flow_congr h prepared.coverage prepared.instances
  rw [run, run, hflow, Cast.ofTokens_congr h]

/-! ### The outcomes of a batch -/

namespace Network

/-- The outcome for a variant of a network, or for none. -/
def outcome (net : Network) (overrides : Overrides) (limits : Limits) (key : Option String) :
    Outcome :=
  match net.prepare limits with
  | .error findings => .error (findings.map Finding.diagnostic)
  | .ok prepared => prepared.run overrides key

theorem outcome_none (net : Network) (overrides : Overrides) (limits : Limits) :
    net.outcome overrides limits none = net.compile overrides limits :=
  rfl

theorem outcome_eq_ok_iff {net : Network} {overrides : Overrides} {limits : Limits}
    {key : Option String} {compilation : Compilation} :
    net.outcome overrides limits key = .ok compilation ↔
      ∃ prepared, net.prepare limits = .ok prepared ∧
        prepared.run overrides key = .ok compilation := by
  rw [outcome]
  cases net.prepare limits <;> simp

/-- There is a scene if no step finds an error. -/
theorem exists_outcome_eq_ok {net : Network} {overrides : Overrides} {limits : Limits}
    {key : Option String}
    (h : (match net.prepare limits with
      | .error _ => false
      | .ok prepared => prepared.succeeds overrides key) = true) :
    ∃ compilation, net.outcome overrides limits key = .ok compilation := by
  split at h
  · cases h
  · rename_i prepared hprepare
    obtain ⟨compilation, hrun⟩ := (prepared.succeeds_iff overrides key).mp h
    exact ⟨compilation, outcome_eq_ok_iff.mpr ⟨prepared, hprepare, hrun⟩⟩

/-- A batch is made of the outcome without any variant and the outcomes for the variants. -/
theorem batch_eq (net : Network) (overrides : Overrides) (limits : Limits)
    (workers : Option ℕ) :
    net.batch overrides limits workers =
      match net.outcome overrides limits none with
      | .error diagnostics => .error (.base diagnostics)
      | .ok base =>
        if !overrides.batchKeys.isEmpty && workers = some 0 then .error .noWorkers
        else .ok ⟨base, overrides.batchKeys.map fun key =>
          ⟨key, net.outcome overrides limits (some key)⟩⟩ := by
  simp only [batch, outcome]
  cases net.prepare limits <;> rfl

/-- The outcomes in a batch. -/
theorem outcome_of_batch_eq_ok {net : Network} {overrides : Overrides} {limits : Limits}
    {workers : Option ℕ} {batch : Batch} (h : net.batch overrides limits workers = .ok batch) :
    net.outcome overrides limits none = .ok batch.base ∧
      ∀ variant ∈ batch.variants,
        variant.outcome = net.outcome overrides limits (some variant.key) := by
  rw [batch_eq] at h
  split at h
  · cases h
  · rename_i base hbase
    split at h
    · cases h
    · obtain rfl := Except.ok.inj h
      refine ⟨hbase, fun variant hvariant => ?_⟩
      obtain ⟨key, -, rfl⟩ := List.mem_map.mp hvariant
      rfl

theorem outcome_eq_of_run_eq {net : Network} {overrides other : Overrides} {limits : Limits}
    {key key' : Option String}
    (h : ∀ prepared : Prepared, prepared.run overrides key = prepared.run other key') :
    net.outcome overrides limits key = net.outcome other limits key' := by
  rw [outcome, outcome]
  split
  · rfl
  · rename_i prepared _
    exact h prepared

end Network

/-! ### Slots of other variants -/

theorem Resolver.bind_slot? (overrides : Overrides) (values : VariableValues) (key : String)
    (f : String → Option Json) :
    (Resolver.mk overrides values (some key)).slot?.bind f =
      if key = defaultKey then none else f key := by
  rw [slot?, Option.filter_some]
  by_cases hkey : key = defaultKey <;> simp [hkey]

/-- Resolvers agree if their overrides differ at most in batch slots of which none is that of their
variants or that of all variants. -/
theorem Resolver.agreesAt_of_slots {overrides other : Overrides}
    (hmanual : overrides.manual = other.manual) (hbindings : overrides.bindings = other.bindings)
    (hdefault : ∀ field scope,
      overrides.slot? field scope defaultKey = other.slot? field scope defaultKey)
    {values : VariableValues} {key key' : Option String}
    (hkey : ∀ field scope,
      (Resolver.mk overrides values key).slot?.bind (overrides.slot? field scope) =
        (Resolver.mk other values key').slot?.bind (other.slot? field scope))
    (scope : ObjectScope) : AgreesAt scope ⟨overrides, values, key⟩ ⟨other, values, key'⟩ where
  binding? _ _ _ := by simp only [Overrides.binding?, hbindings]
  keySlot? field s _ := hkey field s
  defaultSlot? field s _ := hdefault field s
  manual? _ := by simp only [Overrides.manual?, hmanual]
  get? _ := rfl

/-- Variants do not see each other. The outcome for a variant is the same with any overrides that
have the same assignments, the same bindings and the same batch slots of this variant and of all
variants, and likewise without any variant. A variant without slots has the outcome that there is
without any variant. So two batches with such overrides have the same base and the same variants,
as far as the slots of these are the same. -/
theorem Network.outcome_of_slots (net : Network) (limits : Limits) {overrides other : Overrides}
    (hmanual : overrides.manual = other.manual) (hbindings : overrides.bindings = other.bindings)
    (hdefault : ∀ field scope,
      overrides.slot? field scope defaultKey = other.slot? field scope defaultKey) :
    net.compile overrides limits = net.compile other limits ∧
    (∀ key, (∀ field scope, overrides.slot? field scope key = other.slot? field scope key) →
      net.outcome overrides limits (some key) = net.outcome other limits (some key)) ∧
    (∀ key, (∀ field scope, overrides.slot? field scope key = none) →
      net.outcome overrides limits (some key) = net.compile overrides limits) ∧
    ∀ workers workers' batch batch', net.batch overrides limits workers = .ok batch →
      net.batch other limits workers' = .ok batch' →
        batch.base = batch'.base ∧
        ∀ variant ∈ batch.variants, ∀ variant' ∈ batch'.variants, variant.key = variant'.key →
          (∀ field scope, overrides.slot? field scope variant.key =
            other.slot? field scope variant.key) → variant.outcome = variant'.outcome := by
  have hbase : net.compile overrides limits = net.compile other limits := by
    rw [← outcome_none, ← outcome_none]
    exact outcome_eq_of_run_eq fun prepared => prepared.run_congr fun object =>
      Resolver.agreesAt_of_slots hmanual hbindings hdefault (fun _ _ => rfl) (.object object)
  have hvariant : ∀ key, (∀ field scope,
      overrides.slot? field scope key = other.slot? field scope key) →
        net.outcome overrides limits (some key) = net.outcome other limits (some key) := by
    intro key hslots
    refine outcome_eq_of_run_eq fun prepared => prepared.run_congr fun object =>
      Resolver.agreesAt_of_slots hmanual hbindings hdefault (fun field scope => ?_) (.object object)
    rw [Resolver.bind_slot?, Resolver.bind_slot?, hslots]
  refine ⟨hbase, hvariant, fun key hnone => ?_, ?_⟩
  · rw [← outcome_none]
    refine outcome_eq_of_run_eq fun prepared => prepared.run_congr fun object =>
      Resolver.agreesAt_of_slots rfl rfl (fun _ _ => rfl) (fun field scope => ?_) (.object object)
    rw [Resolver.bind_slot?, hnone, ite_self]
    rfl
  · intro workers workers' batch batch' hbatch hbatch'
    obtain ⟨hfirst, hvariants⟩ := outcome_of_batch_eq_ok hbatch
    obtain ⟨hfirst', hvariants'⟩ := outcome_of_batch_eq_ok hbatch'
    rw [outcome_none] at hfirst hfirst'
    refine ⟨Except.ok.inj (hfirst.symm.trans (hbase.trans hfirst')), ?_⟩
    intro variant hmem variant' hmem' hkey hslots
    rw [hvariants variant hmem, hvariants' variant' hmem', hvariant _ hslots, hkey]

/-! ### A network with two objects -/

/-- The circles `a` and `b` fade in at `f`. -/
def fadingPair : Network :=
  .ofLinks
    #[⟨⟨"a"⟩, "", .geometry .plainCircle⟩, ⟨⟨"b"⟩, "", .geometry .plainCircle⟩,
      ⟨⟨"f"⟩, "", .animation ⟨[⟨none, .fade, 0, 1, .linear, []⟩], none⟩⟩,
      ⟨⟨"s"⟩, "", .terminal .video .small⟩]
    [⟨⟨⟨"e1"⟩, ⟨"a"⟩, ⟨""⟩, ⟨"f"⟩, ⟨""⟩⟩, 0, 2⟩, ⟨⟨⟨"e2"⟩, ⟨"b"⟩, ⟨""⟩, ⟨"f"⟩, ⟨""⟩⟩, 1, 2⟩,
      ⟨⟨⟨"e3"⟩, ⟨"f"⟩, ⟨""⟩, ⟨"s"⟩, ⟨""⟩⟩, 2, 3⟩]
    [] ⟨0, 0⟩

/-- Fading takes two seconds, three in the variant `slow`, and some time in the variant `other`. -/
def slowVariant (time : Json) : Overrides :=
  { Overrides.empty with
    batch := .ofList [("Timeline.fade.duration",
      ⟨some ((Table.ofList [("default", .ofFloat 2), ("slow", .ofFloat 3)]).insert "other" time),
        ∅⟩)] }

theorem slot?_slowVariant {slot : String} (h : slot ≠ "other") (time time' : Json)
    (field : FieldPath) (scope : ObjectScope) :
    (slowVariant time).slot? field scope slot = (slowVariant time').slot? field scope slot := by
  have hslots : ∀ (table : Table Json),
      (table.insert "other" time).get? slot = (table.insert "other" time').get? slot := by
    intro table
    change Entries.get? (Entries.insert _ _ _) _ = Entries.get? (Entries.insert _ _ _) _
    rw [Entries.get?_insert, Entries.get?_insert, if_neg h.symm, if_neg h.symm]
  change Option.bind (if "Timeline.fade.duration" = field.text then some _ else none) _ =
    Option.bind (if "Timeline.fade.duration" = field.text then some _ else none) _
  split
  · cases scope with
    | all => exact hslots _
    | object id => rfl
  · rfl

/-- There is a scene for the variant `slow`. -/
theorem exists_outcome_fadingPair :
    ∃ compilation, fadingPair.outcome (slowVariant (.ofFloat 4)) .standard (some "slow") =
      .ok compilation :=
  Network.exists_outcome_eq_ok (by decide +kernel)

/-- The variant `slow` has one outcome, whatever the variant `other` has in its slot. -/
theorem outcome_of_slots_fadingPair :
    ∃ compilation,
      fadingPair.outcome (slowVariant (.ofFloat 4)) .standard (some "slow") = .ok compilation ∧
        fadingPair.outcome (slowVariant (.str "long")) .standard (some "slow") =
          .ok compilation := by
  have hmanual : (slowVariant (.ofFloat 4)).manual = (slowVariant (.str "long")).manual := rfl
  obtain ⟨-, hvariants, -, -⟩ := fadingPair.outcome_of_slots .standard hmanual rfl
    (slot?_slowVariant (by decide) _ _)
  rw [← hvariants "slow" (slot?_slowVariant (by decide) _ _)]
  obtain ⟨compilation, houtcome⟩ := exists_outcome_fadingPair
  exact ⟨compilation, houtcome, houtcome⟩

end SceneFlow
