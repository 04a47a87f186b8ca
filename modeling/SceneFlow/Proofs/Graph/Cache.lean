import Mathlib
import SceneFlow.Graph.Cache
import SceneFlow.Proofs.Graph.Construction

/-!
# The history of a cache of networks

What a cache keeps is told by the calls it has answered. A key is *last answered* by the latest of
the calls under it that came out with a network, and a call *clears* the cache if it builds a
network for a cache that is full. The cache keeps, under each key, the network with which the key
was last answered, unless the cache has been cleared since. So every call is answered with that
network, or with one that no call before it has been answered with, or it fails and leaves the
cache as it was.

## Main definitions

* `CacheCall`, `NetworkCache.call`, `NetworkCache.calls`: calls, and the calls on a list of graphs.
* `LastAnswered`: the latest answer under a key.
* `CacheCall.Clears`: when only one network is left.
* `NetworkCache.Follows`: what a cache has to do with the calls it has answered.
* `CacheCall.Correct`: what a call has to do with the calls before it.

## Main results

* `NetworkCache.call_cases`: what a call can do.
* `NetworkCache.follows_afterCalls`: a cache follows its calls.
* `NetworkCache.correct_call`: all calls on a cache are correct.
-/

namespace SceneFlow

/-- A call for the network of a graph. -/
structure CacheCall where
  /-- The graph. -/
  graph : Graph
  /-- The cache that is called. -/
  before : NetworkCache
  /-- The network of the graph, or why there is none. -/
  answer : Except PayloadError BuiltNetwork
  /-- The cache that is left. -/
  after : NetworkCache

namespace CacheCall

/-- The fingerprint under which a call looks for a network. -/
def key (call : CacheCall) : Fingerprint :=
  call.graph.fingerprint

/-- The call is answered with a network. -/
def Succeeds (call : CacheCall) : Prop :=
  ∃ held, call.answer = .ok held

/-- The call builds a network although the cache is full. -/
structure Clears (call : CacheCall) : Prop where
  /-- The network was not in the cache. -/
  find?_eq_none : call.before.find? call.key = none
  /-- It could be built. -/
  succeeds : call.Succeeds
  /-- There was no room for it. -/
  capacity_le : call.before.capacity ≤ call.before.size

end CacheCall

/-- The network that answered the latest of some calls that succeeded under a key, and the calls
that came later. -/
def LastAnswered (calls : List CacheCall) (key : Fingerprint) (held : BuiltNetwork)
    (later : List CacheCall) : Prop :=
  ∃ old last, calls = old ++ last :: later ∧ last.key = key ∧ last.answer = .ok held ∧
    ∀ call ∈ later, call.key = key → ¬ call.Succeeds

/-- A network answered the latest successful call under a key, and no call has cleared the cache
since. -/
def Remembered (calls : List CacheCall) (key : Fingerprint) (held : BuiltNetwork) : Prop :=
  ∃ later, LastAnswered calls key held later ∧ ∀ call ∈ later, ¬ call.Clears

section LastAnswered

variable {calls later other : List CacheCall} {call : CacheCall} {key : Fingerprint}
  {held kept : BuiltNetwork}

theorem not_lastAnswered_nil : ¬ LastAnswered [] key held later := by
  rintro ⟨old, last, heq, -⟩
  simp at heq

/-- The latest answer is that of the last call, or the latest before it. -/
theorem lastAnswered_concat_iff : LastAnswered (calls ++ [call]) key held later ↔
    (later = [] ∧ call.key = key ∧ call.answer = .ok held) ∨
      ∃ rest, later = rest ++ [call] ∧ (call.key = key → ¬ call.Succeeds) ∧
        LastAnswered calls key held rest := by
  constructor
  · rintro ⟨old, last, heq, hkey, hlast, hlater⟩
    obtain rfl | ⟨rest, final, rfl⟩ := List.eq_nil_or_concat later
    · obtain ⟨-, rfl⟩ := List.append_singleton_inj.mp heq
      exact .inl ⟨rfl, hkey, hlast⟩
    · rw [List.concat_eq_append, ← List.cons_append, ← List.append_assoc] at heq
      obtain ⟨rfl, rfl⟩ := List.append_singleton_inj.mp heq
      simp only [List.concat_eq_append, List.forall_mem_append, List.forall_mem_singleton] at hlater
      exact .inr ⟨rest, List.concat_eq_append, hlater.2, old, last, rfl, hkey, hlast, hlater.1⟩
  · rintro (⟨rfl, hkey, hcall⟩ | ⟨rest, rfl, hcall, old, last, rfl, hkey, hlast, hrest⟩)
    · exact ⟨calls, call, rfl, hkey, hcall, by simp⟩
    · refine ⟨old, last, by simp, hkey, hlast, ?_⟩
      simp only [List.forall_mem_append, List.forall_mem_singleton]
      exact ⟨hrest, hcall⟩

theorem LastAnswered.unique (h : LastAnswered calls key held later)
    (h' : LastAnswered calls key kept other) : held = kept ∧ later = other := by
  induction calls using List.reverseRecOn generalizing later other with
  | nil => exact absurd h not_lastAnswered_nil
  | append_singleton calls call ih =>
    obtain ⟨rfl, hkey, hcall⟩ | ⟨rest, rfl, hcall, hrest⟩ := lastAnswered_concat_iff.mp h <;>
      obtain ⟨rfl, hkey', hcall'⟩ | ⟨rest', rfl, hcall', hrest'⟩ := lastAnswered_concat_iff.mp h'
    · exact ⟨Except.ok.inj (hcall.symm.trans hcall'), rfl⟩
    · exact absurd ⟨held, hcall⟩ (hcall' hkey)
    · exact absurd ⟨kept, hcall'⟩ (hcall hkey')
    · obtain ⟨rfl, rfl⟩ := ih hrest hrest'
      exact ⟨rfl, rfl⟩

/-- What is remembered has been given as an answer. -/
theorem Remembered.exists_call (h : Remembered calls key held) :
    ∃ call ∈ calls, call.answer = .ok held := by
  obtain ⟨later, ⟨old, last, rfl, -, hlast, -⟩, -⟩ := h
  exact ⟨last, by simp, hlast⟩

theorem not_remembered_nil : ¬ Remembered [] key held :=
  fun ⟨_, h, _⟩ => not_lastAnswered_nil h

/-- A call is remembered until the cache is cleared, and brings what was remembered under its key
out of memory. -/
theorem remembered_concat_iff : Remembered (calls ++ [call]) key held ↔
    (call.key = key ∧ call.answer = .ok held) ∨
      (call.key = key → ¬ call.Succeeds) ∧ ¬ call.Clears ∧ Remembered calls key held := by
  constructor
  · rintro ⟨later, hlast, hclear⟩
    obtain ⟨-, hkey, hcall⟩ | ⟨rest, rfl, hcall, hrest⟩ := lastAnswered_concat_iff.mp hlast
    · exact .inl ⟨hkey, hcall⟩
    · rw [List.forall_mem_append, List.forall_mem_singleton] at hclear
      exact .inr ⟨hcall, hclear.2, rest, hrest, hclear.1⟩
  · rintro (⟨hkey, hcall⟩ | ⟨hcall, hnot, rest, hrest, hclear⟩)
    · exact ⟨[], lastAnswered_concat_iff.mpr (.inl ⟨rfl, hkey, hcall⟩), by simp⟩
    · refine ⟨rest ++ [call], lastAnswered_concat_iff.mpr (.inr ⟨rest, rfl, hcall, hrest⟩), ?_⟩
      rw [List.forall_mem_append, List.forall_mem_singleton]
      exact ⟨hclear, hnot⟩

end LastAnswered

namespace NetworkCache

/-- The call on a cache for the network of a graph. A call that fails leaves the cache as it is. -/
def call (cache : NetworkCache) (graph : Graph) : CacheCall :=
  match cache.getOrBuild graph with
  | .ok (held, next) => ⟨graph, cache, .ok held, next⟩
  | .error cause => ⟨graph, cache, .error cause, cache⟩

/-- The calls for the networks of some graphs, one after the other. -/
def calls (cache : NetworkCache) : List Graph → List CacheCall
  | [] => []
  | graph :: rest => cache.call graph :: calls (cache.call graph).after rest

/-- The cache after the calls for the networks of some graphs. -/
def afterCalls (cache : NetworkCache) (graphs : List Graph) : NetworkCache :=
  graphs.foldl (fun cache graph => (cache.call graph).after) cache

variable (cache : NetworkCache) (graph : Graph)

/-- A call finds the network, or the payload of a node does not fit, or the network is built. -/
theorem call_cases :
    (∃ held, cache.find? graph.fingerprint = some held ∧
      cache.call graph = ⟨graph, cache, .ok held, cache⟩) ∨
    (cache.find? graph.fingerprint = none ∧ ∃ cause, Network.ofGraph graph = .error cause ∧
      cache.call graph = ⟨graph, cache, .error cause, cache⟩) ∨
    (cache.find? graph.fingerprint = none ∧ ∃ network, Network.ofGraph graph = .ok network ∧
      cache.call graph = ⟨graph, cache, .ok (cache.keep graph.fingerprint network).1,
        (cache.keep graph.fingerprint network).2⟩) := by
  match hfind : cache.find? graph.fingerprint with
  | some held => exact .inl ⟨held, rfl, by simp [call, getOrBuild, hfind]⟩
  | none =>
    match hnet : Network.ofGraph graph with
    | .error cause =>
      refine .inr (.inl ⟨rfl, cause, rfl, ?_⟩)
      simp [call, getOrBuild, hfind, hnet, Bind.bind, Except.bind]
    | .ok network =>
      refine .inr (.inr ⟨rfl, network, rfl, ?_⟩)
      simp [call, getOrBuild, hfind, hnet, Bind.bind, Except.bind]

@[simp]
theorem call_graph : (cache.call graph).graph = graph := by
  obtain ⟨_, -, h⟩ | ⟨-, _, -, h⟩ | ⟨-, _, -, h⟩ := cache.call_cases graph <;> rw [h]

@[simp]
theorem call_before : (cache.call graph).before = cache := by
  obtain ⟨_, -, h⟩ | ⟨-, _, -, h⟩ | ⟨-, _, -, h⟩ := cache.call_cases graph <;> rw [h]

@[simp]
theorem call_key : (cache.call graph).key = graph.fingerprint := by
  rw [CacheCall.key, call_graph]

theorem calls_concat (graphs : List Graph) : cache.calls (graphs ++ [graph]) =
    cache.calls graphs ++ [(cache.afterCalls graphs).call graph] := by
  induction graphs generalizing cache with
  | nil => rfl
  | cons first rest ih => simp only [List.cons_append, calls, ih, afterCalls, List.foldl_cons]

theorem afterCalls_concat (graphs : List Graph) : cache.afterCalls (graphs ++ [graph]) =
    ((cache.afterCalls graphs).call graph).after := by
  simp [afterCalls]

/-! ### Keeping a network -/

section Keep

variable {cache} {key other : Fingerprint} {held : BuiltNetwork} {network : Network}

theorem size_keep_le (hpos : 1 ≤ cache.capacity) :
    (cache.keep key network).2.size ≤ cache.capacity := by
  rw [size, keep]
  split
  · simpa using hpos
  · rw [List.length_cons, ← size]
    omega

theorem entries_keep_subset :
    (cache.keep key network).2.entries ⊆ (key, (cache.keep key network).1) :: cache.entries := by
  rw [keep]
  split <;> simp

theorem nodup_keys_keep (h : (cache.entries.map Prod.fst).Nodup) (hnone : cache.find? key = none) :
    ((cache.keep key network).2.entries.map Prod.fst).Nodup := by
  rw [keep]
  split
  · simp
  · have hmem : key ∉ cache.entries.map Prod.fst := by
      intro hmem
      obtain ⟨entry, hentry, rfl⟩ := List.mem_map.mp hmem
      simpa using List.lookup_eq_none_iff.mp hnone entry hentry
    exact List.nodup_cons.mpr ⟨hmem, h⟩

/-- What is found after a network has been kept. -/
theorem find?_keep_eq_some_iff : (cache.keep key network).2.find? other = some held ↔
    (key = other ∧ (cache.keep key network).1 = held) ∨
      key ≠ other ∧ ¬ cache.capacity ≤ cache.size ∧ cache.find? other = some held := by
  by_cases hkey : key = other
  · simp [find?, keep, hkey]
  · by_cases hfull : cache.capacity ≤ cache.size <;>
      simp [find?, keep, List.lookup_cons, hkey, hfull, beq_false_of_ne (Ne.symm hkey)]

end Keep

/-! ### Runs -/

/-- What a cache has to do with the calls it has answered. -/
structure Follows (capacity : Nat) (calls : List CacheCall) (cache : NetworkCache) : Prop where
  /-- The capacity stays. -/
  capacity_eq : cache.capacity = max capacity 1
  /-- There are no more networks than that. -/
  size_le : cache.size ≤ cache.capacity
  /-- There is one network under a key. -/
  nodup_keys : (cache.entries.map Prod.fst).Nodup
  /-- Networks are kept under the fingerprints of their graphs. -/
  key_eq : ∀ entry ∈ cache.entries, entry.1 = entry.2.network.fingerprint
  /-- The calls have been answered with networks that are not built any more. -/
  serial_lt : ∀ call ∈ calls, ∀ held, call.answer = .ok held → held.serial < cache.built
  /-- The cache keeps what is remembered. -/
  find?_eq_some_iff : ∀ key held, cache.find? key = some held ↔ Remembered calls key held

section Follows

variable {capacity : Nat} {past : List CacheCall} {cache : NetworkCache}

theorem follows_empty (capacity : Nat) : Follows capacity [] (empty capacity) where
  capacity_eq := rfl
  size_le := Nat.zero_le _
  nodup_keys := List.nodup_nil
  key_eq _ h := absurd h List.not_mem_nil
  serial_lt _ h := absurd h List.not_mem_nil
  find?_eq_some_iff _ _ := iff_of_false (by simp [find?, empty]) not_remembered_nil

theorem Follows.key_eq_of_find? (h : Follows capacity past cache) {key : Fingerprint}
    {held : BuiltNetwork} (hfind : cache.find? key = some held) :
    held.network.fingerprint = key := by
  obtain ⟨_, _, heq, -⟩ := List.lookup_eq_some_iff.mp hfind
  exact (h.key_eq (key, held) (heq ▸ by simp)).symm

theorem fingerprint_of_ofGraph {graph : Graph} {network : Network}
    (h : Network.ofGraph graph = .ok network) : network.fingerprint = graph.fingerprint := by
  obtain ⟨_, -, rfl⟩ := Network.ofGraph_eq_ok_iff.mp h
  rfl

/-- A call leads from a cache that follows the calls before to one that follows it too. -/
theorem Follows.call (h : Follows capacity past cache) (graph : Graph) :
    Follows capacity (past ++ [cache.call graph]) (cache.call graph).after := by
  obtain ⟨held, hfind, hcall⟩ | ⟨hfind, cause, hnet, hcall⟩ | ⟨hfind, network, hnet, hcall⟩ :=
    cache.call_cases graph
  · rw [hcall]
    have hclear : ¬ CacheCall.Clears ⟨graph, cache, .ok held, cache⟩ := fun hclear => by
      simpa [CacheCall.key, hfind] using hclear.find?_eq_none
    obtain ⟨old, hold, hanswer⟩ := ((h.find?_eq_some_iff _ _).mp hfind).exists_call
    refine ⟨h.capacity_eq, h.size_le, h.nodup_keys, h.key_eq, ?_, fun key kept => ?_⟩
    · rw [List.forall_mem_append, List.forall_mem_singleton]
      exact ⟨h.serial_lt, fun _ heq => Except.ok.inj heq ▸ h.serial_lt old hold held hanswer⟩
    · rw [remembered_concat_iff, ← h.find?_eq_some_iff]
      by_cases hkey : graph.fingerprint = key
      · subst hkey
        simp [CacheCall.key, CacheCall.Succeeds, hfind]
      · simp [CacheCall.key, hkey, hclear]
  · rw [hcall]
    have hfails : ¬ CacheCall.Succeeds ⟨graph, cache, .error cause, cache⟩ := fun ⟨_, heq⟩ => by
      cases heq
    refine ⟨h.capacity_eq, h.size_le, h.nodup_keys, h.key_eq, ?_, fun key kept => ?_⟩
    · rw [List.forall_mem_append, List.forall_mem_singleton]
      exact ⟨h.serial_lt, fun _ heq => by cases heq⟩
    · have hclear : ¬ CacheCall.Clears ⟨graph, cache, .error cause, cache⟩ := fun hclear =>
        hfails hclear.succeeds
      rw [remembered_concat_iff, ← h.find?_eq_some_iff]
      simp [hfails, hclear]
  · rw [hcall]
    refine ⟨h.capacity_eq, ?_, nodup_keys_keep h.nodup_keys hfind, ?_, ?_, fun key kept => ?_⟩
    · refine size_keep_le ?_
      rw [h.capacity_eq]
      exact le_max_right _ _
    · intro entry hentry
      obtain rfl | hentry := List.mem_cons.mp (entries_keep_subset hentry)
      · exact (fingerprint_of_ofGraph hnet).symm
      · exact h.key_eq entry hentry
    · rw [List.forall_mem_append, List.forall_mem_singleton]
      refine ⟨fun old hold held heq => (h.serial_lt old hold held heq).trans (Nat.lt_succ_self _),
        fun held heq => ?_⟩
      rw [← Except.ok.inj heq]
      exact Nat.lt_succ_self _
    · rw [remembered_concat_iff, ← h.find?_eq_some_iff, find?_keep_eq_some_iff]
      have hclear : CacheCall.Clears ⟨graph, cache, .ok (cache.keep graph.fingerprint network).1,
          (cache.keep graph.fingerprint network).2⟩ ↔ cache.capacity ≤ cache.size :=
        ⟨fun hclear => hclear.capacity_le, fun hfull => ⟨hfind, ⟨_, rfl⟩, hfull⟩⟩
      simp [CacheCall.key, CacheCall.Succeeds, hclear]

/-- After any calls a cache follows them. -/
theorem follows_afterCalls (capacity : Nat) (graphs : List Graph) :
    Follows capacity ((empty capacity).calls graphs) ((empty capacity).afterCalls graphs) := by
  induction graphs using List.reverseRecOn with
  | nil => exact follows_empty capacity
  | append_singleton graphs graph ih =>
    rw [calls_concat, afterCalls_concat]
    exact ih.call graph

/-- A call is answered with what is remembered. -/
theorem Follows.call_of_remembered (h : Follows capacity past cache) {graph : Graph}
    {held : BuiltNetwork} (hheld : Remembered past graph.fingerprint held) :
    cache.call graph = ⟨graph, cache, .ok held, cache⟩ := by
  have hfind := (h.find?_eq_some_iff _ _).mpr hheld
  obtain ⟨other, hother, hcall⟩ | ⟨hnone, -⟩ | ⟨hnone, -⟩ := cache.call_cases graph
  · rw [hcall, Option.some.inj (hother.symm.trans hfind)]
  · simp [hfind] at hnone
  · simp [hfind] at hnone

/-- The answer to a call for what is not remembered has been built for it. -/
theorem Follows.exists_network_of_not_remembered (h : Follows capacity past cache) {graph : Graph}
    (hnot : ∀ held, ¬ Remembered past graph.fingerprint held) {held : BuiltNetwork}
    (hanswer : (cache.call graph).answer = .ok held) :
    ∃ network, Network.ofGraph graph = .ok network ∧
      held = (cache.keep graph.fingerprint network).1 ∧
        (cache.call graph).after = (cache.keep graph.fingerprint network).2 := by
  obtain ⟨other, hother, -⟩ | ⟨-, cause, -, hcall⟩ | ⟨-, network, hnet, hcall⟩ :=
    cache.call_cases graph
  · exact absurd ((h.find?_eq_some_iff _ _).mp hother) (hnot other)
  · rw [hcall] at hanswer
    cases hanswer
  · rw [hcall] at hanswer ⊢
    exact ⟨network, hnet, (Except.ok.inj hanswer).symm, rfl⟩

end Follows

end NetworkCache

/-- What a call of a cache has to do with the calls before it. -/
structure CacheCall.Correct (capacity : Nat) (earlier : List CacheCall) (call : CacheCall) :
    Prop where
  /-- The cache has the capacity that was asked for, or one where that is zero. -/
  capacity_eq : call.before.capacity = max capacity 1
  /-- No more networks are kept than that. -/
  size_le : call.after.size ≤ max capacity 1
  /-- The networks are kept under different fingerprints. -/
  nodup_keys : (call.after.entries.map Prod.fst).Nodup
  /-- These are the fingerprints of the networks. -/
  key_eq : ∀ entry ∈ call.after.entries, entry.1 = entry.2.network.fingerprint
  /-- The answer is a network with the fingerprint of the graph, or tells why the graph has no
  network and the cache is left as it was. -/
  answer_eq : (∃ held, call.answer = .ok held ∧
      held.network.fingerprint = call.graph.fingerprint) ∨
    ∃ cause, call.answer = .error cause ∧ Network.ofGraph call.graph = .error cause ∧
      call.after = call.before
  /-- The latest answer under the fingerprint is given again if and only if the cache has not been
  cleared since. -/
  reuses_iff : ∀ held later, LastAnswered earlier call.key held later →
    (call.answer = .ok held ↔ ∀ other ∈ later, ¬ other.Clears)
  /-- Then the cache is left as it was. -/
  after_eq : ∀ held, Remembered earlier call.key held → call.after = call.before
  /-- Otherwise a network in the answer is built from the graph, is not one that an earlier call
  was answered with, and is put into the cache. -/
  builds : (∀ held, ¬ Remembered earlier call.key held) → ∀ held, call.answer = .ok held →
    Network.ofGraph call.graph = .ok held.network ∧
      (∀ other ∈ earlier, ∀ old, other.answer = .ok old → old.serial ≠ held.serial) ∧
      call.after.entries = (call.key, held) ::
        if call.before.capacity ≤ call.before.size then [] else call.before.entries

/-- All calls on a cache are correct, whatever the capacity and the calls before. -/
theorem NetworkCache.correct_call (capacity : Nat) (past : List Graph) (graph : Graph) :
    (((empty capacity).afterCalls past).call graph).Correct capacity
      ((empty capacity).calls past) := by
  have hbefore := follows_afterCalls capacity past
  generalize (empty capacity).afterCalls past = cache at hbefore ⊢
  generalize (empty capacity).calls past = earlier at hbefore ⊢
  have hafter := hbefore.call graph
  refine ⟨?_, ?_, hafter.nodup_keys, hafter.key_eq, ?_, ?_, ?_, ?_⟩
  · rw [call_before, hbefore.capacity_eq]
  · exact hafter.capacity_eq ▸ hafter.size_le
  · obtain ⟨held, hfind, hcall⟩ | ⟨hfind, cause, hnet, hcall⟩ | ⟨hfind, network, hnet, hcall⟩ :=
      cache.call_cases graph
    · rw [hcall]
      exact .inl ⟨held, rfl, hbefore.key_eq_of_find? hfind⟩
    · rw [hcall]
      exact .inr ⟨cause, rfl, hnet, rfl⟩
    · rw [hcall]
      exact .inl ⟨_, rfl, fingerprint_of_ofGraph hnet⟩
  · rw [call_key]
    intro held later hlast
    refine ⟨fun hanswer other hother hclear => ?_, fun hclear => ?_⟩
    · have hforget : ∀ held, ¬ Remembered earlier graph.fingerprint held := by
        rintro kept ⟨rest, hrest, hkept⟩
        obtain ⟨-, rfl⟩ := hlast.unique hrest
        exact hkept other hother hclear
      obtain ⟨network, -, rfl, -⟩ := hbefore.exists_network_of_not_remembered hforget hanswer
      obtain ⟨old, last, rfl, -, hold, -⟩ := hlast
      exact (hbefore.serial_lt last (by simp) _ hold).ne rfl
    · rw [hbefore.call_of_remembered ⟨later, hlast, hclear⟩]
  · rw [call_key, call_before]
    intro held hheld
    rw [hbefore.call_of_remembered hheld]
  · rw [call_key, call_before, call_graph]
    intro hnot held hanswer
    obtain ⟨network, hnet, rfl, hnext⟩ := hbefore.exists_network_of_not_remembered hnot hanswer
    refine ⟨hnet, fun other hother old hold => (hbefore.serial_lt other hother old hold).ne, ?_⟩
    rw [hnext]
    rfl

-- Two graphs in turn, in a cache that holds one network and in one that holds both.
example :
    let graphs : List Graph := [⟨[.circle "a"], []⟩, ⟨[.circle "b"], []⟩, ⟨[.circle "a"], []⟩]
    let serials := fun capacity => ((NetworkCache.empty capacity).calls graphs).map fun call =>
      call.answer.toOption.map BuiltNetwork.serial
    serials 1 = [some 0, some 1, some 2] ∧ serials 2 = [some 0, some 1, some 0] := by
  decide +kernel

end SceneFlow
