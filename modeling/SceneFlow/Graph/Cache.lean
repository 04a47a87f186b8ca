import SceneFlow.Graph.Network

/-!
# A cache of networks

Networks that have been built are kept under the fingerprints of their graphs. A cache that is
full is emptied before the next network is put in, and never holds more than its capacity. Every
network that is built gets a number of its own, so that a network that was kept can be told from
one that was built anew.
-/

namespace SceneFlow

/-- A network with the number of its building. -/
structure BuiltNetwork where
  /-- How many networks had been built before it. -/
  serial : Nat
  /-- The network. -/
  network : Network

/-- Networks kept under the fingerprints of their graphs. -/
structure NetworkCache where
  /-- How many networks are kept at most. -/
  capacity : Nat
  /-- How many networks have been built. -/
  built : Nat
  /-- The networks that are kept, last first. -/
  entries : List (Fingerprint × BuiltNetwork)

namespace NetworkCache

/-- The capacity where none is asked for. -/
def defaultCapacity : Nat := 64

/-- A cache that holds nothing. It can hold one network at least. -/
def empty (capacity : Nat) : NetworkCache :=
  ⟨max capacity 1, 0, []⟩

/-- The number of networks that are kept. -/
def size (cache : NetworkCache) : Nat :=
  cache.entries.length

/-- The network kept under a fingerprint. -/
def find? (cache : NetworkCache) (key : Fingerprint) : Option BuiltNetwork :=
  cache.entries.lookup key

/-- Keep a network that has just been built. -/
def keep (cache : NetworkCache) (key : Fingerprint) (network : Network) :
    BuiltNetwork × NetworkCache :=
  let held := ⟨cache.built, network⟩
  let room := if cache.capacity ≤ cache.size then [] else cache.entries
  (held, { cache with built := cache.built + 1, entries := (key, held) :: room })

/-- The network of a graph, from the cache if it is there. A graph with a payload that does not
fit leaves the cache as it is. -/
def getOrBuild (cache : NetworkCache) (graph : Graph) :
    Except PayloadError (BuiltNetwork × NetworkCache) :=
  match cache.find? graph.fingerprint with
  | some held => .ok (held, cache)
  | none => do
    let network ← Network.ofGraph graph
    .ok (cache.keep graph.fingerprint network)

end NetworkCache

end SceneFlow
