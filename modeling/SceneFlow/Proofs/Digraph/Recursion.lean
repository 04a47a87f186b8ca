import SceneFlow.Proofs.Digraph.Walk

/-!
# Depth-first search by recursion

The depth-first search that needs no stack: visit a vertex, expand it by searching its neighbours
in their order, and count it as done afterwards. A neighbour that is done is passed over, and one
that is still being expanded closes a path, on which the search fails. A vertex at which the search
stops is visited and done without being expanded.

The recursion ends because every vertex is expanded below others than itself.

## Main definitions

* `Digraph.Search`: what has come of a search, also of one that fails.
* `Digraph.explore`, `Digraph.search`: the recursion.
* `Digraph.Finds`: what is true of the vertices that a search visits.

## Main results

* `Digraph.finds_search`: a search visits no vertex twice, and none that was done before.
-/

namespace SceneFlow.Digraph

variable {n : Nat} {next : Fin n → List (Fin n)} {stops : Fin n → Bool}

/-- Whether each vertex is done. -/
abbrev Done (n : Nat) := Vector Bool n

/-- What has come of a search. -/
structure Search (n : Nat) where
  /-- The vertices that have been visited, in the order of the visits. -/
  visited : List (Fin n)
  /-- The vertices that are done in the end, or a closed path. -/
  outcome : Except (List (Fin n)) (Done n)

namespace Search

/-- A search behind some visits. -/
def after (front : List (Fin n)) (search : Search n) : Search n :=
  ⟨front ++ search.visited, search.outcome⟩

/-- Go on with another search, unless the first one fails. -/
def andThen (search : Search n) (more : Done n → Search n) : Search n :=
  match search.outcome with
  | .error _ => search
  | .ok done => (more done).after search.visited

theorem after_after (front behind : List (Fin n)) (search : Search n) :
    (search.after behind).after front = search.after (front ++ behind) := by
  rw [after, after, after, List.append_assoc]

@[simp]
theorem andThen_ok (done : Done n) (more : Done n → Search n) :
    (⟨[], .ok done⟩ : Search n).andThen more = more done :=
  rfl

theorem andThen_after (front : List (Fin n)) (search : Search n) (more : Done n → Search n) :
    (search.after front).andThen more = (search.andThen more).after front := by
  obtain ⟨visited, outcome⟩ := search
  cases outcome with
  | error path => rfl
  | ok done => exact (after_after front visited (more done)).symm

theorem andThen_assoc (search : Search n) (more most : Done n → Search n) :
    (search.andThen more).andThen most = search.andThen fun done => (more done).andThen most := by
  obtain ⟨visited, outcome⟩ := search
  cases outcome with
  | error path => rfl
  | ok done => exact andThen_after visited (more done) most

end Search

/-- The vertices that are being expanded, innermost first. -/
structure Thread (n : Nat) where
  /-- The vertices. -/
  vertices : List (Fin n)
  /-- No vertex is being expanded twice. -/
  nodup : vertices.Nodup

namespace Thread

/-- No vertex is being expanded. -/
def idle : Thread n :=
  ⟨[], List.nodup_nil⟩

/-- Expand one more vertex. -/
def push (thread : Thread n) (v : Fin n) (h : v ∉ thread.vertices) : Thread n :=
  ⟨v :: thread.vertices, List.nodup_cons.mpr ⟨h, thread.nodup⟩⟩

/-- The path from a vertex on to the innermost one and back to the vertex. -/
def closing (thread : Thread n) (v : Fin n) : List (Fin n) :=
  v :: (thread.vertices.takeWhile (· ≠ v)).reverse ++ [v]

/-- How many vertices are not being expanded. -/
def room (thread : Thread n) : Nat :=
  n - thread.vertices.length

theorem room_push_lt (thread : Thread n) {v : Fin n} (h : v ∉ thread.vertices) :
    (thread.push v h).room < thread.room := by
  have hlength : (thread.push v h).vertices.length ≤ n := by
    simpa using (thread.push v h).nodup.length_le_card
  simp only [push, room, List.length_cons] at hlength ⊢
  omega

end Thread

/-- Search some vertices in turn, while those of a thread are being expanded. The search fails at a
vertex of the thread and passes over one that is done. Any other vertex is visited, expanded unless
the search stops at it, and then done. -/
def explore (next : Fin n → List (Fin n)) (stops : Fin n → Bool) (thread : Thread n) :
    (targets : List (Fin n)) → Done n → Search n
  | [], done => ⟨[], .ok done⟩
  | v :: targets, done =>
    if h : v ∈ thread.vertices then ⟨[], .error (thread.closing v)⟩
    else if done.get v then explore next stops thread targets done
    else if stops v then (explore next stops thread targets (done.set v true v.isLt)).after [v]
    else
      ((explore next stops (thread.push v h) (next v) done).andThen fun done =>
        explore next stops thread targets (done.set v true v.isLt)).after [v]
termination_by targets => (thread.room, targets.length)
decreasing_by
  · exact .right _ (Nat.lt_succ_self _)
  · exact .right _ (Nat.lt_succ_self _)
  · exact .left _ _ (thread.room_push_lt h)
  · exact .right _ (Nat.lt_succ_self _)

section Explore

variable {thread : Thread n} {targets : List (Fin n)} {done : Done n} {v : Fin n}

@[simp]
theorem explore_nil (next : Fin n → List (Fin n)) (stops : Fin n → Bool) (thread : Thread n)
    (done : Done n) : explore next stops thread [] done = ⟨[], .ok done⟩ := by
  rw [explore]

theorem explore_close (h : v ∈ thread.vertices) :
    explore next stops thread (v :: targets) done = ⟨[], .error (thread.closing v)⟩ := by
  rw [explore, dif_pos h]

theorem explore_skip (h : v ∉ thread.vertices) (hdone : done.get v = true) :
    explore next stops thread (v :: targets) done = explore next stops thread targets done := by
  rw [explore, dif_neg h, if_pos hdone]

theorem explore_stop (h : v ∉ thread.vertices) (hdone : done.get v = false)
    (hstop : stops v = true) :
    explore next stops thread (v :: targets) done =
      (explore next stops thread targets (done.set v true v.isLt)).after [v] := by
  rw [explore, dif_neg h, if_neg (by simp [hdone]), if_pos hstop]

theorem explore_expand (h : v ∉ thread.vertices) (hdone : done.get v = false)
    (hstop : stops v = false) :
    explore next stops thread (v :: targets) done =
      ((explore next stops (thread.push v h) (next v) done).andThen fun done =>
        explore next stops thread targets (done.set v true v.isLt)).after [v] := by
  rw [explore, dif_neg h, if_neg (by simp [hdone]), if_neg (by simp [hstop])]

end Explore

/-- The depth-first search from a vertex. -/
def search (next : Fin n → List (Fin n)) (stops : Fin n → Bool) (done : Done n) (start : Fin n) :
    Search n :=
  explore next stops .idle [start] done

/-! ### What a search visits -/

/-- A search visits vertices that are neither done nor being expanded, once each, and these are
done in the end, with those that were done before. -/
structure Finds (expanding : List (Fin n)) (done : Done n) (search : Search n) : Prop where
  /-- No vertex is visited twice. -/
  nodup : search.visited.Nodup
  /-- No vertex is visited that is done or being expanded. -/
  new : ∀ v ∈ search.visited, v ∉ expanding ∧ done.get v = false
  /-- The vertices that are done in the end. -/
  done_iff : ∀ done', search.outcome = .ok done' → ∀ v : Fin n,
    done'.get v = true ↔ done.get v = true ∨ v ∈ search.visited

namespace Finds

variable {expanding : List (Fin n)} {done : Done n} {search : Search n} {v : Fin n}

theorem ended (expanding : List (Fin n)) (done : Done n) :
    Finds expanding done ⟨[], .ok done⟩ :=
  ⟨List.nodup_nil, by simp, fun done' h => by simp [Except.ok.inj h]⟩

theorem failed (expanding : List (Fin n)) (done : Done n) (path : List (Fin n)) :
    Finds expanding done ⟨[], .error path⟩ :=
  ⟨List.nodup_nil, by simp, fun done' h => by simp at h⟩

/-- What is found once a vertex is done was neither done nor visited before. -/
theorem forall_later {visited : List (Fin n)} {done' : Done n}
    (h : Finds expanding (done'.set v true v.isLt) search)
    (hdone : ∀ w : Fin n, done'.get w = true ↔ done.get w = true ∨ w ∈ visited) :
    ∀ w ∈ search.visited, w ≠ v ∧ w ∉ visited ∧ w ∉ expanding ∧ done.get w = false := by
  intro w hw
  obtain ⟨hexpanding, hset⟩ := h.new w hw
  rw [get_set] at hset
  have hne : v ≠ w := fun heq => by simp [heq] at hset
  rw [if_neg hne] at hset
  have hbefore := (hdone w).not.mp (by simp [hset])
  rw [not_or, Bool.not_eq_true] at hbefore
  exact ⟨hne.symm, hbefore.2, hexpanding, hbefore.1⟩

/-- A vertex is visited, something is found while it is expanded, and more is found when it is
done. -/
theorem visit {more : Done n → Search n} (hsearch : Finds (v :: expanding) done search)
    (hmore : ∀ done', search.outcome = .ok done' →
      Finds expanding (done'.set v true v.isLt) (more done'))
    (hv : v ∉ expanding) (hdone : done.get v = false) :
    Finds expanding done ((search.andThen more).after [v]) := by
  obtain ⟨visited, outcome⟩ := search
  have hnot : v ∉ visited := fun hmem => (hsearch.new v hmem).1 List.mem_cons_self
  have hnew : ∀ w ∈ visited, w ∉ expanding ∧ done.get w = false := fun w hw =>
    ⟨fun hmem => (hsearch.new w hw).1 (List.mem_cons_of_mem v hmem), (hsearch.new w hw).2⟩
  cases outcome with
  | error path =>
    exact ⟨List.nodup_cons.mpr ⟨hnot, hsearch.nodup⟩,
      List.forall_mem_cons.mpr ⟨⟨hv, hdone⟩, hnew⟩, fun done' h => by cases h⟩
  | ok done' =>
    have hdone' := hsearch.done_iff done' rfl
    have hmore := hmore done' rfl
    have hlater := hmore.forall_later hdone'
    have hwhole : (Search.andThen ⟨visited, .ok done'⟩ more).after [v] =
        ⟨v :: (visited ++ (more done').visited), (more done').outcome⟩ := rfl
    rw [hwhole]
    refine ⟨?_, ?_, fun last hlast w => ?_⟩
    · refine List.nodup_cons.mpr ⟨?_, List.nodup_append.mpr
        ⟨hsearch.nodup, hmore.nodup, fun w hw w' hw' heq => ?_⟩⟩
      · rw [List.mem_append, not_or]
        exact ⟨hnot, fun hmem => (hlater v hmem).1 rfl⟩
      · exact (hlater w' hw').2.1 (heq ▸ hw)
    · refine List.forall_mem_cons.mpr ⟨⟨hv, hdone⟩, List.forall_mem_append.mpr ⟨hnew, ?_⟩⟩
      exact fun w hw => (hlater w hw).2.2
    · rw [hmore.done_iff last hlast w, get_set, List.mem_cons, List.mem_append]
      by_cases heq : v = w
      · simp [heq]
      · rw [if_neg heq, hdone' w, or_assoc, or_iff_right (Ne.symm heq)]

end Finds

theorem finds_explore (thread : Thread n) (targets : List (Fin n)) (done : Done n) :
    Finds thread.vertices done (explore next stops thread targets done) := by
  fun_induction explore next stops thread targets done with
  | case1 => exact .ended _ _
  | case2 => exact .failed _ _ _
  | case3 _ _ _ _ _ _ ih => exact ih
  | case4 thread v targets done h hdone hstop ih =>
    -- A vertex that is not expanded is like one behind which nothing is found.
    have hwhole : (explore next stops thread targets (done.set v true v.isLt)).after [v] =
        (Search.andThen ⟨[], .ok done⟩ fun done =>
          explore next stops thread targets (done.set v true v.isLt)).after [v] := rfl
    rw [hwhole]
    refine (Finds.ended _ done).visit (fun done' hdone' => ?_) h (by simpa using hdone)
    exact Except.ok.inj hdone' ▸ ih
  | case5 thread v targets done h hdone hstop ihbelow ihafter =>
    exact ihbelow.visit (fun done' _ => ihafter done') h (by simpa using hdone)

/-- A search visits no vertex twice, and none that was done before; in the end those that were done
before and those that it has visited are done. -/
theorem finds_search (done : Done n) (start : Fin n) :
    Finds [] done (search next stops done start) :=
  finds_explore .idle [start] done

end SceneFlow.Digraph
