import SceneFlow.Proofs.Digraph.Recursion

/-!
# A walk with a stack is a recursive search

What is left to do for a stack is the search of the neighbours ahead in its top frame and, when its
vertex is done, what is left to do for the frames below. No step of a walk changes what comes of the
visits so far and of what is left to do. So a walk makes the visits of the recursive search, in the
same order, and comes to the same end.

## Main definitions

* `Digraph.resume`: what is left to do for a stack.
* `Digraph.Resumes`: what comes of the visits so far and of what is left to do.
* `Digraph.Accomplishes`: walks of any number of steps come to what a search comes to.

## Main results

* `Digraph.walkInvariant_resumes`: every step of a walk keeps what comes of it in the end.
* `Digraph.accomplishes_walkFrom`: a walk comes to what a search comes to.
-/

namespace SceneFlow.Digraph

variable {n : Nat} {next : Fin n → List (Fin n)} {stops : Fin n → Bool}

/-! ### What is left to do for a stack -/

/-- What is left to do for the frames of a stack, top first: the neighbours ahead of each frame are
searched, then its vertex is done. -/
def resume (next : Fin n → List (Fin n)) (stops : Fin n → Bool) :
    (stack : List (Frame n)) → (stack.map Frame.vertex).Nodup → Done n → Search n
  | [], _, done => ⟨[], .ok done⟩
  | frame :: below, h, done =>
    (explore next stops ⟨(frame :: below).map Frame.vertex, h⟩ frame.ahead done).andThen fun done =>
      resume next stops below (List.nodup_cons.mp h).2
        (done.set frame.vertex true frame.vertex.isLt)

/-- The marks of a walk that is expanding some vertices while others are done. -/
def Marks.of (expanding : List (Fin n)) (done : Done n) : Marks n :=
  .ofFn fun v =>
    if expanding.contains v then .active else if done.get v then .finished else .unseen

/-- What a walk tells of a search; one that fails does not keep its visits. -/
def Search.result (search : Search n) : Except (List (Fin n)) (Trail n) :=
  search.outcome.map fun done => ⟨search.visited.reverse, .of [] done⟩

section Marks

variable {expanding : List (Fin n)} {done : Done n} {v : Fin n}

theorem get_of (expanding : List (Fin n)) (done : Done n) (v : Fin n) :
    (Marks.of expanding done).get v =
      if v ∈ expanding then .active else if done.get v then .finished else .unseen := by
  simp [Marks.of]

theorem marks_ext {marks marks' : Marks n} (h : ∀ v : Fin n, marks.get v = marks'.get v) :
    marks = marks' :=
  Vector.ext fun i hi => h ⟨i, hi⟩

theorem fresh_eq_of : (Marks.fresh : Marks n) = .of [] (.replicate n false) := by
  refine marks_ext fun v => ?_
  simp [Marks.fresh, get_of]

theorem of_set_active (expanding : List (Fin n)) (done : Done n) (v : Fin n) :
    (Marks.of expanding done).set v .active v.isLt = Marks.of (v :: expanding) done := by
  refine marks_ext fun w => ?_
  rw [get_set, get_of, get_of]
  by_cases hw : v = w
  · simp [hw]
  · simp [hw, Ne.symm hw]

/-- A vertex that is not being expanded, or no longer, is marked as finished when it is done. -/
theorem of_set_finished {expanding' : List (Fin n)}
    (h : ∀ w, w ∈ expanding' ↔ w ∈ expanding ∧ w ≠ v) (done : Done n) :
    (Marks.of expanding done).set v .finished v.isLt =
      Marks.of expanding' (done.set v true v.isLt) := by
  refine marks_ext fun w => ?_
  rw [get_set, get_of, get_of, get_set]
  by_cases hw : v = w
  · simp [hw, h]
  · simp [hw, Ne.symm hw, h]

theorem get_of_eq_active_iff : (Marks.of expanding done).get v = .active ↔ v ∈ expanding := by
  rw [get_of]
  split
  · simp [*]
  · split <;> simp [*]

theorem get_of_eq_finished_iff :
    (Marks.of expanding done).get v = .finished ↔ v ∉ expanding ∧ done.get v = true := by
  rw [get_of]
  split
  · simp [*]
  · split <;> simp [*]

theorem get_of_eq_unseen_iff :
    (Marks.of expanding done).get v = .unseen ↔ v ∉ expanding ∧ done.get v = false := by
  rw [get_of]
  split
  · simp [*]
  · split <;> simp [*]

end Marks

/-- What comes of the visits so far and of what is left to do for the stack. -/
def Resumes (next : Fin n → List (Fin n)) (stops : Fin n → Bool) (whole : Search n)
    (stack : List (Frame n)) (visited : List (Fin n)) (marks : Marks n) : Prop :=
  ∃ (h : (stack.map Frame.vertex).Nodup) (done : Done n),
    marks = .of (stack.map Frame.vertex) done ∧
      whole = (resume next stops stack h done).after visited.reverse

namespace Resumes

variable {whole : Search n} {below : List (Frame n)} {visited : List (Fin n)} {marks : Marks n}
  {v u : Fin n} {ahead : List (Fin n)}

/-- The vertices of the stack have been met. -/
theorem met (h : Resumes next stops whole (⟨v, ahead⟩ :: below) visited marks) :
    marks.get v ≠ .unseen := by
  obtain ⟨_, done, rfl, -⟩ := h
  have hactive : (Marks.of (v :: below.map Frame.vertex) done).get v = .active :=
    get_of_eq_active_iff.mpr List.mem_cons_self
  rw [List.map_cons, hactive]
  simp

theorem finish (h : Resumes next stops whole (⟨v, []⟩ :: below) visited marks) :
    Resumes next stops whole below visited (marks.set v .finished v.isLt) := by
  obtain ⟨hnodup, done, rfl, hwhole⟩ := h
  obtain ⟨hv, hbelow⟩ := List.nodup_cons.mp hnodup
  refine ⟨hbelow, done.set v true v.isLt, of_set_finished (fun w => ?_) done, ?_⟩
  · rw [List.map_cons, List.mem_cons]
    constructor
    · exact fun hw => ⟨.inr hw, fun heq => hv (heq ▸ hw)⟩
    · exact fun hw => hw.1.resolve_left hw.2
  · rw [hwhole, resume, explore_nil, Search.andThen_ok]

theorem skip (h : Resumes next stops whole (⟨v, u :: ahead⟩ :: below) visited marks)
    (hmark : marks.get u = .finished) :
    Resumes next stops whole (⟨v, ahead⟩ :: below) visited marks := by
  obtain ⟨hnodup, done, rfl, hwhole⟩ := h
  obtain ⟨hu, hdone⟩ := get_of_eq_finished_iff.mp hmark
  refine ⟨hnodup, done, rfl, ?_⟩
  rw [hwhole, resume, explore_skip hu hdone]
  rfl

theorem stop (h : Resumes next stops whole (⟨v, u :: ahead⟩ :: below) visited marks)
    (hmark : marks.get u = .unseen) (hstop : stops u = true) :
    Resumes next stops whole (⟨v, ahead⟩ :: below) (u :: visited)
      (marks.set u .finished u.isLt) := by
  obtain ⟨hnodup, done, rfl, hwhole⟩ := h
  obtain ⟨hu, hdone⟩ := get_of_eq_unseen_iff.mp hmark
  refine ⟨hnodup, done.set u true u.isLt, of_set_finished (fun w => ?_) done, ?_⟩
  · exact ⟨fun hw => ⟨hw, fun heq => hu (heq ▸ hw)⟩, And.left⟩
  · rw [hwhole, resume, explore_stop hu hdone hstop, Search.andThen_after, Search.after_after,
      List.reverse_cons]
    rfl

theorem enter (h : Resumes next stops whole (⟨v, u :: ahead⟩ :: below) visited marks)
    (hmark : marks.get u = .unseen) (hstop : stops u = false) :
    Resumes next stops whole (⟨u, next u⟩ :: ⟨v, ahead⟩ :: below) (u :: visited)
      (marks.set u .active u.isLt) := by
  obtain ⟨hnodup, done, rfl, hwhole⟩ := h
  obtain ⟨hu, hdone⟩ := get_of_eq_unseen_iff.mp hmark
  refine ⟨List.nodup_cons.mpr ⟨hu, hnodup⟩, done, of_set_active _ done u, ?_⟩
  rw [hwhole, resume, explore_expand hu hdone hstop, Search.andThen_after, Search.after_after,
    Search.andThen_assoc, List.reverse_cons]
  rfl

/-- A neighbour that is being expanded closes a path. -/
theorem close (h : Resumes next stops whole (⟨v, u :: ahead⟩ :: below) visited marks)
    (hmark : marks.get u = .active) :
    whole = ⟨visited.reverse, .error (closedPath (⟨v, ahead⟩ :: below) u)⟩ := by
  obtain ⟨hnodup, done, rfl, hwhole⟩ := h
  rw [hwhole, resume, explore_close (get_of_eq_active_iff.mp hmark), Search.after]
  exact congrArg (Search.mk · _) (List.append_nil _)

theorem done (h : Resumes next stops whole [] visited marks) :
    ∃ done, marks = .of [] done ∧ whole = ⟨visited.reverse, .ok done⟩ := by
  obtain ⟨_, done, hmarks, hwhole⟩ := h
  refine ⟨done, hmarks, ?_⟩
  rw [hwhole, resume, Search.after, List.append_nil]

end Resumes

/-! ### Walks -/

/-- After some of its steps a walk is where it goes on from a stack. -/
def Reaches (next : Fin n → List (Fin n)) (stops : Fin n → Bool)
    (run : Nat → Except (List (Fin n)) (Trail n)) (stack : List (Frame n)) (visited : List (Fin n))
    (marks : Marks n) : Prop :=
  ∃ k, ∀ steps, run (k + steps) = walk next stops steps stack visited marks

/-- A walk makes the visits of a search in some number of steps, and tells them if it may take no
more. With any more steps it comes to what the search comes to. -/
def Accomplishes (run : Nat → Except (List (Fin n)) (Trail n)) (whole : Search n) : Prop :=
  ∃ k marks, run k = .ok ⟨whole.visited.reverse, marks⟩ ∧ ∀ steps > k, run steps = whole.result

theorem Reaches.step {run : Nat → Except (List (Fin n)) (Trail n)} {stack stack' : List (Frame n)}
    {visited visited' : List (Fin n)} {marks marks' : Marks n}
    (h : Reaches next stops run stack visited marks)
    (hstep : ∀ steps, walk next stops (steps + 1) stack visited marks =
      walk next stops steps stack' visited' marks') :
    Reaches next stops run stack' visited' marks' := by
  obtain ⟨k, hk⟩ := h
  refine ⟨k + 1, fun steps => ?_⟩
  rw [Nat.add_assoc, Nat.add_comm 1, hk, hstep]

theorem Reaches.accomplishes {run : Nat → Except (List (Fin n)) (Trail n)} {stack : List (Frame n)}
    {visited : List (Fin n)} {marks : Marks n} {whole : Search n}
    (h : Reaches next stops run stack visited marks) (hvisited : whole.visited = visited.reverse)
    (hend : ∀ steps, walk next stops (steps + 1) stack visited marks = whole.result) :
    Accomplishes run whole := by
  obtain ⟨k, hk⟩ := h
  refine ⟨k, marks, ?_, fun steps hsteps => ?_⟩
  · rw [hvisited, List.reverse_reverse]
    exact hk 0
  · obtain ⟨more, rfl⟩ := Nat.exists_eq_add_of_lt hsteps
    rw [Nat.add_assoc, hk, hend]

variable (next stops) in
/-- Every step of a walk keeps what comes of it in the end. -/
theorem walkInvariant_resumes (run : Nat → Except (List (Fin n)) (Trail n)) (whole : Search n) :
    WalkInvariant next stops (fun stack visited marks =>
      Resumes next stops whole stack visited marks ∧ Reaches next stops run stack visited marks)
      (fun result => result = whole.result ∧ Accomplishes run whole) where
  met := fun _ _ _ _ _ ⟨h, _⟩ => h.met
  finish := fun _ _ _ _ ⟨h, hreaches⟩ => ⟨h.finish, hreaches.step fun _ => rfl⟩
  skip := fun _ _ _ _ _ _ hmark ⟨h, hreaches⟩ =>
    ⟨h.skip hmark, hreaches.step fun _ => walk_skip hmark⟩
  stop := fun _ _ _ _ _ _ hmark hstop ⟨h, hreaches⟩ =>
    ⟨h.stop hmark hstop, hreaches.step fun _ => walk_stop hmark hstop⟩
  enter := fun _ _ _ _ _ _ hmark hstop ⟨h, hreaches⟩ =>
    ⟨h.enter hmark hstop, hreaches.step fun _ => walk_enter hmark hstop⟩
  close := fun _ _ _ _ _ _ hmark ⟨h, hreaches⟩ => by
    obtain rfl := h.close hmark
    exact ⟨rfl, hreaches.accomplishes rfl fun _ => walk_close hmark⟩
  done := fun _ _ ⟨h, hreaches⟩ => by
    obtain ⟨done, rfl, rfl⟩ := h.done
    have hresult : ∀ visited, Except.ok ⟨visited, .of [] done⟩ =
        Search.result ⟨visited.reverse, .ok done⟩ := fun visited => by
      rw [Search.result, List.reverse_reverse]
      rfl
    exact ⟨hresult _, hreaches.accomplishes rfl fun _ => hresult _⟩

section Start

variable {done : Done n} {start : Fin n} (hstart : done.get start = false)
include hstart

theorem search_of_stops (hstop : stops start = true) :
    search next stops done start = ⟨[start], .ok (done.set start true start.isLt)⟩ := by
  rw [search, explore_stop List.not_mem_nil hstart hstop, explore_nil]
  rfl

theorem resumes_start (hstop : stops start = false) :
    Resumes next stops (search next stops done start) [⟨start, next start⟩] [start]
      ((Marks.of [] done).set start .active start.isLt) := by
  refine ⟨List.nodup_singleton start, done, of_set_active [] done start, ?_⟩
  rw [search, explore_expand List.not_mem_nil hstart hstop]
  simp only [explore_nil]
  rfl

/-- A walk from a vertex that is not done comes to what the search from there comes to. -/
theorem accomplishes_walkFrom (next : Fin n → List (Fin n)) (stops : Fin n → Bool) :
    walkFrom (walkSteps next) next stops (.of [] done) start =
        (search next stops done start).result ∧
      Accomplishes (fun steps => walkFrom steps next stops (.of [] done) start)
        (search next stops done start) := by
  cases hstop : stops start with
  | true =>
    have hwalk : ∀ steps, walkFrom steps next stops (.of [] done) start =
        .ok ⟨[start], .of [] (done.set start true start.isLt)⟩ := by
      intro steps
      have hmarks : (Marks.of [] done).set start .finished start.isLt =
          Marks.of [] (done.set start true start.isLt) := of_set_finished (by simp) done
      rw [walkFrom, if_pos hstop, hmarks]
    rw [search_of_stops hstart hstop]
    exact ⟨hwalk _, 0, _, hwalk 0, fun steps _ => hwalk steps⟩
  | false =>
    have hwalk : ∀ steps, walkFrom steps next stops (.of [] done) start =
        walk next stops steps [⟨start, next start⟩] [start]
          ((Marks.of [] done).set start .active start.isLt) := by
      intro steps
      rw [walkFrom, if_neg (by simp [hstop])]
    have hunseen : (Marks.of [] done).get start = .unseen :=
      get_of_eq_unseen_iff.mpr ⟨List.not_mem_nil, hstart⟩
    rw [hwalk]
    refine (walkInvariant_resumes next stops _ _).walk _ _ _ _
      ⟨resumes_start hstart hstop, 0, fun steps => ?_⟩ (walkCost_start_le hunseen)
    rw [Nat.zero_add]
    exact hwalk steps

end Start

end SceneFlow.Digraph
