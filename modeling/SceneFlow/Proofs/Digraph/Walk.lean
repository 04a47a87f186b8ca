import SceneFlow.Digraph.Walk
import SceneFlow.Proofs.Digraph.Acyclic

/-!
# Depth-first walks find cycles

The stack of a walk is a path, top last. A vertex is marked as finished only when all its
neighbours are, so from a finished vertex arcs can be followed only finitely often. A walk that
meets a vertex of its stack therefore has found a cycle, and one that ends has excluded cycles from
everything it visited.

## Main definitions

* `Digraph.Expands`: a vertex is met when another one is expanded.
* `Digraph.Walking`: what is true of stack and marks after every step of a walk.
* `Digraph.walkCost`: an upper bound for the number of steps that a walk still takes.
* `Digraph.WalkInvariant`: what every step of a walk keeps.

## Main results

* `Digraph.WalkInvariant.walk`: what steps keep holds to the end of a walk.
* `Digraph.walk_spec`: a walk ends within its bound, with sound marks or a closed path.
* `Digraph.isClosedPath_of_closedPath?`: the path that is found is closed.
* `Digraph.closedPath?_eq_none_iff`: no path is found exactly in acyclic graphs.
-/

namespace SceneFlow.Digraph

variable {n : Nat} {next : Fin n → List (Fin n)} {stops : Fin n → Bool}

/-- The vertex `w` is met when `v` is expanded. -/
def Expands (next : Fin n → List (Fin n)) (stops : Fin n → Bool) (w v : Fin n) : Prop :=
  stops v = false ∧ w ∈ next v

/-- The frames of a stack, top first, below a frame of the vertex `above` if there is one: the
neighbours of each are ahead, finished, or being expanded in the frame above. -/
def Stacked (next : Fin n → List (Fin n)) (marks : Marks n) :
    (above : Option (Fin n)) → List (Frame n) → Prop
  | _, [] => True
  | above, frame :: below =>
    (∀ w ∈ next frame.vertex, w ∈ frame.ahead ∨ marks.get w = .finished ∨ above = some w) ∧
      (∀ w ∈ frame.ahead, w ∈ next frame.vertex) ∧
      (∀ w, above = some w → w ∈ next frame.vertex) ∧
      Stacked next marks (some frame.vertex) below

/-- What is true of the stack and the marks after every step of a walk. -/
structure Walking (next : Fin n → List (Fin n)) (stops : Fin n → Bool) (stack : List (Frame n))
    (marks : Marks n) : Prop where
  /-- The vertices of the stack are those being expanded. -/
  active_iff : ∀ v : Fin n, marks.get v = .active ↔ v ∈ stack.map Frame.vertex
  /-- No vertex is on the stack twice. -/
  nodup : (stack.map Frame.vertex).Nodup
  /-- Behind a finished vertex there is no infinite path. -/
  finished : ∀ v : Fin n, marks.get v = .finished → Acc (Expands next stops) v
  /-- The stack is a path whose other neighbours are dealt with. -/
  stacked : Stacked next marks none stack

/-- The steps that a walk still takes: one for each frame and each neighbour ahead, and those of
the vertices that it has not met. -/
def walkCost (next : Fin n → List (Fin n)) (stack : List (Frame n)) (marks : Marks n) : Nat :=
  (stack.map fun frame => frame.ahead.length + 1).sum +
    ∑ v, if marks.get v = .unseen then (next v).length + 1 else 0

theorem get_set {α : Type} (marks : Vector α n) (v w : Fin n) (mark : α) :
    (marks.set v mark v.isLt).get w = if v = w then mark else marks.get w := by
  have hget : ∀ (marks : Vector α n) (u : Fin n), marks.get u = marks[u] := fun _ _ => rfl
  simp [hget, Vector.getElem_set, Fin.ext_iff]

/-! ### The stack -/

theorem Stacked.mono {marks marks' : Marks n} {above above' : Option (Fin n)}
    {stack : List (Frame n)} (h : Stacked next marks above stack)
    (hmarks : ∀ v : Fin n, marks.get v = .finished → marks'.get v = .finished)
    (habove : ∀ v, above = some v → marks'.get v = .finished ∨ above' = some v)
    (habove' : ∀ v, above' = some v → above = some v) : Stacked next marks' above' stack := by
  induction stack generalizing above above' with
  | nil => trivial
  | cons frame below ih =>
    obtain ⟨hdone, hahead, hpath, hbelow⟩ := h
    refine ⟨fun w hw => ?_, hahead, fun w hw => hpath w (habove' w hw),
      ih hbelow (fun v hv => .inr hv) fun v hv => hv⟩
    rcases hdone w hw with hw | hw | hw
    · exact .inl hw
    · exact .inr (.inl (hmarks w hw))
    · exact .inr (habove w hw)

/-- Going up the stack follows arcs. -/
theorem Stacked.isChain {marks : Marks n} {above : Option (Fin n)} {stack : List (Frame n)}
    (h : Stacked next marks above stack) :
    (above.toList ++ stack.map Frame.vertex).IsChain fun a b => Arc next b a := by
  induction stack generalizing above with
  | nil => cases above <;> simp
  | cons frame below ih =>
    obtain ⟨-, -, hpath, hbelow⟩ := h
    have hchain : (frame.vertex :: below.map Frame.vertex).IsChain fun a b => Arc next b a :=
      ih hbelow
    cases above with
    | none => exact hchain
    | some w => exact List.isChain_cons_cons.mpr ⟨hpath w rfl, hchain⟩

/-- A vertex of the stack that is met again closes a path. -/
theorem isClosedPath_closedPath {top : Frame n} {below : List (Frame n)} {u : Fin n}
    (hchain : ((top :: below).map Frame.vertex).IsChain fun a b => Arc next b a)
    (hnodup : ((top :: below).map Frame.vertex).Nodup)
    (hmem : u ∈ (top :: below).map Frame.vertex) (harc : Arc next top.vertex u) :
    IsClosedPath next (closedPath (top :: below) u) := by
  obtain ⟨front, back, hsplit, hfront⟩ := List.eq_append_cons_of_mem hmem
  have htake : ((top :: below).map Frame.vertex).takeWhile (· ≠ u) = front := by
    rw [hsplit, List.takeWhile_append_of_pos fun w hw => by
      simpa using fun heq : w = u => hfront (heq ▸ hw)]
    simp
  have hup : (u :: front.reverse).IsChain (Arc next) := by
    have hfront : (front ++ [u]).IsChain fun a b => Arc next b a :=
      hchain.prefix ⟨back, by simp [hsplit]⟩
    simpa using List.isChain_reverse.mpr hfront
  have hlast : ∀ w, (u :: front.reverse).getLast? = some w → w = top.vertex := by
    intro w hw
    cases front with
    | nil => simp at hsplit hw; rw [← hw, hsplit.1]
    | cons x front =>
      rw [List.reverse_cons, ← List.cons_append, List.getLast?_concat] at hw
      have htop : top.vertex = x := by simpa using (List.cons.inj hsplit).1
      rw [htop, Option.some.inj hw]
  refine ⟨u, front.reverse, by rw [closedPath, htake], ?_, ?_⟩
  · rw [hsplit] at hnodup
    simpa [List.nodup_append, hfront] using (List.nodup_append.mp hnodup).1
  · rw [closedPath, htake]
    refine List.isChain_append.mpr ⟨hup, by simp, fun a ha b hb => ?_⟩
    obtain rfl : u = b := by simpa using hb
    exact hlast a ha ▸ harc

/-! ### The walk -/

namespace Walking

variable {marks : Marks n} {below : List (Frame n)} {v u : Fin n} {ahead : List (Fin n)}

/-- A frame without neighbours ahead is taken off the stack and its vertex finished. -/
theorem finish (h : Walking next stops (⟨v, []⟩ :: below) marks) :
    Walking next stops below (marks.set v .finished v.isLt) := by
  obtain ⟨hdone, -, -, hbelow⟩ := h.stacked
  have hneighbors : ∀ w ∈ next v, marks.get w = .finished := fun w hw => by
    simpa using hdone w hw
  have hnot : v ∉ below.map Frame.vertex := (List.nodup_cons.mp h.nodup).1
  refine ⟨fun w => ?_, (List.nodup_cons.mp h.nodup).2, fun w hw => ?_, ?_⟩
  · rw [get_set]
    by_cases hvw : v = w
    · subst hvw
      simpa using hnot
    · rw [if_neg hvw, h.active_iff, List.map_cons, List.mem_cons]
      exact or_iff_right fun heq => hvw heq.symm
  · rw [get_set] at hw
    by_cases hvw : v = w
    · subst hvw
      exact ⟨v, fun w hw => h.finished w (hneighbors w hw.2)⟩
    · rw [if_neg hvw] at hw
      exact h.finished w hw
  · refine hbelow.mono (fun w hw => ?_) (fun w hw => .inl ?_) fun w hw => by simp at hw
    · rw [get_set, hw, ite_self]
    · rw [get_set, if_pos (Option.some.inj hw)]

/-- A neighbour behind which there is no infinite path is passed by, and marked as finished. -/
theorem pass (h : Walking next stops (⟨v, u :: ahead⟩ :: below) marks)
    (hacc : Acc (Expands next stops) u) (hactive : marks.get u ≠ .active) :
    Walking next stops (⟨v, ahead⟩ :: below) (marks.set u .finished u.isLt) := by
  obtain ⟨hdone, hahead, -, hbelow⟩ := h.stacked
  have hnot : u ∉ (⟨v, ahead⟩ :: below : List (Frame n)).map Frame.vertex := fun hmem =>
    hactive ((h.active_iff u).mpr hmem)
  have hkeep : ∀ w : Fin n, marks.get w = .finished →
      (marks.set u .finished u.isLt).get w = .finished := by
    intro w hw
    rw [get_set, hw, ite_self]
  refine ⟨fun w => ?_, h.nodup, fun w hw => ?_, fun w hw => ?_, fun w hw => ?_, by simp, ?_⟩
  · rw [get_set]
    by_cases huw : u = w
    · subst huw
      simpa using hnot
    · rw [if_neg huw]
      exact h.active_iff w
  · rw [get_set] at hw
    by_cases huw : u = w
    · exact huw ▸ hacc
    · rw [if_neg huw] at hw
      exact h.finished w hw
  · rcases hdone w hw with hw | hw | hw
    · rcases List.mem_cons.mp hw with rfl | hw
      · exact .inr (.inl (by rw [get_set, if_pos rfl]))
      · exact .inl hw
    · exact .inr (.inl (hkeep w hw))
    · simp at hw
  · exact hahead w (List.mem_cons_of_mem u hw)
  · exact hbelow.mono hkeep (fun w hw => .inr hw) fun w hw => hw

/-- A finished neighbour is passed by. -/
theorem skip (h : Walking next stops (⟨v, u :: ahead⟩ :: below) marks)
    (hmark : marks.get u = .finished) : Walking next stops (⟨v, ahead⟩ :: below) marks := by
  have hset : marks.set u .finished = marks := by
    rw [← hmark]
    exact Vector.set_getElem_self _
  have hpass := h.pass (h.finished u hmark) (by simp [hmark])
  rwa [hset] at hpass

/-- The walk stops at a neighbour that has not been met. -/
theorem stop (h : Walking next stops (⟨v, u :: ahead⟩ :: below) marks)
    (hmark : marks.get u = .unseen) (hstop : stops u = true) :
    Walking next stops (⟨v, ahead⟩ :: below) (marks.set u .finished u.isLt) :=
  h.pass ⟨u, fun w hw => absurd hw.1 (by simp [hstop])⟩ (by simp [hmark])

/-- A neighbour that has not been met is put on the stack. -/
theorem enter (h : Walking next stops (⟨v, u :: ahead⟩ :: below) marks)
    (hunseen : marks.get u = .unseen) :
    Walking next stops (⟨u, next u⟩ :: ⟨v, ahead⟩ :: below) (marks.set u .active u.isLt) := by
  obtain ⟨hdone, hahead, -, hbelow⟩ := h.stacked
  have hnot : u ∉ (⟨v, ahead⟩ :: below : List (Frame n)).map Frame.vertex := fun hmem => by
    have hactive := (h.active_iff u).mpr hmem
    simp [hunseen] at hactive
  have hkeep : ∀ w : Fin n, marks.get w = .finished →
      (marks.set u .active u.isLt).get w = .finished := by
    intro w hw
    rw [get_set, if_neg fun heq => by simp [← heq, hunseen] at hw, hw]
  refine ⟨fun w => ?_, List.nodup_cons.mpr ⟨hnot, h.nodup⟩, fun w hw => ?_,
    fun w hw => .inl hw, fun w hw => hw, by simp, fun w hw => ?_, fun w hw => ?_, ?_, ?_⟩
  · rw [get_set, List.map_cons, List.mem_cons]
    by_cases huw : u = w
    · simp [huw]
    · rw [if_neg huw, or_iff_right fun heq => huw heq.symm]
      exact h.active_iff w
  · rw [get_set] at hw
    by_cases huw : u = w
    · simp [huw] at hw
    · rw [if_neg huw] at hw
      exact h.finished w hw
  · rcases hdone w hw with hw | hw | hw
    · rcases List.mem_cons.mp hw with rfl | hw
      · exact .inr (.inr rfl)
      · exact .inl hw
    · exact .inr (.inl (hkeep w hw))
    · simp at hw
  · exact hahead w (List.mem_cons_of_mem u hw)
  · intro w hw
    obtain rfl : u = w := Option.some.inj hw
    exact hahead u List.mem_cons_self
  · exact hbelow.mono hkeep (fun w hw => .inr hw) fun w hw => hw

/-- A neighbour that is being expanded closes a path. -/
theorem isClosedPath (h : Walking next stops (⟨v, u :: ahead⟩ :: below) marks)
    (hmark : marks.get u = .active) : IsClosedPath next (closedPath (⟨v, ahead⟩ :: below) u) := by
  have hchain : ((⟨v, ahead⟩ :: below : List (Frame n)).map Frame.vertex).IsChain
      fun a b => Arc next b a := h.stacked.isChain
  exact isClosedPath_closedPath hchain h.nodup ((h.active_iff u).mp hmark)
    (h.stacked.2.1 u List.mem_cons_self)

/-- The vertices of the stack have been met. -/
theorem met (h : Walking next stops (⟨v, ahead⟩ :: below) marks) : marks.get v ≠ .unseen := by
  rw [(h.active_iff v).mpr (by simp)]
  simp

end Walking

/-! ### The number of steps -/

section Cost

variable {marks : Marks n} {below : List (Frame n)} {v u : Fin n} {ahead : List (Fin n)}

variable (next marks u) in
/-- Marks change only the cost of the vertex that they are given to. -/
theorem sum_unseen_set (mark : Mark) (hmark : mark ≠ .unseen) :
    (∑ w, if marks.get w = .unseen then (next w).length + 1 else 0) =
      (if marks.get u = .unseen then (next u).length + 1 else 0) +
        ∑ w, if (marks.set u mark u.isLt).get w = .unseen then (next w).length + 1 else 0 := by
  rw [← Finset.add_sum_erase _ _ (Finset.mem_univ u),
    ← Finset.add_sum_erase (a := u) Finset.univ
      (fun w => if (marks.set u mark u.isLt).get w = .unseen then (next w).length + 1 else 0)
      (Finset.mem_univ u)]
  rw [get_set, if_pos rfl, if_neg hmark, Nat.zero_add]
  congr 1
  refine Finset.sum_congr rfl fun w hw => ?_
  rw [get_set, if_neg (Finset.ne_of_mem_erase hw).symm]

theorem walkCost_finish (hseen : marks.get v ≠ .unseen) :
    walkCost next (⟨v, []⟩ :: below) marks =
      walkCost next below (marks.set v .finished v.isLt) + 1 := by
  rw [walkCost, walkCost, sum_unseen_set next marks v .finished (by simp), if_neg hseen]
  simp
  omega

variable (next marks below v u ahead) in
theorem walkCost_pass :
    walkCost next (⟨v, ahead⟩ :: below) (marks.set u .finished u.isLt) + 1 ≤
      walkCost next (⟨v, u :: ahead⟩ :: below) marks := by
  rw [walkCost, walkCost, sum_unseen_set next marks u .finished (by simp)]
  simp
  omega

variable (next below v ahead) in
theorem walkCost_enter (hunseen : marks.get u = .unseen) :
    walkCost next (⟨u, next u⟩ :: ⟨v, ahead⟩ :: below) (marks.set u .active u.isLt) + 1 =
      walkCost next (⟨v, u :: ahead⟩ :: below) marks := by
  rw [walkCost, walkCost, sum_unseen_set next marks u .active (by simp),
    if_pos hunseen]
  simp
  omega

end Cost

/-! ### Single steps -/

section Steps

variable {marks : Marks n} {below : List (Frame n)} {visited : List (Fin n)} {v u : Fin n}
  {ahead : List (Fin n)} {steps : Nat}

theorem walk_skip (hmark : marks.get u = .finished) :
    walk next stops (steps + 1) (⟨v, u :: ahead⟩ :: below) visited marks =
      walk next stops steps (⟨v, ahead⟩ :: below) visited marks := by
  have hmark : marks[u] = .finished := hmark
  simp only [walk, hmark]

theorem walk_stop (hmark : marks.get u = .unseen) (hstop : stops u = true) :
    walk next stops (steps + 1) (⟨v, u :: ahead⟩ :: below) visited marks =
      walk next stops steps (⟨v, ahead⟩ :: below) (u :: visited)
        (marks.set u .finished u.isLt) := by
  have hmark : marks[u] = .unseen := hmark
  simp only [walk, hmark, hstop, if_true]

theorem walk_enter (hmark : marks.get u = .unseen) (hstop : stops u = false) :
    walk next stops (steps + 1) (⟨v, u :: ahead⟩ :: below) visited marks =
      walk next stops steps (⟨u, next u⟩ :: ⟨v, ahead⟩ :: below) (u :: visited)
        (marks.set u .active u.isLt) := by
  have hmark : marks[u] = .unseen := hmark
  simp only [walk, hmark, hstop, Bool.false_eq_true, if_false]

theorem walk_close (hmark : marks.get u = .active) :
    walk next stops (steps + 1) (⟨v, u :: ahead⟩ :: below) visited marks =
      .error (closedPath (⟨v, ahead⟩ :: below) u) := by
  have hmark : marks[u] = .active := hmark
  simp only [walk, hmark]

end Steps

/-! ### Runs -/

/-- What every step of a walk keeps, by the kind of the step, and what is told by it of the end. -/
structure WalkInvariant (next : Fin n → List (Fin n)) (stops : Fin n → Bool)
    (holds : List (Frame n) → List (Fin n) → Marks n → Prop)
    (ends : Except (List (Fin n)) (Trail n) → Prop) : Prop where
  /-- The vertices of the stack have been met. -/
  met : ∀ v ahead below visited marks, holds (⟨v, ahead⟩ :: below) visited marks →
    marks.get v ≠ .unseen
  /-- A frame without neighbours ahead is taken off. -/
  finish : ∀ v below visited marks, holds (⟨v, []⟩ :: below) visited marks →
    holds below visited (marks.set v .finished v.isLt)
  /-- A finished neighbour is passed by. -/
  skip : ∀ v u ahead below visited marks, marks.get u = .finished →
    holds (⟨v, u :: ahead⟩ :: below) visited marks → holds (⟨v, ahead⟩ :: below) visited marks
  /-- The walk stops at a neighbour. -/
  stop : ∀ v u ahead below visited marks, marks.get u = .unseen → stops u = true →
    holds (⟨v, u :: ahead⟩ :: below) visited marks →
      holds (⟨v, ahead⟩ :: below) (u :: visited) (marks.set u .finished u.isLt)
  /-- A neighbour is expanded. -/
  enter : ∀ v u ahead below visited marks, marks.get u = .unseen → stops u = false →
    holds (⟨v, u :: ahead⟩ :: below) visited marks →
      holds (⟨u, next u⟩ :: ⟨v, ahead⟩ :: below) (u :: visited) (marks.set u .active u.isLt)
  /-- A neighbour that is being expanded closes a path. -/
  close : ∀ v u ahead below visited marks, marks.get u = .active →
    holds (⟨v, u :: ahead⟩ :: below) visited marks →
      ends (.error (closedPath (⟨v, ahead⟩ :: below) u))
  /-- The stack is empty. -/
  done : ∀ visited marks, holds [] visited marks → ends (.ok ⟨visited, marks⟩)

/-- A walk ends within its cost, as its invariant tells. -/
theorem WalkInvariant.walk {holds : List (Frame n) → List (Fin n) → Marks n → Prop}
    {ends : Except (List (Fin n)) (Trail n) → Prop} (h : WalkInvariant next stops holds ends)
    (fuel : Nat) (stack : List (Frame n)) (visited : List (Fin n)) (marks : Marks n)
    (hstate : holds stack visited marks) (hfuel : walkCost next stack marks ≤ fuel) :
    ends (walk next stops fuel stack visited marks) := by
  induction fuel generalizing stack visited marks with
  | zero =>
    cases stack with
    | nil => exact h.done visited marks hstate
    | cons frame below => simp [walkCost] at hfuel
  | succ fuel ih =>
    match stack with
    | [] => exact h.done visited marks hstate
    | ⟨v, []⟩ :: below =>
      rw [walkCost_finish (h.met v [] below visited marks hstate)] at hfuel
      exact ih below visited _ (h.finish v below visited marks hstate) (by omega)
    | ⟨v, u :: ahead⟩ :: below =>
      have hpass := walkCost_pass next marks below v u ahead
      match hmark : marks.get u with
      | .active =>
        rw [walk_close hmark]
        exact h.close v u ahead below visited marks hmark hstate
      | .finished =>
        have hset : marks.set u .finished = marks := by
          rw [← hmark]
          exact Vector.set_getElem_self _
        rw [hset] at hpass
        rw [walk_skip hmark]
        exact ih _ visited marks (h.skip v u ahead below visited marks hmark hstate) (by omega)
      | .unseen =>
        cases hstop : stops u with
        | true =>
          rw [walk_stop hmark hstop]
          exact ih _ (u :: visited) _ (h.stop v u ahead below visited marks hmark hstop hstate)
            (by omega)
        | false =>
          have hcost := walkCost_enter next below v ahead hmark
          rw [walk_enter hmark hstop]
          exact ih _ (u :: visited) _ (h.enter v u ahead below visited marks hmark hstop hstate)
            (by omega)

/-- What a walk ends in: sound marks, by which everything it has met is finished, or a closed
path. -/
def WalkEnd (next : Fin n → List (Fin n)) (stops : Fin n → Bool) (marks : Marks n) :
    Except (List (Fin n)) (Trail n) → Prop
  | .ok trail =>
    Walking next stops [] trail.marks ∧
      ∀ v : Fin n, marks.get v ≠ .unseen → trail.marks.get v = .finished
  | .error path => IsClosedPath next path

theorem get_set_ne_unseen_iff {marks : Marks n} {u v : Fin n} {mark : Mark}
    (hmark : mark ≠ .unseen) :
    (marks.set u mark u.isLt).get v ≠ .unseen ↔ v = u ∨ marks.get v ≠ .unseen := by
  rw [get_set]
  by_cases huv : u = v
  · simp [huv, hmark]
  · rw [if_neg huv, or_iff_right (Ne.symm huv)]

/-- When a walk is over, what it has met is finished. -/
theorem Walking.eq_finished {marks : Marks n} (h : Walking next stops [] marks) {v : Fin n}
    (hv : marks.get v ≠ .unseen) : marks.get v = .finished := by
  have hactive : marks.get v ≠ .active := fun hmark => by simpa using (h.active_iff v).mp hmark
  match hmark : marks.get v with
  | .unseen => exact absurd hmark hv
  | .active => exact absurd hmark hactive
  | .finished => rfl

/-- Stack and marks stay sound, and what has been met stays so. -/
theorem walkInvariant_walking (marks : Marks n) :
    WalkInvariant next stops (fun stack _ marks' => Walking next stops stack marks' ∧
      ∀ v : Fin n, marks.get v ≠ .unseen → marks'.get v ≠ .unseen) (WalkEnd next stops marks) where
  met _ _ _ _ _ h := h.1.met
  finish _ _ _ _ h :=
    ⟨h.1.finish, fun w hw => (get_set_ne_unseen_iff (by simp)).mpr (.inr (h.2 w hw))⟩
  skip _ _ _ _ _ _ hmark h := ⟨h.1.skip hmark, h.2⟩
  stop _ _ _ _ _ _ hmark hstop h :=
    ⟨h.1.stop hmark hstop, fun w hw => (get_set_ne_unseen_iff (by simp)).mpr (.inr (h.2 w hw))⟩
  enter _ _ _ _ _ _ hmark _ h :=
    ⟨h.1.enter hmark, fun w hw => (get_set_ne_unseen_iff (by simp)).mpr (.inr (h.2 w hw))⟩
  close _ _ _ _ _ _ hmark h := h.1.isClosedPath hmark
  done _ _ h := ⟨h.1, fun v hv => h.1.eq_finished (h.2 v hv)⟩

/-- A walk from a sound state ends within its cost, with sound marks or a closed path. -/
theorem walk_spec (fuel : Nat) (stack : List (Frame n)) (visited : List (Fin n)) (marks : Marks n)
    (h : Walking next stops stack marks) (hfuel : walkCost next stack marks ≤ fuel) :
    WalkEnd next stops marks (walk next stops fuel stack visited marks) :=
  (walkInvariant_walking marks).walk fuel stack visited marks ⟨h, fun _ hv => hv⟩ hfuel

/-! ### The search for a closed path -/

/-- The marks between two walks are sound, and no vertex is being expanded. -/
theorem walking_fresh : Walking next stops [] (Marks.fresh : Marks n) := by
  refine ⟨fun v => ?_, List.nodup_nil, fun v hv => ?_, trivial⟩
  · simp [Marks.fresh]
  · simp [Marks.fresh] at hv

/-- A walk that starts at a vertex that has not been met. -/
theorem Walking.start {marks : Marks n} (h : Walking next stops [] marks) (start : Fin n) :
    Walking next stops [⟨start, next start⟩] (marks.set start .active start.isLt) := by
  refine ⟨fun v => ?_, by simp, fun v hv => ?_, fun w hw => .inl hw, fun w hw => hw, by simp,
    trivial⟩
  · rw [get_set]
    by_cases hv : start = v
    · simp [hv]
    · rw [if_neg hv, h.active_iff]
      simpa using fun heq : v = start => hv heq.symm
  · rw [get_set] at hv
    by_cases hstart : start = v
    · simp [hstart] at hv
    · rw [if_neg hstart] at hv
      exact h.finished v hv

theorem walkCost_start_le {marks : Marks n} {start : Fin n} (hunseen : marks.get start = .unseen) :
    walkCost next [⟨start, next start⟩] (marks.set start .active start.isLt) ≤ walkSteps next := by
  have hsum := sum_unseen_set next marks start .active (by simp)
  have hall : (∑ w, if marks.get w = .unseen then (next w).length + 1 else 0) ≤
      ∑ w, ((next w).length + 1) :=
    Finset.sum_le_sum fun w _ => by split <;> omega
  have hlength : ((List.finRange n).flatMap next).length = ∑ w, (next w).length := by
    rw [List.length_flatMap, ← List.ofFn_eq_map, List.sum_ofFn]
  rw [if_pos hunseen] at hsum
  rw [Finset.sum_add_distrib] at hall
  simp only [Finset.sum_const, Finset.card_univ, Fintype.card_fin, smul_eq_mul, mul_one] at hall
  simp only [walkCost, List.map_cons, List.map_nil, List.sum_cons, List.sum_nil, walkSteps, hlength]
  omega

theorem walkFrom_spec (marks : Marks n) (h : Walking next stops [] marks) (start : Fin n)
    (hunseen : marks.get start = .unseen) (hstop : stops start = false) :
    WalkEnd next stops (marks.set start .active start.isLt)
      (walkFrom (walkSteps next) next stops marks start) := by
  rw [walkFrom, if_neg (by simp [hstop])]
  exact walk_spec _ _ _ _ (h.start start) (walkCost_start_le hunseen)

/-- A search ends with a closed path, or behind none of its starts there is an infinite path. -/
theorem closedPathFrom?_spec (starts : List (Fin n)) (marks : Marks n)
    (h : Walking next (fun _ => false) [] marks) :
    (∀ path, closedPathFrom? (walkSteps next) next starts marks = some path →
        IsClosedPath next path) ∧
      (closedPathFrom? (walkSteps next) next starts marks = none →
        ∀ v ∈ starts, Acc (fun w u => Arc next u w) v) := by
  have hacc : ∀ {marks : Marks n} {v : Fin n}, Walking next (fun _ => false) [] marks →
      marks.get v = .finished → Acc (fun w u => Arc next u w) v := by
    intro marks v h hv
    exact Subrelation.accessible (fun harc => ⟨rfl, harc⟩) (h.finished v hv)
  induction starts generalizing marks with
  | nil => simp [closedPathFrom?]
  | cons start starts ih =>
    rw [closedPathFrom?]
    by_cases hdone : marks[start] = .finished
    · rw [if_pos hdone]
      refine ⟨(ih marks h).1, fun hnone v hv => ?_⟩
      rcases List.mem_cons.mp hv with rfl | hv
      · exact hacc h hdone
      · exact (ih marks h).2 hnone v hv
    · rw [if_neg hdone]
      have hunseen : marks.get start = .unseen := by
        cases hmark : marks.get start with
        | unseen => rfl
        | active => simpa using (h.active_iff start).mp hmark
        | finished => exact absurd hmark hdone
      have hend := walkFrom_spec marks h start hunseen rfl
      cases hwalk : walkFrom (walkSteps next) next (fun _ => false) marks start with
      | error path =>
        rw [hwalk] at hend
        refine ⟨fun path' heq => ?_, by simp⟩
        obtain rfl : path = path' := Option.some.inj heq
        exact hend
      | ok trail =>
        rw [hwalk] at hend
        refine ⟨(ih trail.marks hend.1).1, fun hnone v hv => ?_⟩
        rcases List.mem_cons.mp hv with rfl | hv
        · exact hacc hend.1 (hend.2 v (by simp [get_set]))
        · exact (ih trail.marks hend.1).2 hnone v hv

/-- The path that a search finds is closed. -/
theorem isClosedPath_of_closedPath? {path : List (Fin n)} (h : closedPath? next = some path) :
    IsClosedPath next path :=
  (closedPathFrom?_spec _ _ walking_fresh).1 path h

/-- A search finds a closed path unless the graph is acyclic. -/
theorem closedPath?_eq_none_iff : closedPath? next = none ↔ Acyclic next := by
  constructor
  · intro h
    exact acyclic_of_acc fun v =>
      (closedPathFrom?_spec _ _ walking_fresh).2 h v (List.mem_finRange v)
  · intro h
    match hpath : closedPath? next with
    | none => rfl
    | some path => exact absurd h (isClosedPath_of_closedPath? hpath).not_acyclic

end SceneFlow.Digraph
