import SceneFlow.Proofs.Digraph.Schedule

/-!
# Schedules by counting

A schedule can be made with nothing but a number for every vertex: how many arcs to it are not yet
passed. Passing an arc counts its target down, and a target that comes to zero joins the queue. The
counts are always those of the arcs that wait, so none is counted down below zero, whatever cycles
and parallel arcs the graph has, and what is listed is the schedule.

## Main definitions

* `Digraph.countDown`: arcs are passed; there is no result if a count would go below zero.
* `Digraph.Countdown`: the counts, the queue, and the vertices listed so far.

## Main results

* `Digraph.exists_countDown`: arcs that wait can be counted down.
* `Digraph.exists_run`: the counts are those of the arcs that wait, after any number of steps.
* `Digraph.exists_run_eq`: counting comes to an end, and lists the schedule.
-/

namespace SceneFlow.Digraph

variable {V : Type} [DecidableEq V]

/-- Pass along the arcs to some targets. The count of every target goes down by one, and a target
whose count comes to zero joins the end of the queue. There is no result if a count would go below
zero. -/
def countDown : (targets : List V) → (counts : V → Nat) → (ready : List V) →
    Option ((V → Nat) × List V)
  | [], counts, ready => some (counts, ready)
  | target :: targets, counts, ready =>
    match counts target with
    | 0 => none
    | count + 1 =>
      countDown targets (Function.update counts target count)
        (if count = 0 then ready ++ [target] else ready)

/-- How far a schedule has come that is made by counting. -/
structure Countdown (V : Type) where
  /-- How many arcs to each vertex are not yet passed. -/
  counts : V → Nat
  /-- The queue. -/
  ready : List V
  /-- The vertices listed so far. -/
  listed : List V

namespace Countdown

/-- List the first vertex of the queue and count its targets down; without one nothing happens. -/
def step (next : V → List V) (state : Countdown V) : Option (Countdown V) :=
  match state.ready with
  | [] => some state
  | v :: ready => do
    let (counts, ready) ← countDown (next v) state.counts ready
    some ⟨counts, ready, state.listed ++ [v]⟩

/-- Go some steps. -/
def run (next : V → List V) : Nat → Countdown V → Option (Countdown V)
  | 0, state => some state
  | steps + 1, state => state.step next >>= run next steps

/-- Before the first step the vertices whose count is zero are in the queue. -/
def start (vertices : List V) (counts : V → Nat) : Countdown V :=
  ⟨counts, vertices.filter fun v => counts v = 0, []⟩

end Countdown

variable {next : V → List V} {vertices done waiting ready : List V} {counts : V → Nat}

/-- Targets of arcs that wait can be counted down, which does the same as releasing them. -/
theorem exists_countDown {targets rest : List V} (hwaiting : (targets ++ rest).Perm waiting)
    (hcounts : ∀ v, counts v = waiting.count v) (ready : List V) :
    ∃ counts', countDown targets counts ready =
        some (counts', (release targets waiting ready).2) ∧
      ∀ v, counts' v = (release targets waiting ready).1.count v := by
  induction targets generalizing waiting ready counts with
  | nil => exact ⟨counts, rfl, hcounts⟩
  | cons target targets ih =>
    have hrest : (targets ++ rest).Perm (waiting.erase target) := by
      simpa using hwaiting.erase target
    have hmem : target ∈ waiting := hwaiting.subset List.mem_cons_self
    have hcount : counts target = (waiting.erase target).count target + 1 := by
      have hpos := List.count_pos_iff.mpr hmem
      rw [hcounts, List.count_erase_self]
      omega
    have hless : ∀ v, Function.update counts target ((waiting.erase target).count target) v =
        (waiting.erase target).count v := by
      intro v
      by_cases hv : v = target
      · rw [hv, Function.update_self]
      · rw [Function.update_of_ne hv, hcounts, List.count_erase_of_ne hv]
    have hready : (if (waiting.erase target).count target = 0 then ready ++ [target] else ready) =
        if target ∈ waiting.erase target then ready else ready ++ [target] := by
      by_cases hagain : target ∈ waiting.erase target
      · rw [if_pos hagain, if_neg (List.count_pos_iff.mpr hagain).ne']
      · rw [if_neg hagain, if_pos (List.count_eq_zero.mpr hagain)]
    rw [countDown, release, hcount]
    dsimp only
    rw [hready]
    exact ih hrest hless _

/-- When the vertices `done` are listed and no vertex that waits is free, the queue is empty. -/
theorem Pending.ready_eq_nil {waiting' : List V} (h : Pending next vertices done waiting ready)
    (hover : Pending next vertices done waiting' []) : ready = [] := by
  refine List.eq_nil_iff_forall_not_mem.mpr fun v hv => ?_
  have hsubset : v ∈ vertices := h.subset v (List.mem_append_right _ hv)
  have hfree : v ∉ waiting := (h.free_iff v hsubset).mpr (List.mem_append_right _ hv)
  have hfree' : v ∉ waiting' := fun hmem =>
    hfree (h.waiting_perm.mem_iff.mpr (hover.waiting_perm.mem_iff.mp hmem))
  have hdone : v ∈ done := by simpa using (hover.free_iff v hsubset).mp hfree'
  exact List.disjoint_of_nodup_append h.nodup hdone hv

section Run

variable (hvertices : vertices.Nodup) (hclosed : ∀ u ∈ vertices, ∀ w ∈ next u, w ∈ vertices)
include hvertices hclosed

/-- In every step the counts stay those of the arcs that wait, and none goes below zero. -/
theorem Pending.exists_step {v : V} (h : Pending next vertices done waiting (v :: ready))
    (hcounts : ∀ w, counts w = waiting.count w) :
    ∃ counts', Countdown.step next ⟨counts, v :: ready, done⟩ =
        some ⟨counts', (release (next v) waiting ready).2, done ++ [v]⟩ ∧
      (∀ w, counts' w = (release (next v) waiting ready).1.count w) ∧
      Pending next vertices (done ++ [v]) (release (next v) waiting ready).1
        (release (next v) waiting ready).2 := by
  obtain ⟨counts', hdown, hcounts'⟩ := exists_countDown (h.waiting_split hvertices) hcounts ready
  exact ⟨counts', by simp [Countdown.step, hdown], hcounts', h.step hvertices hclosed⟩

/-- After any number of steps the counts are those of the arcs that wait, and the vertices that are
listed are those of the schedule. -/
theorem exists_run (steps : Nat) (h : Pending next vertices done waiting ready)
    (hcounts : ∀ v, counts v = waiting.count v) :
    ∃ counts' waiting' ready', Countdown.run next steps ⟨counts, ready, done⟩ =
        some ⟨counts', ready', done ++ scheduleFrom next steps waiting ready⟩ ∧
      (∀ v, counts' v = waiting'.count v) ∧
      Pending next vertices (done ++ scheduleFrom next steps waiting ready) waiting' ready' := by
  induction steps generalizing done waiting ready counts with
  | zero => exact ⟨counts, waiting, ready, by simp [Countdown.run, scheduleFrom], hcounts,
      by simpa [scheduleFrom] using h⟩
  | succ steps ih =>
    cases ready with
    | nil =>
      obtain ⟨counts', waiting', ready', hrun, hcounts', hpending⟩ := ih h hcounts
      have hnone : ∀ steps, scheduleFrom next steps waiting [] = [] := by
        rintro (_ | _) <;> rfl
      rw [hnone] at hrun hpending ⊢
      exact ⟨counts', waiting', ready', hrun, hcounts', hpending⟩
    | cons v ready =>
      obtain ⟨next', hstep, hcounts', hpending⟩ := h.exists_step hvertices hclosed hcounts
      obtain ⟨counts', waiting', ready', hrun, hcounts', hpending⟩ := ih hpending hcounts'
      refine ⟨counts', waiting', ready', ?_, hcounts', ?_⟩
      · rw [Countdown.run, hstep, scheduleFrom]
        simpa using hrun
      · rw [scheduleFrom]
        simpa using hpending

/-- Counting comes to an end without going below zero, and lists the schedule. What is left then are
the arcs from vertices that are not listed. -/
theorem exists_run_eq (hcounts : ∀ v, counts v = (vertices.flatMap next).count v) :
    ∃ counts', Countdown.run next vertices.length (.start vertices counts) =
        some ⟨counts', [], schedule vertices next⟩ ∧
      ∀ v, counts' v = ((vertices.filter (· ∉ schedule vertices next)).flatMap next).count v := by
  have hready : (vertices.filter fun v => counts v = 0) =
      vertices.filter fun v => v ∉ vertices.flatMap next :=
    List.filter_congr fun v _ => by simp only [hcounts, List.count_eq_zero]
  obtain ⟨counts', waiting', ready', hrun, hcounts', hpending⟩ :=
    exists_run hvertices hclosed vertices.length (pending_start next hvertices) hcounts
  rw [List.nil_append] at hrun hpending
  obtain ⟨_, hover⟩ := pending_schedule hvertices hclosed
  obtain rfl := hpending.ready_eq_nil hover
  refine ⟨counts', ?_, fun v => ?_⟩
  · rw [Countdown.start, hready]
    exact hrun
  · rw [hcounts', hpending.waiting_perm.count_eq]
    rfl

end Run

end SceneFlow.Digraph
