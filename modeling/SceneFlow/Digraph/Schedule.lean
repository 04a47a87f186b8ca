/-!
# Schedules

A schedule lists the vertices of a directed graph so that each comes after all vertices with an
arc to it. Vertices on a closed path, and those behind one, are not listed. Vertices that become
free earlier are listed earlier.
-/

namespace SceneFlow.Digraph

variable {V : Type} [DecidableEq V]

/-- Pass along the arcs to some targets. `waiting` holds the target of every arc not yet passed; a
target for which no arc is left joins the end of the queue `ready`. -/
def release : (targets waiting ready : List V) → List V × List V
  | [], waiting, ready => (waiting, ready)
  | target :: targets, waiting, ready =>
    let waiting := waiting.erase target
    release targets waiting (if target ∈ waiting then ready else ready ++ [target])

/-- List the vertices of the queue and those that become free behind them. Every step takes one
vertex from the queue, which no vertex enters twice, so `fuel` need not exceed their number. -/
def scheduleFrom (next : V → List V) : (fuel : Nat) → (waiting ready : List V) → List V
  | 0, _, _ => []
  | _ + 1, _, [] => []
  | fuel + 1, waiting, v :: ready =>
    let (waiting, ready) := release (next v) waiting ready
    v :: scheduleFrom next fuel waiting ready

/-- The schedule of some vertices, the targets of whose arcs are given by `next`. -/
def schedule (vertices : List V) (next : V → List V) : List V :=
  let waiting := vertices.flatMap next
  scheduleFrom next vertices.length waiting (vertices.filter fun v => v ∉ waiting)

end SceneFlow.Digraph
