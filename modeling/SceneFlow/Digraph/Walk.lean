/-!
# Depth-first walks

A walk through a directed graph on the vertices below `n`, from a start vertex and along the
neighbours of each vertex in their order, with an explicit stack. Vertices that match the stop
predicate are visited but not expanded. Every vertex has a mark that says how far the walk is with
it. A walk ends in failure when it meets a vertex that is still being expanded: then the stack
from that vertex on is a closed path.
-/

namespace SceneFlow.Digraph

variable {n : Nat}

/-- How far a walk is with a vertex. -/
inductive Mark where
  /-- The walk has not met it. -/
  | unseen
  /-- It is being expanded. -/
  | active
  /-- It needs no further look: it has been expanded to the end, or the walk stopped at it. -/
  | finished
deriving DecidableEq, Repr

/-- A mark for every vertex. -/
abbrev Marks (n : Nat) := Vector Mark n

/-- The marks before any walk. -/
def Marks.fresh : Marks n :=
  Vector.replicate n .unseen

/-- A vertex that is being expanded. -/
structure Frame (n : Nat) where
  /-- The vertex. -/
  vertex : Fin n
  /-- Its neighbours that have not been looked at. -/
  ahead : List (Fin n)

/-- What a walk leaves behind. -/
structure Trail (n : Nat) where
  /-- The vertices that have been visited, last first. -/
  visited : List (Fin n)
  /-- The marks. -/
  marks : Marks n

/-- The path from a vertex of a stack up to the top of the stack and back to the vertex. The stack
is given top first. -/
def closedPath (stack : List (Frame n)) (v : Fin n) : List (Fin n) :=
  v :: ((stack.map Frame.vertex).takeWhile (· ≠ v)).reverse ++ [v]

/-- Go on with a walk, or find a closed path. Every step uses up a neighbour or a frame, which is
what `fuel` counts. -/
def walk (next : Fin n → List (Fin n)) (stops : Fin n → Bool) :
    (fuel : Nat) → List (Frame n) → (visited : List (Fin n)) → Marks n →
      Except (List (Fin n)) (Trail n)
  | 0, _, visited, marks => .ok ⟨visited, marks⟩
  | _ + 1, [], visited, marks => .ok ⟨visited, marks⟩
  | fuel + 1, ⟨v, []⟩ :: stack, visited, marks =>
    walk next stops fuel stack visited (marks.set v .finished)
  | fuel + 1, ⟨v, u :: ahead⟩ :: below, visited, marks =>
    let stack := ⟨v, ahead⟩ :: below
    match marks[u] with
    | .active => .error (closedPath stack u)
    | .finished => walk next stops fuel stack visited marks
    | .unseen =>
      if stops u then walk next stops fuel stack (u :: visited) (marks.set u .finished)
      else walk next stops fuel (⟨u, next u⟩ :: stack) (u :: visited) (marks.set u .active)

/-- How many steps a walk takes at most. -/
def walkSteps (next : Fin n → List (Fin n)) : Nat :=
  ((List.finRange n).flatMap next).length + n + 1

/-- Walk from a vertex in at most `steps` steps. The vertices that are marked as finished are not
looked at. -/
def walkFrom (steps : Nat) (next : Fin n → List (Fin n)) (stops : Fin n → Bool) (marks : Marks n)
    (start : Fin n) : Except (List (Fin n)) (Trail n) :=
  if stops start then .ok ⟨[start], marks.set start .finished⟩
  else walk next stops steps [⟨start, next start⟩] [start] (marks.set start .active)

/-- The first closed path that walks from the given starts find, none of which looks at a vertex
that an earlier one has finished. -/
def closedPathFrom? (steps : Nat) (next : Fin n → List (Fin n)) :
    (starts : List (Fin n)) → Marks n → Option (List (Fin n))
  | [], _ => none
  | start :: starts, marks =>
    if marks[start] = .finished then closedPathFrom? steps next starts marks
    else
      match walkFrom steps next (fun _ => false) marks start with
      | .error path => some path
      | .ok trail => closedPathFrom? steps next starts trail.marks

/-- A closed path, if there is one. -/
def closedPath? (next : Fin n → List (Fin n)) : Option (List (Fin n)) :=
  closedPathFrom? (walkSteps next) next (List.finRange n) .fresh

end SceneFlow.Digraph
