/-!
# Times

The later and the earlier of two times, over any ordered type. Of two equal times the first is
taken.
-/

namespace SceneFlow

variable {α : Type} [LT α] [DecidableLT α]

/-- The later of two times. -/
def later (a b : α) : α :=
  if a < b then b else a

/-- The earlier of two times. -/
def earlier (a b : α) : α :=
  if b < a then b else a

/-- The earlier of two times that may be missing. -/
def earliest? : Option α → Option α → Option α
  | some a, some b => some (earlier a b)
  | some a, none => some a
  | none, b => b

end SceneFlow
