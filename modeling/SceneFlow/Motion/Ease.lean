import SceneFlow.Json.Decoder

/-!
# Easing curves

How the progress of a track follows time. The curves are written over any number type, so that the
doubles that run and the rationals that proofs speak of share one definition.
-/

namespace SceneFlow

/-- An easing curve. -/
inductive Ease where
  /-- Even progress. -/
  | linear
  /-- Quadratic, slow at the start. -/
  | inQuad
  /-- Quadratic, slow at the end. -/
  | outQuad
  /-- Quadratic, slow at both ends. -/
  | inOutQuad
  /-- Cubic, slow at the start. -/
  | inCubic
  /-- Cubic, slow at the end. -/
  | outCubic
  /-- Cubic, slow at both ends. -/
  | inOutCubic
deriving DecidableEq, Repr

namespace Ease

/-- The curves and their names in documents. -/
def names : List (String × Ease) :=
  [("linear", linear), ("in_quad", inQuad), ("out_quad", outQuad), ("in_out_quad", inOutQuad),
    ("in_cubic", inCubic), ("out_cubic", outCubic), ("in_out_cubic", inOutCubic)]

/-- The name of a curve in documents. -/
def name : Ease → String
  | linear => "linear"
  | inQuad => "in_quad"
  | outQuad => "out_quad"
  | inOutQuad => "in_out_quad"
  | inCubic => "in_cubic"
  | outCubic => "out_cubic"
  | inOutCubic => "in_out_cubic"

/-- Read a curve. -/
def ofJson : Decoder Ease :=
  .choice names

/-- The name of a curve as a value. -/
def toJson (ease : Ease) : Json :=
  .str ease.name

section Curve

variable {α : Type} [Add α] [Sub α] [Mul α] [Div α] [Neg α] [LT α] [DecidableLT α]
  [LE α] [DecidableLE α] [OfNat α 0] [OfNat α 1] [OfNat α 2] [OfNat α 4]

/-- The nearest number between zero and one. -/
def clamp (t : α) : α :=
  if t < 0 then 0 else if 1 < t then 1 else t

/-- The height of a curve over a time between zero and one. -/
def height (ease : Ease) (t : α) : α :=
  match ease with
  | linear => t
  | inQuad => t * t
  | outQuad => 1 - (1 - t) * (1 - t)
  | inOutQuad =>
    if t < 1 / 2 then 2 * t * t
    else
      let u := -2 * t + 2
      1 - u * u / 2
  | inCubic => t * t * t
  | outCubic =>
    let u := 1 - t
    1 - u * (u * u)
  | inOutCubic =>
    if t < 1 / 2 then 4 * t * t * t
    else
      let u := -2 * t + 2
      1 - u * (u * u) / 2

/-- The progress at a time, which counts as zero before the start and as one past the end. -/
def apply (ease : Ease) (t : α) : α :=
  ease.height (clamp t)

/-- The progress of a track at a time. A track that takes no time is over when it starts. -/
def progress (ease : Ease) (start duration time : α) : α :=
  if duration ≤ 0 then
    if start ≤ time then 1 else 0
  else ease.apply ((time - start) / duration)

end Curve

end Ease

end SceneFlow
