import SceneFlow.Color
import SceneFlow.Graph.Payload

/-!
# Operations of value nodes

What a value node makes of the values that arrive at its ports. A value may be undefined, and what
is calculated from an undefined value is undefined too. Where a port is free, the value that the
node holds for it stands in.
-/

namespace SceneFlow

/-- What arrives at the ports of a node: for each link the port, and the value unless it is
undefined. -/
abbrev Inputs := List (PortId × Option Json)

namespace Inputs

/-- What arrives at a port by the first link to it, or what stands in if there is none. -/
def operand (inputs : Inputs) (port : String) (fallback : Option Json) : Option Json :=
  match inputs.find? fun input => input.1.text = port with
  | some (_, value) => value
  | none => fallback

/-- What arrives by the first link of all. -/
def first (inputs : Inputs) : Option Json :=
  match inputs with
  | (_, value) :: _ => value
  | [] => none

end Inputs

/-- Compare two numbers. -/
def CompareOp.numbers (op : CompareOp) (a b : Float) : Bool :=
  match op with
  | .eq => a == b
  | .ne => a != b
  | .lt => a < b
  | .le => a ≤ b
  | .gt => a > b
  | .ge => a ≥ b

/-- Compare two values. Only numbers have an order. -/
def CompareOp.values (op : CompareOp) (a b : Json) : Option Bool :=
  match a.toFloat?, b.toFloat? with
  | some x, some y => some (op.numbers x y)
  | _, _ =>
    match op with
    | .eq => some (a.same b)
    | .ne => some (!a.same b)
    | _ => none

/-- Connect two truth values. -/
def LogicOp.connect (op : LogicOp) (a b : Bool) : Bool :=
  match op with
  | .and => a && b
  | .or => a || b
  | .not => !a
  | .xor => a != b

/-- Calculate with two numbers. There is no quotient by zero. -/
def MathOp.calculate (op : MathOp) (a b : Float) : Option Float :=
  match op with
  | .add => some (a + b)
  | .sub => some (a - b)
  | .mul => some (a * b)
  | .div => if b == 0 then none else some (a / b)
  | .min => some (if a < b then a else b)
  | .max => some (if a > b then a else b)

/-- Whether a value is of a type. -/
def ValueType.holds (type : ValueType) (value : Json) : Bool :=
  match type with
  | .number => value.toFloat?.any Float.isFinite
  | .bool => value.toBool?.isSome
  | .color => value.toText?.any fun s => (Color.parse s).isOk
  | .text => value.toText?.isSome

/-- The value of a variable: what arrives at its port, else what arrives first, if it is of the
declared type. -/
def Variable.value (data : Variable) (inputs : Inputs) : Option Json := do
  let value ← (inputs.operand "value" none).or inputs.first
  match data.valueType with
  | some type => if type.holds value then some value else none
  | none => some value

/-- The outcome of a comparison. -/
def Comparison.value (comparison : Comparison) (inputs : Inputs) : Option Json := do
  let a ← inputs.operand "a" comparison.a
  let b ← inputs.operand "b" comparison.b
  (comparison.op.values a b).map .bool

/-- The outcome of a connective. A negation has one operand only. -/
def Logic.value (logic : Logic) (inputs : Inputs) : Option Json := do
  let a ← (← inputs.operand "a" (logic.a.map .bool)).toBool?
  if logic.op = .not then some (.bool !a)
  else
    let b ← (← inputs.operand "b" (logic.b.map .bool)).toBool?
    some (.bool (logic.op.connect a b))

/-- The outcome of an operation on numbers, if it is finite. -/
def Arithmetic.value (arithmetic : Arithmetic) (inputs : Inputs) : Option Json := do
  let a ← (← inputs.operand "a" (arithmetic.a.map .ofFloat)).toFloat?
  let b ← (← inputs.operand "b" (arithmetic.b.map .ofFloat)).toFloat?
  let result ← arithmetic.op.calculate a b
  if result.isFinite then some (.ofFloat result) else none

end SceneFlow
