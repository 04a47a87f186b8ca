/-!
# The shortest decimal that reads back

A finite positive double stands for an interval of reals, those that round to it. This module
finds, in exact integer arithmetic, the decimal with the fewest digits in that interval and, among
those, the one nearest to the double. How the decimal is written is the business of
`SceneFlow.Decimal.Style`.

What is selected lies in the interval by construction. That no shorter decimal does rests on the
order of the search, from one digit upwards, and on the fact that a grid with a point in the
interval has one of the double's two neighbours on that grid in it.
-/

namespace SceneFlow.Decimal

/-- A positive binary number `mantissa * 2 ^ exponent` with the shape of its rounding interval. -/
structure Binary where
  /-- The significant bits. -/
  mantissa : Nat
  /-- The power of two they count. -/
  exponent : Int
  /-- The gap to the double below is half the gap to the double above. -/
  narrowBelow : Bool

/-- The magnitude of a finite double, from its bits. -/
def Binary.ofBits (bits : UInt64) : Binary :=
  let biased := (bits >>> 52 &&& 0x7FF).toNat
  let fraction := (bits &&& 0xFFFFFFFFFFFFF).toNat
  if biased = 0 then ⟨fraction, -1074, false⟩
  else ⟨0x10000000000000 + fraction, (biased : Int) - 1075, fraction == 0 && biased > 1⟩

/-- The decimal number `digits * 10 ^ exponent`. -/
structure Scientific where
  /-- The digits, as one number. -/
  digits : Nat
  /-- The power of ten they count. -/
  exponent : Int
deriving DecidableEq, Repr

/-- Which of two equally near decimals is taken. -/
inductive Tie where
  /-- The one whose last digit is even. -/
  | toEven
  /-- The larger one. -/
  | up
deriving DecidableEq, Repr

/-- A binary number over a decimal grid: with quarter steps of the mantissa counted by `quarter`
and one step of the grid by `step`, both in one common unit. -/
structure Grid where
  /-- A quarter of the last bit of the mantissa. -/
  quarter : Nat
  /-- The distance of two points of the grid. -/
  step : Nat

/-- The grid of the multiples of `10 ^ place`, in the unit common to it and the number. -/
def Binary.grid (x : Binary) (place : Int) : Grid where
  quarter := Nat.pow 2 (x.exponent - 2).toNat * Nat.pow 10 (-place).toNat
  step := Nat.pow 2 (2 - x.exponent).toNat * Nat.pow 10 place.toNat

/-- The lower end of the rounding interval, in quarters of the last bit. -/
def Binary.low (x : Binary) : Nat :=
  if x.narrowBelow then 4 * x.mantissa - 1 else 4 * x.mantissa - 2

/-- The upper end of the rounding interval, in quarters of the last bit. -/
def Binary.high (x : Binary) : Nat :=
  4 * x.mantissa + 2

/-- Whether a multiple of the grid's step rounds to the number. The ends of the interval belong to
it exactly when the mantissa is even. -/
def Binary.readsBack (x : Binary) (g : Grid) (multiple : Nat) : Bool :=
  let point := multiple * g.step
  if x.mantissa % 2 = 0 then x.low * g.quarter ≤ point && point ≤ x.high * g.quarter
  else x.low * g.quarter < point && point < x.high * g.quarter

/-- The nearest multiple of `10 ^ place` that rounds to the number, if one does. -/
def Binary.onGrid? (x : Binary) (tie : Tie) (place : Int) : Option Scientific :=
  let g := x.grid place
  let value := 4 * x.mantissa * g.quarter
  let below := value / g.step
  let above := below + 1
  let nearest :=
    match compare (2 * value) ((below + above) * g.step) with
    | .lt => below
    | .gt => above
    | .eq => if tie = .toEven && below % 2 = 0 then below else above
  let candidates := if nearest = below then [below, above] else [above, below]
  (candidates.find? (x.readsBack g)).map fun multiple => ⟨multiple, place⟩

/-- Whether `10 ^ place` is at most the number. -/
def Binary.reaches (x : Binary) (place : Int) : Bool :=
  let g := x.grid place
  g.step ≤ 4 * x.mantissa * g.quarter

/-- The decimal place of the leading digit. The estimate from the binary logarithm is off by at
most one. -/
def Binary.leadingPlace (x : Binary) : Int :=
  let estimate := ((x.mantissa.log2 : Int) + x.exponent) * 30103 / 100000
  if x.reaches (estimate + 1) then estimate + 1
  else if x.reaches estimate then estimate
  else estimate - 1

/-- The number itself as a decimal, without rounding. -/
def Binary.exactly (x : Binary) : Scientific :=
  if 0 ≤ x.exponent then ⟨x.mantissa * Nat.pow 2 x.exponent.toNat, 0⟩
  else ⟨x.mantissa * Nat.pow 5 (-x.exponent).toNat, x.exponent⟩

/-- Move the zeros at the end of the digits into the exponent, at most `fuel` of them. -/
def Scientific.strip : (fuel : Nat) → Scientific → Scientific
  | 0, d => d
  | fuel + 1, d =>
    if d.digits ≠ 0 && d.digits % 10 = 0 then strip fuel ⟨d.digits / 10, d.exponent + 1⟩ else d

/-- The shortest decimal that rounds to the number. Seventeen digits are always enough; past them
the exact value stands in. -/
def Binary.shortest (x : Binary) (tie : Tie) : Scientific :=
  let place := x.leadingPlace
  let found := (List.range 17).findSome? fun (n : Nat) => x.onGrid? tie (place - n)
  (found.getD x.exactly).strip 20

end SceneFlow.Decimal
