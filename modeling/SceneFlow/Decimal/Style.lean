import SceneFlow.Decimal.Shortest

/-!
# Writing a double

A `Style` holds the decisions of one output format: which numbers are written without an exponent,
whether a whole number keeps its point, what stands for the values that are no numbers. The digits
are always the shortest that read back.
-/

namespace SceneFlow.Decimal

/-- How a double is written. -/
structure Style where
  /-- The places of the leading digit at which no exponent is written. -/
  isPlain : Int → Bool
  /-- A whole number is written with a point and a zero. -/
  pointZero : Bool
  /-- Which of two equally near decimals is taken. -/
  tie : Tie
  /-- The text of positive infinity. -/
  infinity : String
  /-- The text of negative infinity. -/
  negativeInfinity : String
  /-- The text of the value that is not a number. -/
  notANumber : String

/-- The decimal digits of a number, the most significant first. -/
def digitChars (n : Nat) : List Char :=
  Nat.toDigits 10 n

/-- The decimal place of the first digit. -/
def Scientific.leadingPlace (d : Scientific) : Int :=
  d.exponent + (digitChars d.digits).length - 1

/-- Digits with a point and no exponent. -/
def Scientific.plain (d : Scientific) (pointZero : Bool) : List Char :=
  let digits := digitChars d.digits
  let whole := d.exponent + digits.length
  if 0 ≤ d.exponent then
    digits ++ List.replicate d.exponent.toNat '0' ++ (if pointZero then ['.', '0'] else [])
  else if 0 < whole then
    digits.take whole.toNat ++ '.' :: digits.drop whole.toNat
  else
    '0' :: '.' :: List.replicate (-whole).toNat '0' ++ digits

/-- One digit before the point, the others behind it, and a signed exponent. -/
def Scientific.withExponent (d : Scientific) : List Char :=
  let place := d.leadingPlace
  let sign := if place < 0 then '-' else '+'
  let mantissa :=
    match digitChars d.digits with
    | [] => []
    | [c] => [c]
    | c :: rest => c :: '.' :: rest
  mantissa ++ 'e' :: sign :: digitChars place.natAbs

/-- The text of a double. -/
def Style.render (style : Style) (x : Float) : String :=
  let bits := x.toBits
  let negative := bits >>> 63 = 1
  if x.isNaN then style.notANumber
  else if x.isInf then (if negative then style.negativeInfinity else style.infinity)
  else
    let binary := Binary.ofBits bits
    let d := if binary.mantissa = 0 then ⟨0, 0⟩ else binary.shortest style.tie
    let text := if style.isPlain d.leadingPlace then d.plain style.pointZero else d.withExponent
    String.ofList (if negative then '-' :: text else text)

end SceneFlow.Decimal
