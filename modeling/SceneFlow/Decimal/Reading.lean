/-!
# Reading a decimal as a double

The digits of a decimal are gathered into a significand of 64 bits and a power of ten, and the
double is the significand multiplied or divided by that power, each step rounded once. Digits that
no longer fit the significand only move the power.
-/

namespace SceneFlow.Decimal

/-- The value of a decimal digit. -/
def digitValue (c : Char) : Nat :=
  c.toNat - 48

/-- A significand below `2 ^ 64` and the power of ten that it counts. -/
structure Significand where
  /-- The digits that fit. -/
  value : Nat
  /-- The power of ten. -/
  exponent : Int
  /-- A digit of this part of the number no longer fitted. -/
  full : Bool

/-- Whether a further digit still fits 64 bits. -/
def Significand.fits (s : Significand) (digit : Nat) : Bool :=
  !s.full && s.value * 10 + digit < UInt64.size

/-- Take in a digit before the point. -/
def Significand.pushWhole (s : Significand) (c : Char) : Significand :=
  if s.fits (digitValue c) then { s with value := s.value * 10 + digitValue c }
  else { s with exponent := s.exponent + 1, full := true }

/-- Take in a digit behind the point. -/
def Significand.pushFraction (s : Significand) (c : Char) : Significand :=
  if s.fits (digitValue c) then
    { s with value := s.value * 10 + digitValue c, exponent := s.exponent - 1 }
  else { s with full := true }

/-- The significand of a number with the given digits before and behind the point. -/
def Significand.ofDigits (whole fraction : List Char) : Significand :=
  let s := whole.foldl pushWhole ⟨0, 0, false⟩
  fraction.foldl pushFraction { s with full := false }

/-- The number that a list of digits writes. -/
def ofDigitChars (digits : List Char) : Nat :=
  digits.foldl (fun n c => n * 10 + digitValue c) 0

/-- The double nearest to a power of ten. -/
def powerOfTen (n : Nat) : Float :=
  Float.ofScientific 1 false n

/-- The significand times its power of ten, or nothing where that exceeds the largest double. -/
def Significand.toFloat? (s : Significand) : Option Float :=
  let x := Float.ofScientific s.value false 0
  if 308 < s.exponent then (if s.value = 0 then some x else none)
  else if 0 ≤ s.exponent then
    let y := x * powerOfTen s.exponent.toNat
    if y.isInf then none else some y
  else if -308 ≤ s.exponent then some (x / powerOfTen (-s.exponent).toNat)
  else if -616 ≤ s.exponent then
    some (x / powerOfTen 308 / powerOfTen (-s.exponent - 308).toNat)
  else some 0

end SceneFlow.Decimal
