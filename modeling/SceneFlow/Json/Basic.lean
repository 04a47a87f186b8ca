import SceneFlow.Entries

/-!
# JSON values

Numbers keep the kind they were written with: an integer that fits 64 bits, signed or unsigned, or
a finite double. `1` and `1.0` are therefore different values, though they are the same number.
Objects that are read list their fields in ascending order of the keys; a document that is written
lists the fields of a record in the order of their declaration.
-/

namespace SceneFlow

/-- A number as JSON text can write it. -/
inductive Number where
  /-- An integer of 64 bits, signed or unsigned. -/
  | int (value : Int) (fits : -0x8000000000000000 ≤ value ∧ value < 0x10000000000000000)
  /-- A finite double. -/
  | real (value : Float) (finite : value.isFinite = true)
deriving DecidableEq

namespace Number

/-- The number as a double, an integer rounded to the nearest one. -/
def toFloat : Number → Float
  | .int value _ => Float.ofInt value
  | .real value _ => value

/-- Equality of kind and number; the two zeros of the doubles are one number. -/
def same : Number → Number → Bool
  | .int a _, .int b _ => a == b
  | .real a _, .real b _ => a == b
  | _, _ => false

end Number

/-- A JSON value. -/
inductive Json where
  /-- The null value. -/
  | null
  /-- A truth value. -/
  | bool (value : Bool)
  /-- A number. -/
  | num (value : Number)
  /-- A text. -/
  | str (value : String)
  /-- A list of values. -/
  | arr (items : List Json)
  /-- An object. -/
  | obj (fields : List (String × Json))

namespace Json

instance : Inhabited Json :=
  ⟨.null⟩

/-- The value of a double; what is not finite has none but `null`. -/
def ofFloat (x : Float) : Json :=
  if h : x.isFinite = true then .num (.real x h) else .null

/-- The value of a natural number, `null` for one that exceeds 64 bits. -/
def ofNat (n : Nat) : Json :=
  if h : n < 0x10000000000000000 then .num (.int n ⟨by omega, by omega⟩) else .null

/-- An object with the given fields, in ascending order of the keys. -/
def ofFields (fields : List (String × Json)) : Json :=
  .obj (Entries.ofList fields)

/-- The number of a value that is one, as a double. -/
def toFloat? : Json → Option Float
  | .num n => some n.toFloat
  | _ => none

/-- The truth value of a value that is one. -/
def toBool? : Json → Option Bool
  | .bool b => some b
  | _ => none

/-- The text of a value that is one. -/
def toText? : Json → Option String
  | .str s => some s
  | _ => none

mutual

/-- Equality of values; the two zeros of the doubles are one number. -/
def same : Json → Json → Bool
  | .null, .null => true
  | .bool a, .bool b => a == b
  | .num a, .num b => a.same b
  | .str a, .str b => a == b
  | .arr a, .arr b => sameItems a b
  | .obj a, .obj b => sameFields a b
  | _, _ => false

/-- Equality of lists of values. -/
def sameItems : List Json → List Json → Bool
  | [], [] => true
  | a :: as, b :: bs => same a b && sameItems as bs
  | _, _ => false

/-- Equality of the fields of two objects. -/
def sameFields : List (String × Json) → List (String × Json) → Bool
  | [], [] => true
  | (k, a) :: as, (l, b) :: bs => k == l && same a b && sameFields as bs
  | _, _ => false

end

end Json

end SceneFlow
