import SceneFlow.Text.Blank
import SceneFlow.Text.Hex

/-!
# Colours

A colour is written `#RRGGBB` or `#RRGGBBAA`. The reader takes white space at the ends, a missing
`#` and digits of either case; a pair of digits may have a plus sign in place of the first one. The
writer uses lower case and leaves out the last pair of an opaque colour.
-/

namespace SceneFlow

/-- A colour with straight alpha, eight bits a channel. -/
structure Color where
  /-- The red channel. -/
  red : UInt8
  /-- The green channel. -/
  green : UInt8
  /-- The blue channel. -/
  blue : UInt8
  /-- The alpha channel, 255 when opaque. -/
  alpha : UInt8
deriving DecidableEq, Repr

/-- Why a text is no colour. -/
inductive ColorError where
  /-- A character beyond ASCII. -/
  | notAscii
  /-- Neither six nor eight characters. -/
  | badLength
  /-- Two characters that are no number of two hexadecimal digits. -/
  | badPair (first second : Char)
deriving DecidableEq

/-- The wording of an error. -/
def ColorError.message : ColorError → String
  | .notAscii => "hex color must be ASCII"
  | .badLength => "hex color must be #RRGGBB or #RRGGBBAA (case-insensitive)"
  | .badPair first second => "invalid hex byte \"" ++ String.ofList [first, second] ++ "\""

namespace Color

/-- The byte that two characters write: two hexadecimal digits, or one behind a plus sign. -/
def readPair (first second : Char) : Except ColorError UInt8 :=
  let high := if first = '+' then some 0 else Text.hexValue? first
  match high, Text.hexValue? second with
  | some high, some low => .ok (high * 16 + low).toUInt8
  | _, _ => .error (.badPair first second)

/-- A text without white space at its ends and without one `#` before the digits. -/
def digitsOf (text : String) : List Char :=
  match Text.trim text.toList with
  | '#' :: rest => rest
  | digits => digits

/-- Read a colour. -/
def parse (text : String) : Except ColorError Color :=
  let digits := digitsOf text
  if !digits.all fun c => c.toNat < 128 then .error .notAscii
  else
    match digits with
    | [r, r', g, g', b, b'] => do
      .ok ⟨← readPair r r', ← readPair g g', ← readPair b b', 255⟩
    | [r, r', g, g', b, b', a, a'] => do
      .ok ⟨← readPair r r', ← readPair g g', ← readPair b b', ← readPair a a'⟩
    | _ => .error .badLength

/-- Two lower-case hexadecimal digits. -/
def pairText (byte : UInt8) : List Char :=
  Text.hexDigits 2 byte.toNat

/-- The colour as it is written. -/
def text (c : Color) : String :=
  let opaqueText := '#' :: pairText c.red ++ pairText c.green ++ pairText c.blue
  String.ofList (if c.alpha = 255 then opaqueText else opaqueText ++ pairText c.alpha)

end Color

end SceneFlow
