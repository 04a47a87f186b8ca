import SceneFlow.Decimal.Reading
import SceneFlow.Json.Basic
import SceneFlow.Text.Hex

/-!
# The tokens of JSON text

Texts, numbers and the three words of JSON text, each read from the front of a list of characters,
and the ways in which text can fail to be JSON. The functions named `skip…` pass over a token
whose value nobody wants: they ask less of it, since half a surrogate pair and a number beyond the
largest double do no harm there.
-/

namespace SceneFlow.Json

/-- Why a text is not JSON. -/
inductive SyntaxError where
  /-- The text ends inside a list. -/
  | endInList
  /-- The text ends inside an object. -/
  | endInObject
  /-- The text ends inside a quoted text. -/
  | endInText
  /-- The text ends where a value has to stand or inside one. -/
  | endInValue
  /-- A key is not followed by a colon. -/
  | noColon
  /-- An item of a list is followed neither by a comma nor by the end of the list. -/
  | noListSeparator
  /-- A field of an object is followed neither by a comma nor by the end of the object. -/
  | noFieldSeparator
  /-- A word other than `true`, `false` and `null`. -/
  | badWord
  /-- No value starts here. -/
  | noValue
  /-- An escape that does not exist. -/
  | badEscape
  /-- A number that breaks the rules for numbers. -/
  | badNumber
  /-- A number beyond the largest double. -/
  | numberTooLarge
  /-- A control character inside a quoted text. -/
  | controlCharacter
  /-- The key of a field is not a quoted text. -/
  | badKey
  /-- Half a surrogate pair. -/
  | loneSurrogate
  /-- The first half of a surrogate pair without the second. -/
  | brokenSurrogates
  /-- A comma before the end of a list or an object. -/
  | trailingComma
  /-- More text behind the value. -/
  | trailingCharacters
  /-- Lists and objects inside one another beyond the limit. -/
  | tooDeep
deriving DecidableEq, Repr

/-- The wording of an error. -/
def SyntaxError.message : SyntaxError → String
  | .endInList => "EOF while parsing a list"
  | .endInObject => "EOF while parsing an object"
  | .endInText => "EOF while parsing a string"
  | .endInValue => "EOF while parsing a value"
  | .noColon => "expected `:`"
  | .noListSeparator => "expected `,` or `]`"
  | .noFieldSeparator => "expected `,` or `\x7d`"
  | .badWord => "expected ident"
  | .noValue => "expected value"
  | .badEscape => "invalid escape"
  | .badNumber => "invalid number"
  | .numberTooLarge => "number out of range"
  | .controlCharacter => "control character (\\u0000-\\u001F) found while parsing a string"
  | .badKey => "key must be a string"
  | .loneSurrogate => "lone leading surrogate in hex escape"
  | .brokenSurrogates => "unexpected end of hex escape"
  | .trailingComma => "trailing comma"
  | .trailingCharacters => "trailing characters"
  | .tooDeep => "recursion limit exceeded"

/-- Whether a character may stand between tokens. -/
def isSpace (c : Char) : Bool :=
  c = ' ' || c = '\n' || c = '\t' || c = '\r'

/-- A text without the space at its front. -/
def skipSpace (cs : List Char) : List Char :=
  cs.dropWhile isSpace

/-- Read the rest of a word. -/
def scanWord : (word : List Char) → List Char → Except SyntaxError (List Char)
  | [], rest => .ok rest
  | _ :: _, [] => .error .endInValue
  | w :: word, c :: rest => if c = w then scanWord word rest else .error .badWord

/-! ### Quoted texts -/

/-- Read the four hexadecimal digits of an escape. -/
def scanUnit (cs : List Char) : Except SyntaxError (Nat × List Char) :=
  match cs.take 4 with
  | [a, b, c, d] =>
    match Text.hexValue? a, Text.hexValue? b, Text.hexValue? c, Text.hexValue? d with
    | some a, some b, some c, some d => .ok (((a * 16 + b) * 16 + c) * 16 + d, cs.drop 4)
    | _, _, _, _ => .error .badEscape
  | short =>
    if (String.ofList short).utf8ByteSize < 4 then .error .endInText else .error .badEscape

/-- Read the digits of a `u` escape, and those of the second one if the first is the front half of
a surrogate pair. -/
def scanCodePoint (cs : List Char) : Except SyntaxError (Char × List Char) := do
  let (high, rest) ← scanUnit cs
  if 0xDC00 ≤ high ∧ high ≤ 0xDFFF then .error .loneSurrogate
  else if high < 0xD800 ∨ 0xDBFF < high then .ok (Char.ofNat high, rest)
  else
    match rest with
    | [] => .error .endInText
    | ['\\'] => .error .endInText
    | '\\' :: 'u' :: rest =>
      let (low, rest) ← scanUnit rest
      if low < 0xDC00 ∨ 0xDFFF < low then .error .loneSurrogate
      else .ok (Char.ofNat (0x10000 + (high - 0xD800) * 0x400 + (low - 0xDC00)), rest)
    | _ => .error .brokenSurrogates

/-- The character that an escape of one letter stands for. -/
def shortEscape? : Char → Option Char
  | '"' => some '"'
  | '\\' => some '\\'
  | '/' => some '/'
  | 'b' => some (Char.ofNat 8)
  | 'f' => some (Char.ofNat 12)
  | 'n' => some '\n'
  | 'r' => some '\r'
  | 't' => some '\t'
  | _ => none

/-- Read an escape behind its backslash. -/
def scanEscape : List Char → Except SyntaxError (Char × List Char)
  | [] => .error .endInText
  | 'u' :: rest => scanCodePoint rest
  | c :: rest =>
    match shortEscape? c with
    | some c => .ok (c, rest)
    | none => .error .badEscape

/-- Read a text behind its opening quote. The characters read so far are given last first; `fuel`
bounds the number of characters. -/
def scanText : (fuel : Nat) → (read : List Char) → List Char →
    Except SyntaxError (String × List Char)
  | 0, _, _ => .error .endInText
  | _ + 1, _, [] => .error .endInText
  | _ + 1, read, '"' :: rest => .ok (String.ofList read.reverse, rest)
  | fuel + 1, read, '\\' :: rest => do
    let (c, rest) ← scanEscape rest
    scanText fuel (c :: read) rest
  | fuel + 1, read, c :: rest =>
    if c.toNat < 32 then .error .controlCharacter else scanText fuel (c :: read) rest

/-- Pass over an escape behind its backslash. -/
def skipEscape : List Char → Except SyntaxError (List Char)
  | [] => .error .endInText
  | 'u' :: rest => (scanUnit rest).map Prod.snd
  | c :: rest => if (shortEscape? c).isSome then .ok rest else .error .badEscape

/-- Pass over a text behind its opening quote. -/
def skipText : (fuel : Nat) → List Char → Except SyntaxError (List Char)
  | 0, _ => .error .endInText
  | _ + 1, [] => .error .endInText
  | _ + 1, '"' :: rest => .ok rest
  | fuel + 1, '\\' :: rest => do skipText fuel (← skipEscape rest)
  | fuel + 1, c :: rest =>
    if c.toNat < 32 then .error .controlCharacter else skipText fuel rest

/-! ### Numbers -/

/-- Whether a character is a decimal digit. -/
def isDigit (c : Char) : Bool :=
  '0' ≤ c && c ≤ '9'

/-- The parts of a number as they are written. -/
structure Numeral where
  /-- The digits before the point. -/
  whole : List Char
  /-- The digits behind the point, if there is one. -/
  fraction : Option (List Char)
  /-- Whether the exponent is negative, and its digits, if there is one. -/
  exponent : Option (Bool × List Char)

/-- Read a run of digits that may not be empty. What an empty run is at the end of the text is
given as `atEnd`. -/
def scanDigits (atEnd : SyntaxError) (cs : List Char) :
    Except SyntaxError (List Char × List Char) :=
  match cs.takeWhile isDigit with
  | [] => .error (if cs.isEmpty then atEnd else .badNumber)
  | digits => .ok (digits, cs.dropWhile isDigit)

/-- Read the parts of a number behind its sign. -/
def scanNumeral (atEnd : SyntaxError) (cs : List Char) :
    Except SyntaxError (Numeral × List Char) := do
  let (whole, rest) ← scanDigits atEnd cs
  if whole.head? = some '0' ∧ whole.length ≠ 1 then .error .badNumber
  else
    let (fraction, rest) ←
      match rest with
      | '.' :: rest => do
        let (digits, rest) ← scanDigits atEnd rest
        Except.ok (some digits, rest)
      | rest => .ok (none, rest)
    let (exponent, rest) ←
      match rest with
      | c :: rest =>
        if c = 'e' ∨ c = 'E' then do
          let (negative, digitsFrom) :=
            match rest with
            | '+' :: rest => (false, rest)
            | '-' :: rest => (true, rest)
            | rest => (false, rest)
          let (digits, rest) ← scanDigits atEnd digitsFrom
          Except.ok (some (negative, digits), rest)
        else .ok (none, c :: rest)
      | [] => .ok (none, [])
    .ok (⟨whole, fraction, exponent⟩, rest)

/-- The double that a numeral stands for. -/
def Numeral.toFloat? (numeral : Numeral) (negative : Bool) : Option Float :=
  let s := Decimal.Significand.ofDigits numeral.whole (numeral.fraction.getD [])
  let s :=
    match numeral.exponent with
    | none => s
    | some (false, digits) => { s with exponent := s.exponent + Decimal.ofDigitChars digits }
    | some (true, digits) => { s with exponent := s.exponent - Decimal.ofDigitChars digits }
  s.toFloat?.map fun x => if negative then -x else x

/-- The number that a numeral stands for: an integer if it has neither point nor exponent and fits
64 bits, signed or unsigned; a double otherwise, and for zero with a sign. -/
def Numeral.toNumber? (numeral : Numeral) (negative : Bool) : Option Number :=
  let n : Int := Decimal.ofDigitChars numeral.whole
  let value := if negative then -n else n
  if h : -0x8000000000000000 ≤ value ∧ value < 0x10000000000000000 then
    if numeral.fraction.isNone && numeral.exponent.isNone && !(negative && n == 0) then
      some (.int value h)
    else real
  else real
where
  /-- The number as a double. -/
  real : Option Number := do
    let x ← numeral.toFloat? negative
    if h : x.isFinite = true then some (.real x h) else none

/-- Read a number from its first character, a sign or a digit. -/
def scanNumber (cs : List Char) : Except SyntaxError (Number × List Char) := do
  let (negative, digits) :=
    match cs with
    | '-' :: rest => (true, rest)
    | cs => (false, cs)
  let (numeral, rest) ← scanNumeral .endInValue digits
  match numeral.toNumber? negative with
  | some n => .ok (n, rest)
  | none => .error .numberTooLarge

/-- Pass over a number. -/
def skipNumber (cs : List Char) : Except SyntaxError (List Char) :=
  let digits :=
    match cs with
    | '-' :: rest => rest
    | cs => cs
  (scanNumeral .badNumber digits).map Prod.snd

end SceneFlow.Json
