import SceneFlow.Decimal.Style
import SceneFlow.Json.Basic
import SceneFlow.Text.Hex

/-!
# JSON text

A value on one line without spaces, or indented by two spaces a level. Fields are written in the
order in which the object lists them.
-/

namespace SceneFlow

namespace Json

/-- Doubles in JSON text: without an exponent when the leading digit stands between the fifth
decimal and the sixteenth place before the point. -/
def numberStyle : Decimal.Style where
  isPlain place := decide (-5 ≤ place ∧ place < 16)
  pointZero := true
  tie := .toEven
  infinity := "null"
  negativeInfinity := "null"
  notANumber := "null"

/-- What a character of a text is written as between the quotes. -/
def escaped (c : Char) : List Char :=
  if c = '"' then ['\\', '"']
  else if c = '\\' then ['\\', '\\']
  else if 32 ≤ c.toNat then [c]
  else if c = '\n' then ['\\', 'n']
  else if c = '\t' then ['\\', 't']
  else if c = '\r' then ['\\', 'r']
  else if c.toNat = 8 then ['\\', 'b']
  else if c.toNat = 12 then ['\\', 'f']
  else '\\' :: 'u' :: Text.hexDigits 4 c.toNat

/-- A text between quotes. -/
def quoted (s : String) : String :=
  String.ofList ('"' :: (s.toList.flatMap escaped ++ ['"']))

end Json

/-- A number in JSON text. -/
def Number.text : Number → String
  | .int value _ => toString value
  | .real value _ => Json.numberStyle.render value

namespace Json

/-! ### One line

The text of a value is written behind the text `out` that stands before it. -/

mutual

/-- Write a value on one line. -/
def writeCompact (out : String) : Json → String
  | .null => out ++ "null"
  | .bool b => out ++ (if b then "true" else "false")
  | .num n => out ++ n.text
  | .str s => out ++ quoted s
  | .arr [] => out ++ "[]"
  | .arr (item :: rest) => writeCompactItems (writeCompact (out ++ "[") item) rest
  | .obj [] => out ++ "\x7b\x7d"
  | .obj ((key, value) :: rest) =>
    writeCompactFields (writeCompact (out ++ "\x7b" ++ quoted key ++ ":") value) rest

/-- Write the items of a list behind its first, and the closing bracket. -/
def writeCompactItems (out : String) : List Json → String
  | [] => out ++ "]"
  | item :: rest => writeCompactItems (writeCompact (out ++ ",") item) rest

/-- Write the fields of an object behind its first, and the closing brace. -/
def writeCompactFields (out : String) : List (String × Json) → String
  | [] => out ++ "\x7d"
  | (key, value) :: rest =>
    writeCompactFields (writeCompact (out ++ "," ++ quoted key ++ ":") value) rest

end

/-- The text of a value on one line. -/
def compact (value : Json) : String :=
  writeCompact "" value

/-! ### Several lines -/

/-- A new line, indented by two spaces a level. -/
def newLine (level : Nat) : String :=
  String.ofList ('\n' :: List.replicate (2 * level) ' ')

mutual

/-- Write a value over several lines, as the part of a text that is indented by `level`. -/
def writeIndented (level : Nat) (out : String) : Json → String
  | .null => out ++ "null"
  | .bool b => out ++ (if b then "true" else "false")
  | .num n => out ++ n.text
  | .str s => out ++ quoted s
  | .arr [] => out ++ "[]"
  | .arr (item :: rest) =>
    let out := out ++ "[" ++ newLine (level + 1)
    writeIndentedItems level (writeIndented (level + 1) out item) rest
  | .obj [] => out ++ "\x7b\x7d"
  | .obj ((key, value) :: rest) =>
    let out := out ++ "\x7b" ++ newLine (level + 1) ++ quoted key ++ ": "
    writeIndentedFields level (writeIndented (level + 1) out value) rest

/-- Write the items of an indented list behind its first, and the closing bracket. -/
def writeIndentedItems (level : Nat) (out : String) : List Json → String
  | [] => out ++ newLine level ++ "]"
  | item :: rest =>
    let out := out ++ "," ++ newLine (level + 1)
    writeIndentedItems level (writeIndented (level + 1) out item) rest

/-- Write the fields of an indented object behind its first, and the closing brace. -/
def writeIndentedFields (level : Nat) (out : String) : List (String × Json) → String
  | [] => out ++ newLine level ++ "\x7d"
  | (key, value) :: rest =>
    let out := out ++ "," ++ newLine (level + 1) ++ quoted key ++ ": "
    writeIndentedFields level (writeIndented (level + 1) out value) rest

end

/-- The text of a value over several lines, indented by two spaces a level. -/
def pretty (value : Json) : String :=
  writeIndented 0 "" value

end Json

end SceneFlow
