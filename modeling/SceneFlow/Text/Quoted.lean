import SceneFlow.Text.Hex
import SceneFlow.Text.Printable

/-!
# Texts quoted in messages

A text from a document that a message repeats stands between double quotes. The quote, the
backslash and the common control characters have an escape of two characters; what the page would
not show is written by its code point in braces.
-/

namespace SceneFlow.Text

/-- What a character is written as in a quotation. -/
def quotedChar (c : Char) : List Char :=
  if c = '"' then ['\\', '"']
  else if c = '\\' then ['\\', '\\']
  else if c = '\t' then ['\\', 't']
  else if c = '\r' then ['\\', 'r']
  else if c = '\n' then ['\\', 'n']
  else if c.toNat = 0 then ['\\', '0']
  else if isShown c then [c]
  else ['\\', 'u', '\x7b'] ++ hexNumeral c.toNat ++ ['\x7d']

/-- A text between quotes, fit for a message. -/
def quotation (s : String) : String :=
  String.ofList ('"' :: (s.toList.flatMap quotedChar ++ ['"']))

end SceneFlow.Text
