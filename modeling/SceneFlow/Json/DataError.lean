import SceneFlow.Json.Printer
import SceneFlow.Text.Quoted

/-!
# Why a value does not fit

A value that is well-formed JSON may still not be what the reader of a document wants at that
place. `DataError` lists the ways in which it can fail to be, and `DataError.message` words them.
-/

namespace SceneFlow

/-- What stands where something else was wanted. -/
inductive Found where
  /-- The null value. -/
  | null
  /-- A truth value. -/
  | bool (value : Bool)
  /-- A number. -/
  | number (value : Number)
  /-- A text. -/
  | text (value : String)
  /-- A list. -/
  | list
  /-- An object. -/
  | object

/-- What a value is called when it is not wanted. -/
def Json.found : Json → Found
  | .null => .null
  | .bool b => .bool b
  | .num n => .number n
  | .str s => .text s
  | .arr _ => .list
  | .obj _ => .object

/-- What is wanted of a value. -/
inductive Wanted where
  /-- A text. -/
  | text
  /-- A number, read as a double. -/
  | double
  /-- A natural number of 32 bits. -/
  | word
  /-- A truth value. -/
  | bool
  /-- A list. -/
  | list
  /-- An object with any keys. -/
  | table
  /-- A record of the given name. -/
  | record (name : String)
  /-- One of a set of names. -/
  | choice
  /-- Nothing but null. -/
  | nothing
deriving DecidableEq

/-- Why a value does not fit its place in a document. -/
inductive DataError where
  /-- A value of another kind. -/
  | mismatch (found : Found) (wanted : Wanted)
  /-- An integer outside the range of natural numbers of 32 bits. -/
  | outOfRange (value : Int)
  /-- A choice written as an object that has not exactly one key. -/
  | notSingle
  /-- A name that is none of those to choose from. -/
  | unknownChoice (name : String) (choices : List String)
  /-- A required field is not there. -/
  | missing (field : String)
  /-- A field is there twice. -/
  | repeated (field : String)
  /-- A record written as a list ends after `length` items, before a required field. -/
  | tooShort (length : Nat) (record : String) (fields : Nat)
  /-- A record written as a list has `length` items, more than the record has fields. -/
  | tooLong (length : Nat)
  /-- The value fits none of the forms of a type. -/
  | noForm (type : String)

namespace Found

/-- How a message names what it found. -/
def phrase : Found → String
  | .null => "null"
  | .bool b => "boolean `" ++ (if b then "true" else "false") ++ "`"
  | .number (.int value fits) => "integer `" ++ (Number.int value fits).text ++ "`"
  | .number (.real value finite) => "floating point `" ++ (Number.real value finite).text ++ "`"
  | .text s => "string " ++ Text.quotation s
  | .list => "sequence"
  | .object => "map"

end Found

namespace Wanted

/-- How a message names what it wanted. -/
def phrase : Wanted → String
  | .text => "a string"
  | .double => "f64"
  | .word => "u32"
  | .bool => "a boolean"
  | .list => "a sequence"
  | .table => "a map"
  | .record name => "struct " ++ name
  | .choice => "string or map"
  | .nothing => "unit"

end Wanted

namespace DataError

/-- The names to choose from, as a message lists them. -/
def choicesText (choices : List String) : String :=
  let ticked := choices.map fun name => "`" ++ name ++ "`"
  match ticked with
  | [] => "nothing"
  | [only] => only
  | [first, second] => first ++ " or " ++ second
  | many => "one of " ++ ", ".intercalate many

/-- The wording of an error. -/
def message : DataError → String
  | .mismatch found wanted => "invalid type: " ++ found.phrase ++ ", expected " ++ wanted.phrase
  | .outOfRange value => "invalid value: integer `" ++ toString value ++ "`, expected u32"
  | .notSingle => "invalid value: map, expected map with a single key"
  | .unknownChoice name choices =>
    "unknown variant `" ++ name ++ "`, expected " ++ choicesText choices
  | .missing field => "missing field `" ++ field ++ "`"
  | .repeated field => "duplicate field `" ++ field ++ "`"
  | .tooShort length record fields =>
    "invalid length " ++ toString length ++ ", expected struct " ++ record ++ " with "
      ++ toString fields ++ (if fields = 1 then " element" else " elements")
  | .tooLong length =>
    "invalid length " ++ toString length ++ ", expected fewer elements in array"
  | .noForm type => "data did not match any variant of untagged enum " ++ type

end DataError

end SceneFlow
