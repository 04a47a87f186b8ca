import SceneFlow.Json.DataError

/-!
# Reading values

A `Decoder` turns a JSON value into a value of a type of this library or says why it does not fit.
Records are read from objects by the names of their fields and from lists by the order in which
the fields are declared; of several faults in one record the one that stands first is reported,
and a field that is missing stands behind all that are there.
-/

namespace SceneFlow

/-- A reader of values. -/
abbrev Decoder (α : Type) := Json → Except DataError α

namespace Decoder

variable {α β : Type}

/-- The error that a value is not of the kind wanted. -/
def mismatch (value : Json) (wanted : Wanted) : Except DataError α :=
  .error (.mismatch value.found wanted)

/-- Any value. -/
def any : Decoder Json :=
  .ok

/-- A text. -/
def text : Decoder String
  | .str s => .ok s
  | value => mismatch value .text

/-- A number of either kind, as a double. -/
def double : Decoder Float
  | .num n => .ok n.toFloat
  | value => mismatch value .double

/-- A natural number of 32 bits, written as an integer. -/
def word : Decoder UInt32
  | .num (.int value _) =>
    if 0 ≤ value ∧ value < 0x100000000 then .ok value.toNat.toUInt32 else .error (.outOfRange value)
  | value => mismatch value .word

/-- A truth value. -/
def bool : Decoder Bool
  | .bool b => .ok b
  | value => mismatch value .bool

/-- An object as it is. -/
def object : Decoder (Entries Json)
  | .obj fields => .ok fields
  | value => mismatch value .table

/-- A value of the given form, or null. -/
def nullable (decode : Decoder α) : Decoder (Option α)
  | .null => .ok none
  | value => (decode value).map some

/-- Read the items of a list from first to last. -/
def items (decode : Decoder α) : List Json → Except DataError (List α)
  | [] => .ok []
  | value :: rest => do
    let a ← decode value
    let as ← items decode rest
    .ok (a :: as)

/-- A list of values of one form. -/
def list (decode : Decoder α) : Decoder (List α)
  | .arr values => items decode values
  | value => mismatch value .list

/-- Read the values of an object from first to last. -/
def values (decode : Decoder α) : List (String × Json) → Except DataError (List (String × α))
  | [] => .ok []
  | (key, value) :: rest => do
    let a ← decode value
    let as ← values decode rest
    .ok ((key, a) :: as)

/-- An object with any keys and values of one form. -/
def table (decode : Decoder α) : Decoder (Table α)
  | .obj fields => (values decode fields).map Table.ofList
  | value => mismatch value .table

/-- One of the given names, as a text or as the only key of an object with the value null. -/
def choice (choices : List (String × α)) : Decoder α
  | .str name => chosen name
  | .obj [(name, value)] => do
    let a ← chosen name
    match value with
    | .null => .ok a
    | other => mismatch other .nothing
  | .obj _ => .error .notSingle
  | value => mismatch value .choice
where
  chosen (name : String) : Except DataError α :=
    match Entries.get? choices name with
    | some a => .ok a
    | none => .error (.unknownChoice name (Entries.keys choices))

/-- The first of several forms that an object fits; which of them it is, is not written. -/
def firstOf (type : String) (forms : List (Decoder α)) : Decoder α := fun value =>
  let fitting :=
    match value with
    | .obj _ => forms.findSome? fun form => (form value).toOption
    | _ => none
  match fitting with
  | some a => .ok a
  | none => .error (.noForm type)

/-! ### Records -/

/-- What a record is read from. -/
inductive Parts where
  /-- Named fields. -/
  | fields (entries : List (String × Json))
  /-- Fields in the order of their declaration. -/
  | items (values : List Json)

/-- An error and the place at which it stands in the record. -/
structure Fault where
  /-- The place. -/
  position : Nat
  /-- The error. -/
  cause : DataError

/-- The record that fields belong to. -/
structure RecordName where
  /-- What messages call it. -/
  name : String
  /-- The number of its fields. -/
  size : Nat

/-- A reader of some of the fields of a record, the first of which is declared at an index. -/
structure Fields (α : Type) where
  /-- How many fields are read. -/
  count : Nat
  /-- Read them. -/
  read : RecordName → (index : Nat) → Parts → Except Fault α

namespace Fields

/-- Both results, or the fault that stands first. -/
def both (first : Except Fault (α → β)) (second : Except Fault α) : Except Fault β :=
  match first, second with
  | .ok f, .ok a => .ok (f a)
  | .error e, .ok _ => .error e
  | .ok _, .error e => .error e
  | .error e, .error e' => .error (if e'.position < e.position then e' else e)

instance : Applicative Fields where
  pure a := ⟨0, fun _ _ _ => .ok a⟩
  seq f x :=
    ⟨f.count + (x ()).count, fun record index parts =>
      both (f.read record index parts) ((x ()).read record (index + f.count) parts)⟩

/-- The place and the value of a field among named ones. -/
def locate (name : String) (position : Nat) : List (String × Json) → Option (Nat × Json)
  | [] => none
  | (key, value) :: rest =>
    if key = name then some (position, value) else locate name (position + 1) rest

/-- An error of a value at a place. -/
def placed (position : Nat) (result : Except DataError α) : Except Fault α :=
  result.mapError (⟨position, ·⟩)

/-- One field. What an absent field stands for, if it may be absent, is given as `absent`. -/
def field (name : String) (decode : Decoder α) (absent : Option α) : Fields α where
  count := 1
  read record index
    | .fields entries =>
      match locate name 0 entries, absent with
      | some (position, value), _ => placed position (decode value)
      | none, some a => .ok a
      | none, none => .error ⟨entries.length + index, .missing name⟩
    | .items values =>
      match values[index]?, absent with
      | some value, _ => placed index (decode value)
      | none, some a => .ok a
      | none, none => .error ⟨index, .tooShort index record.name record.size⟩

/-- A field that must be there. -/
def required (name : String) (decode : Decoder α) : Fields α :=
  field name decode none

/-- A field that may be absent, and what it stands for then. -/
def defaulted (name : String) (decode : Decoder α) (absent : α) : Fields α :=
  field name decode (some absent)

/-- A field that may be absent or null. -/
def optional (name : String) (decode : Decoder α) : Fields (Option α) :=
  defaulted name (nullable decode) none

end Fields

/-- A record with the given fields. Keys that name no field are passed over; a list may not have
more items than the record has fields. -/
def record (name : String) (fields : Fields α) : Decoder α
  | .obj entries => (fields.read ⟨name, fields.count⟩ 0 (.fields entries)).mapError Fault.cause
  | .arr values => do
    let a ← (fields.read ⟨name, fields.count⟩ 0 (.items values)).mapError Fault.cause
    if fields.count < values.length then .error (.tooLong values.length) else .ok a
  | value => mismatch value (.record name)

end Decoder

end SceneFlow
