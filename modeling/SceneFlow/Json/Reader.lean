import SceneFlow.Json.DataError
import SceneFlow.Json.Scanner

/-!
# Reading JSON text against a shape

A text is read against a `Shape`, an outline of the document that it should hold, so that the
first thing wrong in the order of the text is what is reported, be it the syntax or a value that
does not belong there. What is read is a JSON value in canonical form: keys ascend, a record is an
object whether it was written as one or as a list, and fields that the shape does not know are
gone. Of two fields with one key the later counts, except that no record may repeat a field.

Lists and objects may lie inside one another up to `depthLimit` deep; values that are passed over
have no such limit.
-/

namespace SceneFlow.Json

/-- What a document should hold at some place. -/
inductive Shape where
  /-- Any value. -/
  | any
  /-- A text. -/
  | text
  /-- A list of values of one shape. -/
  | list (item : Shape)
  /-- An object with any keys and values of one shape. -/
  | table (value : Shape)
  /-- A record with a name and the fields in the order of their declaration: for each its name,
  whether it must be there, and its shape. -/
  | record (name : String) (fields : List (String × Bool × Shape))

/-- Why a text does not hold the document that was wanted. -/
inductive ReadError where
  /-- The text is not JSON. -/
  | malformed (error : SyntaxError)
  /-- A value does not fit its place. -/
  | unfit (error : DataError)

/-- The wording of an error. -/
def ReadError.message : ReadError → String
  | .malformed error => error.message
  | .unfit error => error.message

/-- How deep lists and objects may lie inside one another. -/
def depthLimit : Nat :=
  127

/-- The result of a scan as the result of a reading. -/
def scanned {α : Type} (result : Except SyntaxError α) : Except ReadError α :=
  result.mapError .malformed

/-- Read a value that is neither a list nor an object. -/
def scanScalar (limit : Nat) : List Char → Except SyntaxError (Json × List Char)
  | [] => .error .endInValue
  | 'n' :: rest => (scanWord ['u', 'l', 'l'] rest).map fun rest => (.null, rest)
  | 't' :: rest => (scanWord ['r', 'u', 'e'] rest).map fun rest => (.bool true, rest)
  | 'f' :: rest => (scanWord ['a', 'l', 's', 'e'] rest).map fun rest => (.bool false, rest)
  | '"' :: rest => (scanText limit [] rest).map fun (s, rest) => (.str s, rest)
  | c :: rest =>
    if c = '-' || isDigit c then (scanNumber (c :: rest)).map fun (n, rest) => (.num n, rest)
    else .error .noValue

/-- The error that the value at the front of the text is not of the kind wanted. -/
def unwanted {α : Type} (limit : Nat) (wanted : Wanted) (cs : List Char) : Except ReadError α := do
  let found ←
    match cs with
    | '[' :: _ => Except.ok Found.list
    | '\x7b' :: _ => .ok .object
    | cs => do
      let (value, _) ← scanned (scanScalar limit cs)
      Except.ok value.found
  .error (.unfit (.mismatch found wanted))

/-! ### Between items and fields -/

/-- Whether another item of a list follows: the text from the item on, or from behind the end of
the list. -/
def nextItem (first : Bool) (cs : List Char) : Except SyntaxError (Bool × List Char) :=
  match skipSpace cs with
  | [] => .error .endInList
  | ']' :: rest => .ok (false, rest)
  | ',' :: rest =>
    if first then .ok (true, ',' :: rest)
    else
      match skipSpace rest with
      | [] => .error .endInValue
      | ']' :: _ => .error .trailingComma
      | rest => .ok (true, rest)
  | rest => if first then .ok (true, rest) else .error .noListSeparator

/-- Read the end of a list all of whose items are read. -/
def endOfList (cs : List Char) : Except SyntaxError (List Char) :=
  match skipSpace cs with
  | [] => .error .endInList
  | ']' :: rest => .ok rest
  | ',' :: rest =>
    match skipSpace rest with
    | ']' :: _ => .error .trailingComma
    | _ => .error .trailingCharacters
  | _ => .error .trailingCharacters

/-- Whether another field of an object follows: the text from behind the quote that opens its key,
or from behind the end of the object. -/
def nextKey (first : Bool) (cs : List Char) : Except SyntaxError (Bool × List Char) :=
  match skipSpace cs with
  | [] => .error .endInObject
  | '\x7d' :: rest => .ok (false, rest)
  | '"' :: rest => if first then .ok (true, rest) else .error .noFieldSeparator
  | ',' :: rest =>
    if first then .error .badKey
    else
      match skipSpace rest with
      | [] => .error .endInValue
      | '"' :: rest => .ok (true, rest)
      | '\x7d' :: _ => .error .trailingComma
      | _ => .error .badKey
  | _ => .error (if first then .badKey else .noFieldSeparator)

/-- Read the colon behind a key. -/
def scanColon (cs : List Char) : Except SyntaxError (List Char) :=
  match skipSpace cs with
  | [] => .error .endInObject
  | ':' :: rest => .ok rest
  | _ => .error .noColon

/-! ### Values that nobody wants -/

mutual

/-- Pass over a value. -/
def skipValue (limit : Nat) : (fuel : Nat) → List Char → Except SyntaxError (List Char)
  | 0, _ => .error .tooDeep
  | fuel + 1, cs =>
    match skipSpace cs with
    | [] => .error .endInValue
    | 'n' :: rest => scanWord ['u', 'l', 'l'] rest
    | 't' :: rest => scanWord ['r', 'u', 'e'] rest
    | 'f' :: rest => scanWord ['a', 'l', 's', 'e'] rest
    | '"' :: rest => skipText limit rest
    | '[' :: rest =>
      match skipSpace rest with
      | [] => .error .endInList
      | ']' :: rest => .ok rest
      | rest => skipItems limit fuel rest
    | '\x7b' :: rest =>
      match skipSpace rest with
      | [] => .error .endInObject
      | '\x7d' :: rest => .ok rest
      | rest => skipFields limit fuel rest
    | c :: rest =>
      if c = '-' || isDigit c then skipNumber (c :: rest) else .error .noValue

/-- Pass over the items of a list and its end. -/
def skipItems (limit : Nat) : (fuel : Nat) → List Char → Except SyntaxError (List Char)
  | 0, _ => .error .tooDeep
  | fuel + 1, cs => do
    let rest ← skipValue limit fuel cs
    match skipSpace rest with
    | [] => .error .endInList
    | ']' :: rest => .ok rest
    | ',' :: rest => skipItems limit fuel rest
    | _ => .error .noListSeparator

/-- Pass over the fields of an object and its end. -/
def skipFields (limit : Nat) : (fuel : Nat) → List Char → Except SyntaxError (List Char)
  | 0, _ => .error .tooDeep
  | fuel + 1, cs =>
    match skipSpace cs with
    | [] => .error .endInObject
    | '"' :: rest => do
      let rest ← skipText limit rest
      let rest ← scanColon rest
      let rest ← skipValue limit fuel rest
      match skipSpace rest with
      | [] => .error .endInObject
      | '\x7d' :: rest => .ok rest
      | ',' :: rest => skipFields limit fuel rest
      | _ => .error .noFieldSeparator
    | _ => .error .badKey

end

/-! ### Values that are wanted -/

mutual

/-- Read a value of a shape. `limit` exceeds the length of the text, `room` counts the lists and
objects that may still be entered, and `fuel` bounds the steps. -/
def readValue (limit : Nat) :
    (fuel room : Nat) → Shape → List Char → Except ReadError (Json × List Char)
  | 0, _, _, _ => .error (.malformed .tooDeep)
  | fuel + 1, room, shape, cs =>
    match skipSpace cs with
    | [] => .error (.malformed .endInValue)
    | '[' :: rest =>
      match shape, room with
      | .text, _ => .error (.unfit (.mismatch .list .text))
      | .table _, _ => .error (.unfit (.mismatch .list .table))
      | _, 0 => .error (.malformed .tooDeep)
      | .any, room + 1 => do
        let (items, rest) ← readItems limit fuel room .any true rest
        .ok (.arr items, rest)
      | .list item, room + 1 => do
        let (items, rest) ← readItems limit fuel room item true rest
        .ok (.arr items, rest)
      | .record name fields, room + 1 => do
        let (found, rest) ← readPositional limit fuel room name fields.length 0 fields rest
        .ok (.ofFields found, rest)
    | '\x7b' :: rest =>
      match shape, room with
      | .text, _ => .error (.unfit (.mismatch .object .text))
      | .list _, _ => .error (.unfit (.mismatch .object .list))
      | _, 0 => .error (.malformed .tooDeep)
      | .any, room + 1 => do
        let (fields, rest) ← readEntries limit fuel room .any true rest
        .ok (.ofFields fields, rest)
      | .table value, room + 1 => do
        let (fields, rest) ← readEntries limit fuel room value true rest
        .ok (.ofFields fields, rest)
      | .record _ fields, room + 1 => do
        let (found, rest) ← readNamed limit fuel room fields [] true rest
        .ok (.ofFields found, rest)
    | rest =>
      match shape with
      | .any => scanned (scanScalar limit rest)
      | .text =>
        match rest with
        | '"' :: _ => scanned (scanScalar limit rest)
        | rest => unwanted limit .text rest
      | .list _ => unwanted limit .list rest
      | .table _ => unwanted limit .table rest
      | .record name _ => unwanted limit (.record name) rest

/-- Read the items of a list and its end. -/
def readItems (limit : Nat) : (fuel room : Nat) → Shape → (first : Bool) → List Char →
    Except ReadError (List Json × List Char)
  | 0, _, _, _, _ => .error (.malformed .tooDeep)
  | fuel + 1, room, shape, first, cs => do
    let (more, rest) ← scanned (nextItem first cs)
    if more then
      let (item, rest) ← readValue limit fuel room shape rest
      let (items, rest) ← readItems limit fuel room shape false rest
      .ok (item :: items, rest)
    else .ok ([], rest)

/-- Read the fields of an object and its end, in the order of the text. -/
def readEntries (limit : Nat) : (fuel room : Nat) → Shape → (first : Bool) → List Char →
    Except ReadError (List (String × Json) × List Char)
  | 0, _, _, _, _ => .error (.malformed .tooDeep)
  | fuel + 1, room, shape, first, cs => do
    let (more, rest) ← scanned (nextKey first cs)
    if more then
      let (key, rest) ← scanned (scanText limit [] rest)
      let rest ← scanned (scanColon rest)
      let (value, rest) ← readValue limit fuel room shape rest
      let (entries, rest) ← readEntries limit fuel room shape false rest
      .ok ((key, value) :: entries, rest)
    else .ok ([], rest)

/-- Read the fields of a record that is written as a list, from the one at `index` on, and the end
of the list. -/
def readPositional (limit : Nat) : (fuel room : Nat) → (name : String) → (size index : Nat) →
    List (String × Bool × Shape) → List Char → Except ReadError (List (String × Json) × List Char)
  | 0, _, _, _, _, _, _ => .error (.malformed .tooDeep)
  | _ + 1, _, _, _, _, [], cs => do
    let rest ← scanned (endOfList cs)
    .ok ([], rest)
  | fuel + 1, room, name, size, index, (field, needed, shape) :: fields, cs => do
    let (more, rest) ← scanned (nextItem (index == 0) cs)
    if more then
      let (value, rest) ← readValue limit fuel room shape rest
      let (found, rest) ← readPositional limit fuel room name size (index + 1) fields rest
      .ok ((field, value) :: found, rest)
    else
      match ((field, needed, shape) :: fields).findIdx? fun f => f.2.1 with
      | some offset => .error (.unfit (.tooShort (index + offset) name size))
      | none => .ok ([], rest)

/-- Read the fields of a record that is written as an object, and the end of the object. The names
of the fields read so far are given as `seen`. -/
def readNamed (limit : Nat) : (fuel room : Nat) → List (String × Bool × Shape) →
    (seen : List String) → (first : Bool) → List Char →
    Except ReadError (List (String × Json) × List Char)
  | 0, _, _, _, _, _ => .error (.malformed .tooDeep)
  | fuel + 1, room, fields, seen, first, cs => do
    let (more, rest) ← scanned (nextKey first cs)
    if more then
      let (key, rest) ← scanned (scanText limit [] rest)
      match fields.find? fun f => f.1 == key with
      | some (_, _, shape) =>
        if seen.contains key then .error (.unfit (.repeated key))
        else
          let rest ← scanned (scanColon rest)
          let (value, rest) ← readValue limit fuel room shape rest
          let (found, rest) ← readNamed limit fuel room fields (key :: seen) false rest
          .ok ((key, value) :: found, rest)
      | none =>
        let rest ← scanned (scanColon rest)
        let rest ← scanned (skipValue limit fuel rest)
        readNamed limit fuel room fields seen false rest
    else
      match fields.find? fun f => f.2.1 && !seen.contains f.1 with
      | some (field, _, _) => .error (.unfit (.missing field))
      | none => .ok ([], rest)

end

/-- Read a whole text as a document of a shape. -/
def read (shape : Shape) (text : String) : Except ReadError Json := do
  let cs := text.toList
  let limit := cs.length + 1
  let (value, rest) ← readValue limit (2 * limit) depthLimit shape cs
  match skipSpace rest with
  | [] => .ok value
  | _ => .error (.malformed .trailingCharacters)

/-- Read a whole text as a value of any kind. -/
def parse (text : String) : Except ReadError Json :=
  read .any text

end SceneFlow.Json
