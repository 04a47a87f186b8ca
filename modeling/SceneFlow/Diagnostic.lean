import SceneFlow.Identifier

/-!
# Diagnostics

What a user is told about a graph: a stable code, a sentence, how grave it is, and where it helps,
what to do about it and which nodes to look at.
-/

namespace SceneFlow

/-- The stable code of a diagnostic. -/
inductive DiagnosticCode where
  /-- There is no terminal. -/
  | sceneRequired
  /-- There is more than one terminal. -/
  | tooManyScenes
  /-- An object is delivered more than once. -/
  | duplicateObjectIds
  /-- Edges run in a circle. -/
  | circularDependency
  /-- An object passes no insert node on its way. -/
  | missingInsertConnection
  /-- An edge or a binding does not connect what it should. -/
  | invalidConnection
  /-- A node cannot be compiled as it is configured. -/
  | nodeValidationFailed
  /-- The scene exceeds a bound. -/
  | sceneValidationFailed
deriving DecidableEq, Repr

namespace DiagnosticCode

/-- Every code. -/
def all : List DiagnosticCode :=
  [sceneRequired, tooManyScenes, duplicateObjectIds, circularDependency, missingInsertConnection,
    invalidConnection, nodeValidationFailed, sceneValidationFailed]

/-- The name of a code in documents and messages. -/
def name : DiagnosticCode → String
  | sceneRequired => "ErrSceneRequired"
  | tooManyScenes => "ErrTooManyScenes"
  | duplicateObjectIds => "ErrDuplicateObjectIds"
  | circularDependency => "ErrCircularDependency"
  | missingInsertConnection => "ErrMissingInsertConnection"
  | invalidConnection => "ErrInvalidConnection"
  | nodeValidationFailed => "ErrNodeValidationFailed"
  | sceneValidationFailed => "ErrSceneValidationFailed"

/-- Read a code. -/
def ofJson : Decoder DiagnosticCode :=
  .choice (all.map fun code => (code.name, code))

/-- The name of a code as a value. -/
def toJson (code : DiagnosticCode) : Json :=
  .str code.name

end DiagnosticCode

/-- How grave a diagnostic is. -/
inductive Severity where
  /-- The scene is compiled all the same. -/
  | warning
  /-- There is no scene. -/
  | error
deriving DecidableEq, Repr

namespace Severity

/-- The name of a severity in documents and messages. -/
def name : Severity → String
  | warning => "warning"
  | error => "error"

/-- Read a severity. -/
def ofJson : Decoder Severity :=
  .choice [("warning", warning), ("error", error)]

/-- The name of a severity as a value. -/
def toJson (severity : Severity) : Json :=
  .str severity.name

end Severity

/-- One message about a graph. -/
structure Diagnostic where
  /-- The stable code. -/
  code : DiagnosticCode
  /-- The sentence. -/
  message : String
  /-- How grave it is. -/
  severity : Severity
  /-- What to do about it. -/
  suggestions : List String
  /-- The nodes to look at. -/
  nodes : List NodeId
deriving DecidableEq, Repr

namespace Diagnostic

/-- Whether the diagnostic stands in the way of a scene. -/
def isError (d : Diagnostic) : Bool :=
  d.severity = .error

/-- Read a diagnostic. -/
def ofJson : Decoder Diagnostic :=
  .record "Diagnostic" <| mk
    <$> .required "code" DiagnosticCode.ofJson
    <*> .required "message" .text
    <*> .required "severity" Severity.ofJson
    <*> .defaulted "suggestions" (.list .text) []
    <*> .defaulted "nodes" (.list NodeId.ofJson) []

/-- A field with a list, unless it is empty. -/
def listField (name : String) (items : List Json) : List (String × Json) :=
  if items.isEmpty then [] else [(name, .arr items)]

/-- The fields of a diagnostic; empty lists are left out. -/
def toJson (d : Diagnostic) : Json :=
  .obj <|
    [("code", d.code.toJson), ("message", .str d.message), ("severity", d.severity.toJson)]
      ++ listField "suggestions" (d.suggestions.map .str)
      ++ listField "nodes" (d.nodes.map NodeId.toJson)

/-- The diagnostic on one line. -/
def text (d : Diagnostic) : String :=
  d.severity.name ++ "[" ++ d.code.name ++ "]: " ++ d.message

/-- Diagnostics, one a line. -/
def report (list : List Diagnostic) : String :=
  "\n".intercalate (list.map text)

/-- The errors of a list and behind them the warnings, both in their order. -/
def errorsFirst (list : List Diagnostic) : List Diagnostic :=
  list.filter isError ++ list.filter fun d => !d.isError

end Diagnostic

end SceneFlow
