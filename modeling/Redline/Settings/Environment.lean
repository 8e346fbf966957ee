import Redline.Settings
import Redline.Settings.Node

/-! Settings from environment variables. A name such as `VDIFF__DIFF__INSTANT` is a path to a
field; names that lead nowhere are ignored. -/

namespace Redline.Settings

inductive Error where
  /-- A value of another type; `own` tells whether the variable holds the field itself. -/
  | invalidType (found expected key : String) (own : Bool)
  deriving DecidableEq, Repr

def Error.message : Error → String
  | invalidType found expected key own =>
      "invalid type: " ++ found ++ ", expected " ++ expected ++ " for key `" ++ key ++ "`" ++
        (if own then " in the environment" else "")

def environmentOf (block : ByteArray) : List (String × String) :=
  (block.toList.splitOn 0).filterMap fun bytes => do
    let assignment ← String.fromUTF8? ⟨bytes.toArray⟩
    let name := assignment.toList.takeWhile (· ≠ '=')
    let value := (assignment.toList.dropWhile (· ≠ '=')).drop 1
    if name.length < assignment.length then some (String.ofList name, String.ofList value) else none

def Node.ofEnvironment (environment : List (String × String)) : Except Fault Node :=
  environment.foldlM (fun root entry =>
    match path? entry.1 with
    | some path => root.put (.ofText entry.2) path
    | none => .ok root) (.table .empty)

/-- A section names its fields, or lists them in their order. -/
inductive Section where
  | named (fields : Table String Node)
  | listed (items : List Node)

namespace Section

def ofRoot (root : Node) (name title : String) : Except Error Section :=
  match root.fields.get? name with
  | none => .ok (named .empty)
  | some (.table fields) => .ok (named fields)
  | some (.list items) => .ok (listed items)
  | some node => .error (.invalidType node.label ("struct " ++ title) name false)

def field? (part : Section) (name : String) (index : Nat) : Option (String × Node) :=
  match part with
  | named fields => (fields.get? name).map fun node => ("." ++ name, node)
  | listed items => items[index]?.map fun node => ("[" ++ toString index ++ "]", node)

def read {α : Type} (part : Section) (title name : String) (index : Nat) (expected : String)
    (convert : Value → Except (String × String) α) (standard : α) : Except Error α :=
  match part.field? name index with
  | none => .ok standard
  | some (key, .value value) =>
      match convert value with
      | .ok value => .ok value
      | .error (found, expected) => .error (.invalidType found expected (title ++ key) true)
  | some (key, node) => .error (.invalidType node.label expected (title ++ key) false)

end Section

def readDiff (root : Node) : Except Error DiffSettings := do
  let part ← Section.ofRoot root "diff" "DiffSettings"
  let standard := DiffSettings.standard
  let instant ← part.read "diff" "instant" 0 "a boolean" Value.toBool standard.instant
  let minOpDelay ←
    part.read "diff" "min_op_delay_ms" 1 "an integer" Value.toWord standard.minOpDelay
  let rejectOnCancel ←
    part.read "diff" "reject_on_cancel" 2 "a boolean" Value.toBool standard.rejectOnCancel
  let eventCapacity ←
    part.read "diff" "event_capacity" 3 "an integer" Value.toWord standard.eventCapacity
  return { instant, minOpDelay, rejectOnCancel, eventCapacity }

def readTelemetry (root : Node) : Except Error TelemetrySettings := do
  let part ← Section.ofRoot root "telemetry" "TelemetrySettings"
  let standard := TelemetrySettings.standard
  let logLevel ← part.read "telemetry" "log_level" 0 "a string"
    (fun value => .ok value.plainText) standard.logLevel
  let json ← part.read "telemetry" "json" 1 "a boolean" Value.toBool standard.json
  return { logLevel, json }

/-- The settings of an environment. Putting it together may fail before any field is read. -/
def ofEnvironment (environment : List (String × String)) :
    Except Fault (Except Error Settings) := do
  let root ← Node.ofEnvironment environment
  return do
    let diff ← readDiff root
    let telemetry ← readTelemetry root
    return { diff, telemetry }

end Redline.Settings
