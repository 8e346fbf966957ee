import Redline.Edit
import Redline.Json.Reader
import Redline.Session.State
import Redline.Settings

namespace Redline.Json

def needed {α β : Type} (name : String) (reader : Reader β) (set : α → β → α) :
    Field α where
  name := name
  required := true
  read := fun record rest => do
    let (value, rest) ← reader rest
    return (set record value, rest)

def optional {α β : Type} (name : String) (reader : Reader β) (set : α → β → α) :
    Field α :=
  { needed name reader set with required := false }

/-- Both long and short names are read; the short ones are written. -/
def kinds : List (String × DiffKind) :=
  [("same", .same), ("old", .removed), ("removed", .removed), ("added", .added), ("new", .added)]

def readKind : Reader DiffKind := readVariant kinds

def readDiffLine : Reader DiffLine :=
  readRecord "DiffLine" ⟨.same, ""⟩ [
    needed "type" readKind fun line kind => { line with kind },
    needed "line" readString fun line text => { line with text }]

def readState : Reader SessionState :=
  readVariant [("streaming", .streaming), ("reviewing", .reviewing), ("idle", .idle)]

def readBufferId : Reader BufferId := fun rest => do
  let (name, rest) ← readString rest
  return (⟨name⟩, rest)

def readRow : Reader Nat := readNatural "usize"

def readRange : Reader LineRange :=
  readRecord "LineRange" ⟨0, 0⟩ [
    needed "start_line" readRow fun range first => { range with first },
    needed "end_line" readRow fun range last => { range with last }]

def readEdit : Reader ExternalEdit :=
  readRecord "ExternalEdit" ⟨0, 0, ""⟩ [
    needed "start_line" readRow fun edit start => { edit with start },
    needed "end_line" readRow fun edit stop => { edit with stop },
    needed "inserted_text" readString fun edit text => { edit with text }]

def readDiffSettings : Reader DiffSettings :=
  readRecord "DiffSettings" .standard [
    optional "instant" readBool fun settings instant => { settings with instant },
    optional "min_op_delay_ms" (readNatural "u64")
      fun settings minOpDelay => { settings with minOpDelay },
    optional "reject_on_cancel" readBool
      fun settings rejectOnCancel => { settings with rejectOnCancel },
    optional "event_capacity" readRow fun settings eventCapacity => { settings with eventCapacity }]

def readTelemetrySettings : Reader TelemetrySettings :=
  readRecord "TelemetrySettings" .standard [
    optional "log_level" readString fun settings logLevel => { settings with logLevel },
    optional "json" readBool fun settings json => { settings with json }]

def readSettings : Reader Settings :=
  readRecord "Settings" .standard [
    optional "diff" readDiffSettings fun settings diff => { settings with diff },
    optional "telemetry" readTelemetrySettings
      fun settings telemetry => { settings with telemetry }]

def writeEntries : List (String × List Char) → List Char
  | [] => []
  | [(key, value)] => writeText key ++ ':' :: value
  | (key, value) :: entry :: entries =>
      writeText key ++ ':' :: (value ++ ',' :: writeEntries (entry :: entries))

def writeObject (entries : List (String × List Char)) : List Char :=
  '\x7b' :: (writeEntries entries ++ ['\x7d'])

def writeNatural (number : Nat) : List Char := Nat.toDigits 10 number

def writeKind (kind : DiffKind) : List Char := writeText kind.label

def writeDiffLine (line : DiffLine) : List Char :=
  writeObject [("type", writeKind line.kind), ("line", writeText line.text)]

def writeState (state : SessionState) : List Char := writeText state.label

def writeRange (range : LineRange) : List Char :=
  writeObject [("start_line", writeNatural range.first), ("end_line", writeNatural range.last)]

def writeEdit (edit : ExternalEdit) : List Char :=
  writeObject [("start_line", writeNatural edit.start), ("end_line", writeNatural edit.stop),
    ("inserted_text", writeText edit.text)]

end Redline.Json
