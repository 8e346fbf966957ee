import Redline.Files
import Redline.Json.Wire
import Redline.Text.Lines

namespace Redline

namespace Text

/-- First and last code points of the ranges of characters with the Unicode property White_Space. -/
def blankRanges : List (Nat × Nat) :=
  [(0x9, 0xd), (0x20, 0x20), (0x85, 0x85), (0xa0, 0xa0), (0x1680, 0x1680), (0x2000, 0x200a),
    (0x2028, 0x2029), (0x202f, 0x202f), (0x205f, 0x205f), (0x3000, 0x3000)]

def isBlank (character : Char) : Bool :=
  blankRanges.any (fun range => decide (range.1 ≤ character.toNat ∧ character.toNat ≤ range.2))

/-- There are 25 blank characters. -/
example : (blankRanges.map fun range => range.2 + 1 - range.1).sum = 25 := rfl

end Text

inductive ScriptError where
  | file (error : FileError)
  /-- Line numbers count from 1, blank lines included. -/
  | line (number : Nat) (error : Json.Error)
  deriving DecidableEq, Repr

def ScriptError.message : ScriptError → String
  | file error => "I/O error: " ++ error.message
  | line number error => s!"Invalid diff line at script line {number}: " ++ error.message

def ScriptError.cause : ScriptError → String
  | file error => error.message
  | line _ error => error.message

namespace Script

def isBlankLine (record : List Char) : Bool := record.all Text.isBlank

/-- Reads the lines of a script, of which the first has the given number. Blank lines are
passed over. -/
def parseRecords (number : Nat) : List (List Char) → Except ScriptError (List DiffLine)
  | [] => .ok []
  | record :: records =>
      if isBlankLine record then parseRecords (number + 1) records
      else
        match Json.readAll Json.readDiffLine record with
        | .error error => .error (.line number error)
        | .ok line =>
            match parseRecords (number + 1) records with
            | .error error => .error error
            | .ok lines => .ok (line :: lines)

def parse (source : String) : Except ScriptError (List DiffLine) :=
  parseRecords 1 (Text.records source.toList)

def ofFile (content : Except FileError ByteArray) : Except ScriptError (List DiffLine) :=
  match FileError.decode content with
  | .error error => .error (.file error)
  | .ok text => parse text

def writeLines (lines : List DiffLine) : List Char :=
  lines.flatMap fun line => Json.writeDiffLine line ++ ['\n']

def write (lines : List DiffLine) : String := String.ofList (writeLines lines)

end Script

end Redline
