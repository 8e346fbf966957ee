import Redline.Json.Error

namespace Redline.Json

def hexDigit? (character : Char) : Option Nat :=
  if '0' ≤ character ∧ character ≤ '9' then some (character.toNat - '0'.toNat)
  else if 'a' ≤ character ∧ character ≤ 'f' then some (character.toNat - 'a'.toNat + 10)
  else if 'A' ≤ character ∧ character ≤ 'F' then some (character.toNat - 'A'.toNat + 10)
  else none

def hexValue? (first second third fourth : Char) : Option Nat := do
  let first ← hexDigit? first
  let second ← hexDigit? second
  let third ← hexDigit? third
  let fourth ← hexDigit? fourth
  return ((first * 16 + second) * 16 + third) * 16 + fourth

/-- Four bytes that are no hexadecimal digits are a bad escape; with fewer the text has
ended. -/
def shortHex (rest : List Char) : Error :=
  if (String.ofList rest).utf8ByteSize < 4 then .endOf .string else .invalidEscape

def isHighSurrogate (unit : Nat) : Bool := decide (0xd800 ≤ unit ∧ unit ≤ 0xdbff)

def isLowSurrogate (unit : Nat) : Bool := decide (0xdc00 ≤ unit ∧ unit ≤ 0xdfff)

def ofSurrogates (high low : Nat) : Char :=
  Char.ofNat (0x10000 + (high - 0xd800) * 0x400 + (low - 0xdc00))

def unescape? (letter : Char) : Option Char :=
  if letter = '"' ∨ letter = '\\' ∨ letter = '/' then some letter
  else if letter = 'b' then some '\x08'
  else if letter = 'f' then some '\x0c'
  else if letter = 'n' then some '\n'
  else if letter = 'r' then some '\r'
  else if letter = 't' then some '\t'
  else none

def prepend (character : Char) (result : Except Error (List Char × List Char)) :
    Except Error (List Char × List Char) :=
  match result with
  | .ok (text, rest) => .ok (character :: text, rest)
  | .error error => .error error

/-- Reads up to the closing quote. Surrogates must come in pairs, and control characters only
as escapes. -/
def readText : List Char → Except Error (List Char × List Char)
  | [] => .error (.endOf .string)
  | character :: rest =>
      if character = '"' then .ok ([], rest)
      else if character = '\\' then
        match rest with
        | [] => .error (.endOf .string)
        | letter :: rest =>
            if letter = 'u' then
              match rest with
              | first :: second :: third :: fourth :: rest =>
                  match hexValue? first second third fourth with
                  | none => .error .invalidEscape
                  | some unit =>
                      if isLowSurrogate unit then .error .loneSurrogate
                      else if isHighSurrogate unit then
                        match rest with
                        | [] => .error (.endOf .string)
                        | ['\\'] => .error (.endOf .string)
                        | '\\' :: 'u' :: first :: second :: third :: fourth :: rest =>
                            match hexValue? first second third fourth with
                            | none => .error .invalidEscape
                            | some low =>
                                if isLowSurrogate low then
                                  prepend (ofSurrogates unit low) (readText rest)
                                else .error .loneSurrogate
                        | '\\' :: 'u' :: rest => .error (shortHex rest)
                        | _ => .error .unfinishedSurrogate
                      else prepend (Char.ofNat unit) (readText rest)
              | short => .error (shortHex short)
            else
              match unescape? letter with
              | some character => prepend character (readText rest)
              | none => .error .invalidEscape
      else if character.toNat < 0x20 then .error .controlCharacter
      else prepend character (readText rest)

def skipText : List Char → Except Error (List Char)
  | [] => .error (.endOf .string)
  | character :: rest =>
      if character = '"' then .ok rest
      else if character = '\\' then
        match rest with
        | [] => .error (.endOf .string)
        | letter :: rest =>
            if letter = 'u' then
              match rest with
              | first :: second :: third :: fourth :: rest =>
                  match hexValue? first second third fourth with
                  | none => .error .invalidEscape
                  | some _ => skipText rest
              | short => .error (shortHex short)
            else
              match unescape? letter with
              | some _ => skipText rest
              | none => .error .invalidEscape
      else if character.toNat < 0x20 then .error .controlCharacter
      else skipText rest

def escapeChar (character : Char) : List Char :=
  if character = '"' then ['\\', '"']
  else if character = '\\' then ['\\', '\\']
  else if character = '\x08' then ['\\', 'b']
  else if character = '\x0c' then ['\\', 'f']
  else if character = '\n' then ['\\', 'n']
  else if character = '\r' then ['\\', 'r']
  else if character = '\t' then ['\\', 't']
  else if character.toNat < 0x20 then
    ['\\', 'u', '0', '0', Nat.digitChar (character.toNat / 16),
      Nat.digitChar (character.toNat % 16)]
  else [character]

def escape (text : List Char) : List Char := text.flatMap escapeChar

def writeText (text : String) : List Char := '"' :: (escape text.toList ++ ['"'])

end Redline.Json
