import Redline.Json.Skip

/-! Readers for the types a text is expected to hold. A reader takes the value at the start of a
text and leaves the rest. -/

namespace Redline.Json

abbrev Reader (α : Type) := List Char → Except Error (α × List Char)

def startsNumber (character : Char) : Bool := character = '-' || character.isDigit

/-- The error for a value of another type than the one expected, unless the value is broken
itself. -/
def mismatch (expected : String) : List Char → Error
  | [] => .endOf .value
  | character :: rest =>
      let word (letters : List Char) (found : Found) : Error :=
        match readWord letters rest with
        | .ok _ => .invalidType found expected
        | .error error => error
      if character = 'n' then word ['u', 'l', 'l'] .null
      else if character = 't' then word ['r', 'u', 'e'] (.boolean true)
      else if character = 'f' then word ['a', 'l', 's', 'e'] (.boolean false)
      else if character = '"' then
        match readText rest with
        | .ok (text, _) => .invalidType (.string (String.ofList text)) expected
        | .error error => error
      else if character = '[' then .invalidType .sequence expected
      else if character = '\x7b' then .invalidType .map expected
      else if startsNumber character then
        match (readNumeral (.endOf .value) (character :: rest)) with
        | .ok (numeral, _) =>
            match numeral.value with
            | .ok found => .invalidType found expected
            | .error error => error
        | .error error => error
      else .expectedValue

def readString : Reader String := fun rest =>
  match skipBlanks rest with
  | '"' :: behind => do
      let (text, behind) ← readText behind
      return (String.ofList text, behind)
  | rest => .error (mismatch "a string" rest)

def readBool : Reader Bool := fun rest =>
  match skipBlanks rest with
  | 't' :: behind => do return (true, ← readWord ['r', 'u', 'e'] behind)
  | 'f' :: behind => do return (false, ← readWord ['a', 'l', 's', 'e'] behind)
  | rest => .error (mismatch "a boolean" rest)

def readUnit : Reader Unit := fun rest =>
  match skipBlanks rest with
  | 'n' :: behind => do return ((), ← readWord ['u', 'l', 'l'] behind)
  | rest => .error (mismatch "unit" rest)

def readNatural (expected : String) : Reader Nat := fun rest =>
  match skipBlanks rest with
  | [] => .error (.endOf .value)
  | character :: behind =>
      if startsNumber character then do
        let (numeral, after) ← readNumeral (.endOf .value) (character :: behind)
        match ← numeral.value with
        | .integer value =>
            if 0 ≤ value then return (value.toNat, after)
            else throw (.invalidValue (.integer value) expected)
        | found => throw (.invalidType found expected)
      else .error (mismatch expected (character :: behind))

def readColon (rest : List Char) : Except Error (List Char) :=
  match skipBlanks rest with
  | [] => .error (.endOf .object)
  | ':' :: behind => .ok behind
  | _ => .error .expectedColon

def variant {α : Type} (variants : List (String × α)) (name : List Char) : Except Error α :=
  match variants.lookup (String.ofList name) with
  | some value => .ok value
  | none => .error (.unknownVariant (String.ofList name) (variants.map Prod.fst))

def readVariantKey {α : Type} (variants : List (String × α)) : Reader α := fun rest =>
  match skipBlanks rest with
  | [] => .error (.endOf .object)
  | '"' :: behind => do
      let (name, behind) ← readText behind
      return (← variant variants name, behind)
  | '\x7d' :: _ => .error .expectedValue
  | _ => .error .keyNotString

/-- A variant is written as its name, or as an object with its name as only key and null as
value. -/
def readVariant {α : Type} (variants : List (String × α)) : Reader α := fun rest =>
  match skipBlanks rest with
  | [] => .error (.endOf .value)
  | '"' :: behind => do
      let (name, behind) ← readText behind
      return (← variant variants name, behind)
  | '\x7b' :: behind => do
      let (value, behind) ← readVariantKey variants behind
      let behind ← readColon behind
      let (_, behind) ← readUnit behind
      match skipBlanks behind with
      | [] => throw (.endOf .object)
      | '\x7d' :: behind => return (value, behind)
      | _ => throw .expectedValue
  | _ => .error .expectedValue

structure Field (α : Type) where
  name : String
  required : Bool
  read : α → Reader α

def nextElement (first : Bool) (rest : List Char) : Except Error (Option (List Char)) :=
  match skipBlanks rest with
  | [] => .error (.endOf .list)
  | ']' :: _ => .ok none
  | character :: behind =>
      if first then .ok (some (character :: behind))
      else if character = ',' then
        match skipBlanks behind with
        | [] => .error (.endOf .value)
        | ']' :: _ => .error .trailingComma
        | rest => .ok (some rest)
      else .error .expectedCommaOrBracket

def readElements {α : Type} (expected : String) (first : Bool) (index : Nat) (record : α) :
    List (Field α) → Reader α
  | [], rest => .ok (record, rest)
  | field :: fields, rest => do
      match ← nextElement first rest with
      | some behind =>
          let (record, behind) ← field.read record behind
          readElements expected false (index + 1) record fields behind
      | none =>
          if field.required then throw (.invalidLength index expected)
          else readElements expected first (index + 1) record fields rest

def closeList (rest : List Char) : Except Error (List Char) :=
  match skipBlanks rest with
  | [] => .error (.endOf .list)
  | ']' :: behind => .ok behind
  | ',' :: behind =>
      match skipBlanks behind with
      | ']' :: _ => .error .trailingComma
      | _ => .error .trailingCharacters
  | _ => .error .trailingCharacters

def nextKey (first : Bool) (rest : List Char) : Except Error (Option (List Char)) :=
  match skipBlanks rest with
  | [] => .error (.endOf .object)
  | '\x7d' :: _ => .ok none
  | character :: behind =>
      if first then
        if character = '"' then .ok (some behind) else .error .keyNotString
      else if character = ',' then
        match skipBlanks behind with
        | [] => .error (.endOf .value)
        | '"' :: behind => .ok (some behind)
        | '\x7d' :: _ => .error .trailingComma
        | _ => .error .keyNotString
      else .error .expectedCommaOrBrace

def readEntry {α : Type} (fields : List (Field α)) (seen : List String) (record : α)
    (name : String) (rest : List Char) : Except Error ((List String × α) × List Char) :=
  match fields.find? (fun field => field.name == name) with
  | some field =>
      if name ∈ seen then .error (.duplicateField name)
      else do
        let (record, rest) ← field.read record (← readColon rest)
        return ((name :: seen, record), rest)
  | none => do
      let rest ← skipValue (← readColon rest)
      return ((seen, record), rest)

/-- Reads the entries of an object up to its closing brace. An entry that takes nothing from
the text cannot be; it would end the reading. -/
def readEntries {α : Type} (fields : List (Field α)) (first : Bool) (seen : List String)
    (record : α) (rest : List Char) : Except Error ((List String × α) × List Char) :=
  match nextKey first rest with
  | .error error => .error error
  | .ok none => .ok ((seen, record), rest)
  | .ok (some behind) =>
      match readText behind with
      | .error error => .error error
      | .ok (name, behind) =>
          match readEntry fields seen record (String.ofList name) behind with
          | .error error => .error error
          | .ok ((seen, record), after) =>
              if after.length < rest.length then readEntries fields false seen record after
              else .error .expectedValue
termination_by rest.length

def missing? {α : Type} (fields : List (Field α)) (seen : List String) : Option (Field α) :=
  fields.find? (fun field => field.required && decide (field.name ∉ seen))

def closeObject (rest : List Char) : Except Error (List Char) :=
  match skipBlanks rest with
  | [] => .error (.endOf .object)
  | '\x7d' :: behind => .ok behind
  | ',' :: _ => .error .trailingComma
  | _ => .error .trailingCharacters

/-- Reads a record from an object, or from a list of its fields in order. `start` holds the
values of fields that are left out. -/
def readRecord {α : Type} (title : String) (start : α) (fields : List (Field α)) : Reader α :=
  fun rest =>
    match skipBlanks rest with
    | [] => .error (.endOf .value)
    | '[' :: behind => do
        let expected := "struct " ++ title ++ " with " ++ toString fields.length ++ " elements"
        let (record, behind) ← readElements expected true 0 start fields behind
        return (record, ← closeList behind)
    | '\x7b' :: behind => do
        let ((seen, record), behind) ← readEntries fields true [] start behind
        match missing? fields seen with
        | some field => throw (.missingField field.name)
        | none => return (record, ← closeObject behind)
    | rest => .error (mismatch ("struct " ++ title) rest)

def readAll {α : Type} (reader : Reader α) (text : List Char) : Except Error α := do
  let (value, rest) ← reader text
  if (skipBlanks rest).isEmpty then return value else throw .trailingCharacters

end Redline.Json
