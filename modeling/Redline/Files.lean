import Redline.Text.Lines

namespace Redline

inductive FileError where
  | notFound
  | notDirectory
  | isDirectory
  | denied
  | nameTooLong
  | notText
  deriving DecidableEq, Repr

def FileError.message : FileError → String
  | notFound => "No such file or directory (os error 2)"
  | notDirectory => "Not a directory (os error 20)"
  | isDirectory => "Is a directory (os error 21)"
  | denied => "Permission denied (os error 13)"
  | nameTooLong => "File name too long (os error 36)"
  | notText => "stream did not contain valid UTF-8"

def FileError.decode (content : Except FileError ByteArray) : Except FileError String := do
  match String.fromUTF8? (← content) with
  | some text => return text
  | none => throw .notText

inductive Place where
  | inside (names : List String)
  | outside (names : List String)
  /-- In a directory that holds the working directory. -/
  | above
  deriving DecidableEq, Repr

inductive Found where
  | directory
  | file (content : ByteArray)
  | nothing

structure Files where
  entries : List (String × ByteArray)

namespace Files

def nameLimit : Nat := 255

def pathLimit : Nat := 4096

def parts (path : String) : List String :=
  ((path.toList.splitOn '/').filter fun part => !part.isEmpty).map String.ofList

/-- The steps of a path. A slash at its end asks for a directory, as a point behind it would. -/
def steps (path : String) : List String :=
  parts path ++ if path.toList.getLast? = some '/' then ["."] else []

def namesOf (path : String) : List String := (parts path).filter (· != ".")

def origin (path : String) : Place :=
  if path.toList.head? = some '/' then .outside [] else .inside []

def enter (place : Place) (step : String) : Except FileError Place :=
  if step = "." then .ok place
  else if step = ".." then
    match place with
    | .inside [] => .ok .above
    | .inside names => .ok (.inside names.dropLast)
    | .outside names => .ok (.outside names.dropLast)
    | .above => .ok .above
  else if nameLimit < step.utf8ByteSize then .error .nameTooLong
  else
    match place with
    | .inside names => .ok (.inside (names ++ [step]))
    | .outside names => .ok (.outside (names ++ [step]))
    | .above => .error .notFound

def standing : List String :=
  ["bin", "boot", "dev", "etc", "home", "lib", "media", "mnt", "opt", "proc", "root", "run", "sbin",
    "srv", "sys", "tmp", "usr", "var"]

/-- Outside of the working directory there are a few directories, and a device without content. -/
def look (files : Files) : Place → Found
  | .inside names =>
      match files.entries.find? fun entry => namesOf entry.1 == names with
      | some entry => .file entry.2
      | none =>
          if names.isEmpty ∨ files.entries.any fun entry => names.isPrefixOf (namesOf entry.1) then
            .directory
          else .nothing
  | .outside [] => .directory
  | .outside [name] => if name ∈ standing then .directory else .nothing
  | .outside names => if names = ["dev", "null"] then .file .empty else .nothing
  | .above => .directory

def walk (files : Files) (place : Place) : List String → Except FileError Place
  | [] => .ok place
  | step :: steps =>
      match files.look place with
      | .directory => do walk files (← enter place step) steps
      | .file _ => .error .notDirectory
      | .nothing => .error .notFound

def read (files : Files) (path : String) : Except FileError ByteArray := do
  if path.isEmpty then throw .notFound
  if pathLimit ≤ path.utf8ByteSize then throw .nameTooLong
  match files.look (← files.walk (origin path) (steps path)) with
  | .directory => throw .isDirectory
  | .file content => return content
  | .nothing => throw .notFound

end Files

end Redline
