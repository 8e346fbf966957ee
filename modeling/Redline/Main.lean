import Redline.CommandLine

open Redline

def readEnvironment : IO (List (String × String)) := do
  try
    return Settings.environmentOf (← IO.FS.readBinFile "/proc/self/environ")
  catch _ =>
    return []

def readContent (path : String) : IO (Except FileError ByteArray) := do
  try
    return .ok (← IO.FS.readBinFile path)
  catch error =>
    match error with
    | .inappropriateType _ code _ =>
        return .error (if code = 21 then .isDirectory else .notDirectory)
    | .permissionDenied .. => return .error .denied
    | .invalidArgument .. => return .error .nameTooLong
    | _ => return .error .notFound

def conclude (outcome : CommandLine.Outcome) : IO UInt32 := do
  IO.print outcome.output
  if let .failed report := outcome then IO.eprint report.text
  return outcome.code.toUInt32

def main (arguments : List String) : IO UInt32 := do
  match CommandLine.plan (← readEnvironment) arguments with
  | .error outcome => conclude outcome
  | .ok plan =>
      conclude (plan.carryOut (← readContent plan.file) (← readContent plan.script))
