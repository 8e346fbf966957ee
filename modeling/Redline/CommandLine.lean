import Redline.Broadcast
import Redline.Manager.Request
import Redline.Manager.Run
import Redline.Script
import Redline.Settings.Environment

namespace Redline.CommandLine

def usage : String := "usage: vdiff <file> <script.jsonl> [accept|reject|review]"

inductive Resolution where
  | accept
  | reject
  | review
  deriving DecidableEq, Repr

def Resolution.accepts (resolution : Resolution) (index : Nat) : Bool :=
  match resolution with
  | accept => true
  | reject => false
  | review => index % 2 == 0

def Resolution.parse : Option String → Option Resolution
  | none => some accept
  | some word =>
      if word = "accept" then some accept
      else if word = "reject" then some reject
      else if word = "review" then some review
      else none

structure Report where
  context : String
  causes : List String
  deriving DecidableEq, Repr

namespace Report

def indented (first rest : String) (cause : String) : String :=
  first ++ String.intercalate ("\n" ++ rest)
    ((Text.splitLines cause.toList).map String.ofList)

def numbered (index : Nat) (cause : String) : String :=
  let number := toString index
  indented ("".pushn ' ' (5 - number.length) ++ number ++ ": ") "       " cause

def causeLines : List String → List String
  | [cause] => [indented "    " "    " cause]
  | causes => causes.mapIdx numbered

def text (report : Report) : String :=
  let causes :=
    if report.causes.isEmpty then ""
    else "\n\nCaused by:\n" ++ String.intercalate "\n" (causeLines report.causes)
  "Error: " ++ report.context ++ causes ++ "\n"

end Report

inductive Outcome where
  | printed (text : String)
  | failed (report : Report)
  | crashed
  deriving DecidableEq, Repr

def Outcome.code : Outcome → Nat
  | printed _ => 0
  | failed _ => 1
  | crashed => 101

def Outcome.output : Outcome → String
  | printed text => text
  | _ => ""

structure Plan where
  settings : Settings
  file : String
  script : String
  resolution : Resolution
  deriving DecidableEq, Repr

/-- The settings come first, then the number of arguments, then the resolution. -/
def plan (environment : List (String × String)) (arguments : List String) : Except Outcome Plan :=
  match Settings.ofEnvironment environment with
  | .error _ => .error .crashed
  | .ok (.error error) =>
      .error (.failed ⟨"Failed to load configuration", [error.message]⟩)
  | .ok (.ok settings) =>
      match arguments with
      | file :: script :: more =>
          match Resolution.parse more.head? with
          | some resolution => .ok ⟨settings, file, script, resolution⟩
          | none =>
              .error (.failed
                ⟨"unknown resolution '" ++ more.head?.getD "" ++ "'\n" ++ usage, []⟩)
      | _ => .error (.failed ⟨usage, []⟩)

inductive Breakdown where
  | fault (fault : Fault)
  | refused (error : SessionError)
  /-- Blocks were left after as many rounds as there had been blocks. -/
  | endless
  deriving DecidableEq, Repr

def resolveAll (manager : Manager) (id : BufferId) (resolution : Resolution) (index : Nat)
    (rounds : Nat) : Except Breakdown (Nat × Manager) :=
  match manager.blocks id with
  | [] => .ok (index, manager)
  | block :: _ =>
      match rounds with
      | 0 => .error .endless
      | rounds + 1 => do
          let reply ← (manager.resolve id block.id (resolution.accepts index)).mapError .fault
          match reply.outcome with
          | .error error => throw (.refused error)
          | .ok _ => resolveAll reply.manager id resolution (index + 1) rounds

/-- Runs a script on a text and resolves its blocks. The channel for events is set up first. A run
that breaks off keeps what it has applied. -/
def merge (plan : Plan) (text : String) (lines : List DiffLine) : Except Breakdown String := do
  let _ : Channel Event ←
    (Channel.create plan.settings.diff.eventCapacity).mapError .fault
  let buffer := Buffer.ofText text
  let id : BufferId := ⟨plan.file⟩
  let manager := Manager.ofDocuments plan.settings.diff ⟨[(plan.file, buffer)]⟩
  let opened := manager.start id plan.file ⟨0, buffer.lineCount - 1⟩
  let handle ← opened.outcome.mapError .refused
  let (manager, run) := Run.start opened.manager handle
  let progress ← (Run.drive manager run (lines.map Supply.line)).mapError .fault
  let rounds := (progress.manager.blocks id).length
  let (_, manager) ← resolveAll progress.manager id plan.resolution 0 rounds
  return (manager.document plan.file).text

def Plan.carryOut (plan : Plan) (file script : Except FileError ByteArray) : Outcome :=
  match FileError.decode file with
  | .error error => .failed ⟨"Failed to read " ++ plan.file, [error.message]⟩
  | .ok text =>
      match Script.ofFile script with
      | .error error =>
          .failed ⟨"Failed to read diff script " ++ plan.script, [error.message, error.cause]⟩
      | .ok lines =>
          match merge plan text lines with
          | .ok text => .printed (text ++ "\n")
          | .error (.refused error) => .failed ⟨error.message fun _ => "", []⟩
          | .error _ => .crashed

def run (environment : List (String × String)) (arguments : List String) (files : Files) :
    Outcome :=
  match plan environment arguments with
  | .error outcome => outcome
  | .ok plan => plan.carryOut (files.read plan.file) (files.read plan.script)

end Redline.CommandLine
