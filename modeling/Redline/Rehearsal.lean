import Redline.Workbench

/-! Rehearsing a run: a prepared stream, requests that come at fixed times, and a clock that
only moves when everything waits. -/

namespace Redline

inductive Item where
  | line (line : DiffLine)
  | failure (message : String)
  | step (step : Step)
  /-- The source is not ready for some milliseconds; for none, it is ready at once. -/
  | wait (duration : Nat)
  | never
  deriving DecidableEq, Repr

structure Rehearsal where
  bench : Workbench
  run : Run
  clock : Nat
  timed : List (Nat × Step)
  inner : List Answer
  punctual : List Answer
  stuck : Bool

namespace Rehearsal

/-- A run that takes longer than a day, in milliseconds, is taken to hang. -/
def horizon : Nat := 86400000

def isOver (rehearsal : Rehearsal) : Bool := rehearsal.run.isOver || rehearsal.stuck

def follow (rehearsal : Rehearsal) (progress : Progress) : Rehearsal :=
  { rehearsal with
    run := progress.run
    bench := { rehearsal.bench with manager := progress.manager }.publish progress.events }

def start (bench : Workbench) (handle : Handle) (timed : List (Nat × Step)) : Rehearsal :=
  let (manager, run) := Run.start bench.manager handle
  ⟨{ bench with manager }, run, 0, timed, [], [], false⟩

def check (rehearsal : Rehearsal) : Except Fault Rehearsal := do
  return rehearsal.follow (← Run.check rehearsal.bench.manager rehearsal.run)

def interrupt (rehearsal : Rehearsal) : Except Fault Rehearsal := do
  return rehearsal.follow (← Run.interrupt rehearsal.bench.manager rehearsal.run)

def receive (rehearsal : Rehearsal) (supply : Supply) : Except Fault Rehearsal := do
  return rehearsal.follow (← Run.receive rehearsal.bench.manager rehearsal.run supply)

def performTimed (rehearsal : Rehearsal) (step : Step) : Except Fault Rehearsal := do
  let (bench, answer) ← rehearsal.bench.perform step
  return { rehearsal with bench, punctual := rehearsal.punctual ++ [answer] }

def passTo (time : Nat) (rehearsal : Rehearsal) : List (Nat × Step) → Except Fault Rehearsal
  | [] => .ok { rehearsal with clock := time, timed := [] }
  | (due, step) :: later =>
      if due ≤ time then do
        let rehearsal ← rehearsal.performTimed step
        let rehearsal ← rehearsal.interrupt
        if rehearsal.isOver then return { rehearsal with timed := later }
        else passTo time rehearsal later
      else .ok { rehearsal with clock := time, timed := (due, step) :: later }

def waitUntil (rehearsal : Rehearsal) (time : Nat) : Except Fault Rehearsal := do
  let rehearsal ← rehearsal.interrupt
  if rehearsal.isOver then return rehearsal
  let rehearsal ← passTo (min time horizon) rehearsal rehearsal.timed
  return { rehearsal with stuck := !rehearsal.run.isOver && decide (horizon < time) }

def rest (rehearsal : Rehearsal) : Except Fault Rehearsal := do
  if rehearsal.run.stage = .resting then
    let delay := rehearsal.bench.manager.settings.minOpDelay
    let rehearsal ← rehearsal.waitUntil (rehearsal.clock + delay)
    return { rehearsal with run := if rehearsal.stuck then rehearsal.run else rehearsal.run.wake }
  else return rehearsal

def take (rehearsal : Rehearsal) : Item → Except Fault Rehearsal
  | .line line => do
      let rehearsal ← rehearsal.receive (.line line)
      rehearsal.rest
  | .failure message => rehearsal.receive (.failure message)
  | .step step => do
      let (bench, answer) ← rehearsal.bench.perform step
      return { rehearsal with bench, inner := rehearsal.inner ++ [answer] }
  | .wait 0 => return rehearsal
  | .wait duration => rehearsal.waitUntil (rehearsal.clock + duration)
  | .never => rehearsal.waitUntil (horizon + 1)

def play (rehearsal : Rehearsal) : List Item → Except Fault Rehearsal
  | [] => do
      let rehearsal ← rehearsal.check
      if rehearsal.isOver then return rehearsal else rehearsal.receive .finished
  | item :: items => do
      let rehearsal ← rehearsal.check
      if rehearsal.isOver then return rehearsal
      else play (← rehearsal.take item) items

def finish (rehearsal : Rehearsal) : List (Nat × Step) → Except Fault Rehearsal
  | [] => .ok { rehearsal with timed := [] }
  | (_, step) :: later => do finish (← rehearsal.performTimed step) later

def perform (bench : Workbench) (handle : Handle) (items : List Item) (timed : List (Nat × Step)) :
    Except Fault Rehearsal := do
  let rehearsal ← (start bench handle timed).play items
  rehearsal.finish rehearsal.timed

end Rehearsal

end Redline
