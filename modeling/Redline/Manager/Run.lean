import Redline.Manager.State

/-! Runs: a stream of diff lines going into a session. A run is driven in small moves, and other
requests may come between any two of them. -/

namespace Redline

inductive RunOutcome where
  | completed (lines : List String)
  | cancelled (applied : Nat)
  | failed (error : SessionError)
  deriving DecidableEq, Repr

inductive RunEnd where
  | exhausted
  | cancelled
  | failed (error : SessionError)
  deriving DecidableEq, Repr

inductive Supply where
  | line (line : DiffLine)
  | failure (message : String)
  | finished
  deriving DecidableEq, Repr

inductive RunStage where
  | ready
  | asking
  | resting
  | ended (outcome : RunOutcome)
  deriving DecidableEq, Repr

/-- `queued` holds what an instant run has read so far. -/
structure Run where
  handle : Handle
  queued : List DiffLine
  stage : RunStage
  deriving DecidableEq, Repr

structure Progress where
  manager : Manager
  run : Run
  events : List Event

namespace Run

def isOver (run : Run) : Bool :=
  match run.stage with
  | .ended _ => true
  | _ => false

def ended (handle : Handle) (outcome : RunOutcome) : Run :=
  ⟨handle, [], .ended outcome⟩

def start (manager : Manager) (handle : Handle) : Manager × Run :=
  match manager.opened? handle.buffer with
  | none => (manager, ended handle (.failed (.sessionNotFound handle.buffer)))
  | some opened =>
      if opened.session.stream = handle.stream then
        match opened.session.beginRun with
        | .error error => (manager, ended handle (.failed error))
        | .ok session => (manager.setSession { opened with session }, ⟨handle, [], .ready⟩)
      else (manager, ended handle (.failed (.sessionNotFound handle.buffer)))

/-- Rejects what a cancelled run has applied. If that fails, the session stays. -/
def reject (manager : Manager) (opened : Opened) (run : Run) (applied : Nat) :
    Except Fault Progress := do
  let reply ← manager.operate opened fun session buffer => session.clear buffer false
  match reply.outcome with
  | .error error => return ⟨reply.manager, ended run.handle (.failed error), reply.events⟩
  | .ok () =>
      return ⟨reply.manager.removeIfCurrent run.handle,
        ended run.handle (.cancelled applied), reply.events⟩

def conclude (manager : Manager) (run : Run) (why : RunEnd) : Except Fault Progress :=
  match manager.sessions.get? run.handle.stream with
  | none => .ok ⟨manager, ended run.handle (.failed (.sessionNotFound run.handle.buffer)), []⟩
  | some opened =>
      let (session, events) := opened.session.finish (manager.document opened.document)
      let (lines, session) := session.takeCommitted
      let opened := { opened with session }
      let closed := session.state = .idle
      let manager := manager.setSession opened
      let manager := if closed then manager.removeIfCurrent run.handle else manager
      match why with
      | .exhausted => .ok ⟨manager, ended run.handle (.completed lines), events⟩
      | .failed error => .ok ⟨manager, ended run.handle (.failed error), events⟩
      | .cancelled =>
          if manager.settings.rejectOnCancel ∧ ¬closed then do
            let progress ← reject manager opened run session.applied
            return { progress with events := events ++ progress.events }
          else .ok ⟨manager, ended run.handle (.cancelled session.applied), events⟩

/-- Applies one line to the run's session. The session may have left its streaming state
meanwhile, which ends the run as if it had been cancelled. -/
def applyOne (manager : Manager) (run : Run) (line : DiffLine) :
    Except Fault (Manager × List Event × Option RunEnd) :=
  match manager.sessions.get? run.handle.stream with
  | none => .ok (manager, [], some .cancelled)
  | some opened =>
      if opened.session.state = .streaming then do
        let reply ← manager.operate opened fun session buffer => session.applyLine buffer line
        match reply.outcome with
        | .ok () => return (reply.manager, reply.events, none)
        | .error error => return (reply.manager, reply.events, some (.failed error))
      else .ok (manager, [], some .cancelled)

def applyAll (manager : Manager) (run : Run) :
    List DiffLine → Except Fault (Manager × List Event × RunEnd)
  | [] => .ok (manager, [], .exhausted)
  | line :: lines => do
      let (manager, events, stop) ← applyOne manager run line
      match stop with
      | some why => return (manager, events, why)
      | none =>
          let (manager, later, why) ← applyAll manager run lines
          return (manager, events ++ later, why)

def concludeAfter (events : List Event) (manager : Manager) (run : Run) (why : RunEnd) :
    Except Fault Progress := do
  let progress ← conclude manager run why
  return { progress with events := events ++ progress.events }

def check (manager : Manager) (run : Run) : Except Fault Progress :=
  match run.stage with
  | .ready =>
      if manager.hasFired run.handle.stream then conclude manager run .cancelled
      else .ok ⟨manager, { run with stage := .asking }, []⟩
  | _ => .ok ⟨manager, run, []⟩

def interrupt (manager : Manager) (run : Run) : Except Fault Progress :=
  if run.isOver then .ok ⟨manager, run, []⟩
  else if manager.hasFired run.handle.stream then conclude manager run .cancelled
  else .ok ⟨manager, run, []⟩

def receiveLine (manager : Manager) (run : Run) (line : DiffLine) : Except Fault Progress := do
  if manager.settings.instant then
    return ⟨manager, { run with queued := run.queued ++ [line], stage := .ready }, []⟩
  let (manager, events, stop) ← applyOne manager run line
  match stop with
  | some why => concludeAfter events manager run why
  | none =>
      let stage := if manager.settings.opDelay.isSome then RunStage.resting else .ready
      return ⟨manager, { run with stage }, events⟩

def receive (manager : Manager) (run : Run) (supply : Supply) : Except Fault Progress := do
  match run.stage, supply with
  | .asking, .line line => receiveLine manager run line
  | .asking, .failure message => conclude manager run (.failed (.sourceFailure message))
  | .asking, .finished =>
      let (manager, events, why) ← applyAll manager run run.queued
      concludeAfter events manager run why
  | _, _ => return ⟨manager, run, []⟩

def wake (run : Run) : Run :=
  match run.stage with
  | .resting => { run with stage := .ready }
  | _ => run

def ask (manager : Manager) (run : Run) (supply : Supply) : Except Fault Progress := do
  let asked ← check manager run
  let taken ← receive asked.manager asked.run supply
  return { taken with events := asked.events ++ taken.events, run := taken.run.wake }

def drive (manager : Manager) (run : Run) : List Supply → Except Fault Progress
  | [] => ask manager run .finished
  | supply :: supplies => do
      let progress ← ask manager run supply
      if progress.run.isOver then return progress
      let last ← drive progress.manager progress.run supplies
      return { last with events := progress.events ++ last.events }

end Run

end Redline
