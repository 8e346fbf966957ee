import Redline.Session.State

namespace Redline.Session

def close (session : Session) (buffer : Buffer) : Session × List Event :=
  let closed := { session with
    tracker := Tracker.empty
    registry := session.registry.clear
    cancelled := true
    state := .idle
    listening := false }
  (closed, closed.announce buffer .closed)

def discard (session : Session) : Session :=
  { session with
    tracker := Tracker.empty
    registry := session.registry.clear
    cancelled := true
    state := .idle
    listening := false }

/-- A session runs once. Edits of the host are ignored while it does. -/
def beginRun (session : Session) : Except SessionError Session :=
  if session.running ∨ 0 < session.applied ∨ session.state ≠ .streaming then
    .error (.invalidState "run" session.state)
  else .ok { session with running := true, listening := false }

def advance (session : Session) (buffer : Buffer) : Except Fault (Turn Unit) := do
  let session ← { session with
    cursor := session.cursor + 1, applied := session.applied + 1 }.sync
  return ⟨session, buffer, session.announce buffer .streaming, .ok ()⟩

def currentRun (session : Session) : OpenRun := session.openRun.getD ⟨session.cursor, 0⟩

def applySame (session : Session) (buffer : Buffer) (line : Nat) (text : String) :
    Except Fault (Turn Unit) :=
  if line < buffer.lineCount then
    { session with openRun := none, committed := session.committed ++ [text] }.advance buffer
  else .ok (session.refuse buffer (.streamDesync line buffer.lineCount))

/-- The line goes out of the buffer and leaves a ghost below the ghosts of the same change.
Added rows of that change move down by one; everything below stays where it is. -/
def applyRemoved (session : Session) (buffer : Buffer) (line : Nat) : Except Fault (Turn Unit) :=
  if line < buffer.lineCount then
    let run := session.currentRun
    let ghostRow := run.start + run.removed
    let session := { session with openRun := some { run with removed := run.removed + 1 } }
    match buffer.delete line 1 with
    | .error error => .ok (session.refuse buffer (.buffer error))
    | .ok (texts, buffer) => do
        let tracker ← session.tracker.shiftFrom (session.cursor + 1) (-1)
        let tracker ← tracker.shiftFrom ghostRow 1
        let tracker ← tracker.addRemoved ghostRow texts
        { session with tracker }.advance buffer
  else .ok (session.refuse buffer (.streamDesync line buffer.lineCount))

def applyAdded (session : Session) (buffer : Buffer) (line : Nat) (text : String) :
    Except Fault (Turn Unit) :=
  match buffer.insert line [text] with
  | .error error => .ok (session.refuse buffer (.buffer error))
  | .ok buffer => do
      let tracker ← session.tracker.shiftFrom session.cursor 1
      let tracker ← tracker.addAdded session.cursor 1
      { session with
        tracker
        openRun := some session.currentRun
        committed := session.committed ++ [text] }.advance buffer

/-- Applies one line of the stream at the cursor. A kept or removed line needs a line of the
buffer to consume. -/
def applyLine (session : Session) (buffer : Buffer) (line : DiffLine) : Except Fault (Turn Unit) :=
  if session.running ∧ session.state = .streaming then
    let target := session.tracker.bufferLine session.cursor
    match line.kind with
    | .same => session.applySame buffer target line.text
    | .removed => session.applyRemoved buffer target
    | .added => session.applyAdded buffer target line.text
  else .ok (session.refuse buffer (.invalidState "apply_line" session.state))

def finish (session : Session) (buffer : Buffer) : Session × List Event :=
  let session := { session with running := false, openRun := none }
  if session.state = .streaming then
    let session := { session with listening := true }
    if session.registry.blocks.isEmpty then session.close buffer
    else
      let session := { session with state := .reviewing }
      (session, session.announce buffer .done)
  else (session, [])

def takeCommitted (session : Session) : List String × Session :=
  (session.committed, { session with committed := [] })

end Redline.Session
