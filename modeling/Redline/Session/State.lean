import Redline.Buffer
import Redline.Registry
import Redline.Text.Quoted

namespace Redline

inductive DiffKind where
  | same
  | removed
  | added
  deriving DecidableEq, Repr

def DiffKind.label : DiffKind → String
  | same => "same"
  | removed => "old"
  | added => "new"

structure DiffLine where
  kind : DiffKind
  text : String
  deriving DecidableEq, Repr

namespace DiffLine

def isCommitted (line : DiffLine) : Bool := line.kind != .removed

def isChange (line : DiffLine) : Bool := line.kind != .same

end DiffLine

inductive Status where
  | streaming
  | done
  | closed
  deriving DecidableEq, Repr

def Status.label : Status → String
  | streaming => "streaming"
  | done => "done"
  | closed => "closed"

structure StatusUpdate where
  buffer : BufferId
  stream : StreamId
  status : Status
  unresolved : Nat
  text : String
  deriving DecidableEq, Repr

structure Overlay where
  blocks : List Block
  added : List AddedRange
  ghosts : List Ghost
  deriving DecidableEq, Repr

def Overlay.empty : Overlay := ⟨[], [], []⟩

inductive Event where
  | status (update : StatusUpdate)
  | overlay (buffer : BufferId) (overlay : Overlay)
  deriving DecidableEq, Repr

def Event.buffer : Event → BufferId
  | status update => update.buffer
  | overlay buffer _ => buffer

inductive SessionState where
  | streaming
  | reviewing
  | idle
  deriving DecidableEq, Repr

def SessionState.label : SessionState → String
  | streaming => "streaming"
  | reviewing => "reviewing"
  | idle => "idle"

def SessionState.title : SessionState → String
  | streaming => "Streaming"
  | reviewing => "Reviewing"
  | idle => "Idle"

/-- Lines `first..=last` of a buffer. -/
structure LineRange where
  first : Nat
  last : Nat
  deriving DecidableEq, Repr

inductive SessionError where
  | sessionNotFound (id : BufferId)
  | blockNotFound (id : BlockId)
  | invalidRange (range : LineRange) (lineCount : Nat)
  | invalidState (operation : String) (state : SessionState)
  | streamDesync (line lineCount : Nat)
  | sourceFailure (message : String)
  | buffer (error : BufferError)
  deriving DecidableEq, Repr

def SessionError.message (label : BlockId → String) : SessionError → String
  | sessionNotFound id => "Session not found for buffer: " ++ id.name
  | blockNotFound id => "Block not found: " ++ label id
  | invalidRange range lineCount =>
      s!"Invalid range {range.first}..={range.last} for buffer with {lineCount} lines"
  | invalidState operation state =>
      s!"Operation '{operation}' not allowed while session is {state.label}"
  | streamDesync line lineCount =>
      s!"Stream out of sync with buffer at line {line} (buffer has {lineCount} lines)"
  | sourceFailure message => "Diff source failed: " ++ message
  | buffer error => "Buffer error: " ++ error.message

/-- The change under construction: where it starts in the view and how many lines it has
removed so far. -/
structure OpenRun where
  start : Nat
  removed : Nat
  deriving DecidableEq, Repr

/-- A session holds no text of its own except what it removed; the buffer is passed to every
operation. -/
structure Session where
  bufferId : BufferId
  stream : StreamId
  state : SessionState
  range : LineRange
  initial : List String
  tracker : Tracker
  registry : Registry
  cursor : Nat
  openRun : Option OpenRun
  committed : List String
  applied : Nat
  running : Bool
  listening : Bool
  cancelled : Bool
  deriving DecidableEq, Repr

namespace Session

def start (bufferId : BufferId) (stream : StreamId) (buffer : Buffer) (range : LineRange) :
    Except SessionError Session :=
  if range.first ≤ range.last ∧ range.last < buffer.lineCount then
    .ok {
      bufferId, stream, range
      state := .streaming
      initial := buffer.linesIn range.first (range.last + 1)
      tracker := Tracker.empty
      registry := Registry.empty stream
      cursor := range.first
      openRun := none
      committed := []
      applied := 0
      running := false
      listening := false
      cancelled := false }
  else .error (.invalidRange range buffer.lineCount)

def overlay (session : Session) : Overlay :=
  ⟨session.registry.blocks, session.tracker.added, session.tracker.ghosts⟩

def statusUpdate (session : Session) (buffer : Buffer) (status : Status) : StatusUpdate :=
  ⟨session.bufferId, session.stream, status, session.registry.blocks.length, buffer.text⟩

def announce (session : Session) (buffer : Buffer) (status : Status) : List Event :=
  [.status (session.statusUpdate buffer status), .overlay session.bufferId session.overlay]

def describe (session : Session) (label : StreamId → String) : String :=
  "DiffSession \x7b buffer_id: BufferId(" ++ Text.quoted session.bufferId.name ++
    "), stream_id: StreamId(" ++ label session.stream ++ "), state: " ++
    session.state.title ++ ", cursor: " ++ toString session.cursor ++ ", block_count: " ++
    toString session.registry.blocks.length ++ ", .. \x7d"

def sync (session : Session) : Except Fault Session := do
  let (_, registry) ← session.registry.sync session.tracker.spans
  return { session with registry }

end Session

structure Turn (α : Type) where
  session : Session
  buffer : Buffer
  events : List Event
  outcome : Except SessionError α

def Session.refuse {α : Type} (session : Session) (buffer : Buffer) (error : SessionError) :
    Turn α :=
  ⟨session, buffer, [], .error error⟩

end Redline
