import Redline.Session.Review
import Redline.Settings
import Redline.Table

namespace Redline

structure Opened where
  session : Session
  document : String
  deriving DecidableEq, Repr

structure Handle where
  buffer : BufferId
  stream : StreamId
  deriving DecidableEq, Repr

/-- `current` tells which session a buffer's requests go to. A session that is no longer
current is kept, because a run may still hold it. -/
structure Manager where
  settings : DiffSettings
  documents : Table String Buffer
  sessions : Table StreamId Opened
  current : Table BufferId StreamId
  started : Nat
  deriving DecidableEq, Repr

structure Reply (α : Type) where
  manager : Manager
  events : List Event
  outcome : Except SessionError α

namespace Manager

def ofDocuments (settings : DiffSettings) (documents : Table String Buffer) : Manager :=
  ⟨settings, documents, .empty, .empty, 0⟩

def document (manager : Manager) (name : String) : Buffer :=
  (manager.documents.get? name).getD ⟨[]⟩

def setDocument (manager : Manager) (name : String) (buffer : Buffer) : Manager :=
  { manager with documents := manager.documents.set name buffer }

def setSession (manager : Manager) (opened : Opened) : Manager :=
  { manager with sessions := manager.sessions.set opened.session.stream opened }

def opened? (manager : Manager) (id : BufferId) : Option Opened :=
  (manager.current.get? id).bind manager.sessions.get?

/-- Takes the session of a stream off the table, unless another one has taken its place. -/
def removeIfCurrent (manager : Manager) (handle : Handle) : Manager :=
  if manager.current.get? handle.buffer = some handle.stream then
    { manager with current := manager.current.erase handle.buffer }
  else manager

def operate {α : Type} (manager : Manager) (opened : Opened)
    (turn : Session → Buffer → Except Fault (Turn α)) : Except Fault (Reply α) := do
  let taken ← turn opened.session (manager.document opened.document)
  let manager := manager.setSession { opened with session := taken.session }
  return ⟨manager.setDocument opened.document taken.buffer, taken.events, taken.outcome⟩

def hasFired (manager : Manager) (stream : StreamId) : Bool :=
  match manager.sessions.get? stream with
  | some opened => opened.session.cancelled
  | none => false

def fire (manager : Manager) (stream : StreamId) : Manager :=
  match manager.sessions.get? stream with
  | some opened =>
      manager.setSession { opened with session := { opened.session with cancelled := true } }
  | none => manager

def discardCurrent (manager : Manager) (id : BufferId) : Manager :=
  match manager.opened? id with
  | some opened => manager.setSession { opened with session := opened.session.discard }
  | none => manager

end Manager

end Redline
