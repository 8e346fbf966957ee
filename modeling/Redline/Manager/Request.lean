import Redline.Manager.State

namespace Redline

inductive Request where
  | start (id : BufferId) (document : String) (range : LineRange)
  | resolve (id : BufferId) (block : BlockId) (accept : Bool)
  | clear (id : BufferId) (accept : Bool)
  | externalEdit (id : BufferId) (line : Nat) (delta : Int)
  | textChange (id : BufferId) (edit : ExternalEdit)
  | cancel (id : BufferId)
  | fire (stream : StreamId)
  | query (id : BufferId)
  | count
  | describe
  | hostInsert (document : String) (line : Nat) (lines : List String)
  | hostDelete (document : String) (line count : Nat)
  deriving DecidableEq, Repr

structure Report where
  state : Option SessionState
  stream : Option StreamId
  blocks : List Block
  overlay : Option Overlay
  deriving DecidableEq, Repr

inductive Answer where
  | nothing
  | started (handle : Handle)
  | resolved (resolution : Resolution)
  | flag (flag : Bool)
  | report (report : Report)
  | number (number : Nat)
  | text (text : String)
  | lines (lines : List String)
  | refused (error : SessionError)
  | outOfRange (error : BufferError)
  deriving DecidableEq, Repr

namespace Manager

/-- Opens a session and makes it the current one of its buffer. The session it replaces, if
any, is silenced; if the range does not fit, that session is kept. -/
def start (manager : Manager) (id : BufferId) (document : String) (range : LineRange) :
    Reply Handle :=
  let stream : StreamId := ⟨manager.started + 1⟩
  match Session.start id stream (manager.document document) range with
  | .error error => ⟨manager, [], .error error⟩
  | .ok session =>
      let manager := (manager.discardCurrent id).setSession ⟨session, document⟩
      ⟨{ manager with
          current := manager.current.set id stream
          started := manager.started + 1 }, [], .ok ⟨id, stream⟩⟩

def resolve (manager : Manager) (id : BufferId) (block : BlockId) (accept : Bool) :
    Except Fault (Reply Resolution) :=
  match manager.opened? id with
  | none => .ok ⟨manager, [], .error (.sessionNotFound id)⟩
  | some opened => do
      let reply ← manager.operate opened fun session buffer => session.resolve buffer block accept
      match reply.outcome with
      | .error _ => return reply
      | .ok resolution =>
          if resolution.closed then
            let manager := reply.manager.removeIfCurrent ⟨id, opened.session.stream⟩
            return { reply with manager }
          else return reply

/-- Resolves every block and takes the session off the table, also when a block could not be
restored. -/
def clear (manager : Manager) (id : BufferId) (accept : Bool) : Except Fault (Reply Unit) :=
  match manager.opened? id with
  | none => .ok ⟨manager, [], .error (.sessionNotFound id)⟩
  | some opened => do
      let reply ← manager.operate opened fun session buffer => session.clear buffer accept
      let manager := reply.manager.removeIfCurrent ⟨id, opened.session.stream⟩
      return { reply with manager }

def externalEdit (manager : Manager) (id : BufferId) (line : Nat) (delta : Int) :
    Except Fault (Reply Unit) :=
  match manager.opened? id with
  | none => .ok ⟨manager, [], .error (.sessionNotFound id)⟩
  | some opened => do
      let turn ← opened.session.applyEdit (manager.document opened.document) line delta
      let next := manager.setSession { opened with session := turn.session }
      let next := next.setDocument opened.document turn.buffer
      let next :=
        if turn.session.state = .idle then next.removeIfCurrent ⟨id, opened.session.stream⟩
        else next
      return ⟨next, turn.events, .ok ()⟩

def textChange (manager : Manager) (id : BufferId) (edit : ExternalEdit) :
    Except Fault (Reply Unit) :=
  manager.externalEdit id edit.start edit.lineDelta

def cancel (manager : Manager) (id : BufferId) : Bool × Manager :=
  match manager.opened? id with
  | none => (false, manager)
  | some opened => (true, manager.fire opened.session.stream)

def overlay? (manager : Manager) (id : BufferId) : Option Overlay :=
  (manager.opened? id).map fun opened => opened.session.overlay

def blocks (manager : Manager) (id : BufferId) : List Block :=
  ((manager.opened? id).map fun opened => opened.session.registry.blocks).getD []

def state? (manager : Manager) (id : BufferId) : Option SessionState :=
  (manager.opened? id).map fun opened => opened.session.state

def stream? (manager : Manager) (id : BufferId) : Option StreamId := manager.current.get? id

def report (manager : Manager) (id : BufferId) : Report :=
  ⟨manager.state? id, manager.stream? id, manager.blocks id, manager.overlay? id⟩

def activeCount (manager : Manager) : Nat := manager.current.size

def describe (manager : Manager) : String :=
  "SessionManager \x7b session_count: " ++ toString manager.activeCount ++ ", settings: " ++
    manager.settings.describe ++ ", .. \x7d"

def answered {α : Type} (reply : Reply α) (answer : α → Answer) :
    Manager × List Event × Answer :=
  (reply.manager, reply.events,
    match reply.outcome with
    | .ok outcome => answer outcome
    | .error error => .refused error)

def serve (manager : Manager) : Request → Except Fault (Manager × List Event × Answer)
  | .start id document range => .ok (answered (manager.start id document range) .started)
  | .resolve id block accept => do
      return answered (← manager.resolve id block accept) .resolved
  | .clear id accept => do
      return answered (← manager.clear id accept) fun _ => .nothing
  | .externalEdit id line delta => do
      return answered (← manager.externalEdit id line delta) fun _ => .nothing
  | .textChange id edit => do
      return answered (← manager.textChange id edit) fun _ => .nothing
  | .cancel id =>
      let (found, manager) := manager.cancel id
      .ok (manager, [], .flag found)
  | .fire stream => .ok (manager.fire stream, [], .nothing)
  | .query id => .ok (manager, [], .report (manager.report id))
  | .count => .ok (manager, [], .number manager.activeCount)
  | .describe => .ok (manager, [], .text manager.describe)
  | .hostInsert name line lines =>
      match (manager.document name).insert line lines with
      | .ok buffer => .ok (manager.setDocument name buffer, [], .nothing)
      | .error error => .ok (manager, [], .outOfRange error)
  | .hostDelete name line count =>
      match (manager.document name).delete line count with
      | .ok (lines, buffer) => .ok (manager.setDocument name buffer, [], .lines lines)
      | .error error => .ok (manager, [], .outOfRange error)

end Manager

end Redline
