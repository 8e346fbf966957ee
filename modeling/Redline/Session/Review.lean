import Redline.Edit
import Redline.Session.Streaming
import Redline.Tracker.Edit

namespace Redline

structure Resolution where
  block : Block
  remaining : Nat
  closed : Bool
  deriving DecidableEq, Repr

namespace Session

def forget (session : Session) (block : Block) (offset : Int) : Except Fault Session := do
  let tracker :=
    if 0 < block.red then (session.tracker.takeRemoved block.start block.red).2
    else session.tracker
  let tracker :=
    if 0 < block.green then (tracker.takeAdded (block.start + block.red)).2 else tracker
  let tracker ← tracker.shiftFrom block.start offset
  let registry ← (session.registry.remove block.id).2.shiftFrom block.start offset
  return { session with tracker, registry }

def ghostTexts (session : Session) (block : Block) : List String :=
  ((session.tracker.ghosts.drop (session.tracker.removedBefore block.start)).take block.red).map
    Ghost.text

def restore (session : Session) (buffer : Buffer) (block : Block) : Except Fault (Turn Unit) :=
  let line := session.tracker.bufferLine block.start
  if line + block.green ≤ buffer.lineCount then
    match buffer.delete line block.green with
    | .error error => .ok (session.refuse buffer (.buffer error))
    | .ok (_, emptied) =>
        match emptied.insert line (session.ghostTexts block) with
        | .error error => .ok (session.refuse emptied (.buffer error))
        | .ok restored => do
            let session ← session.forget block (-signedCount block.green)
            return ⟨session, restored, [], .ok ()⟩
  else .ok (session.refuse buffer (.streamDesync (line + block.green) buffer.lineCount))

def settle (session : Session) (buffer : Buffer) (block : Block) (accept : Bool) :
    Except Fault (Turn Unit) :=
  if accept then do
    let session ← session.forget block (-signedCount block.red)
    return ⟨session, buffer, [], .ok ()⟩
  else session.restore buffer block

/-- Accepts or rejects one block. The session closes with the last one. -/
def resolve (session : Session) (buffer : Buffer) (id : BlockId) (accept : Bool) :
    Except Fault (Turn Resolution) :=
  if session.state = .reviewing then
    match session.registry.get? id with
    | none => .ok (session.refuse buffer (.blockNotFound id))
    | some block => do
        let turn ← session.settle buffer block accept
        match turn.outcome with
        | .error error => return turn.session.refuse turn.buffer error
        | .ok () =>
            let session ← turn.session.sync
            let remaining := session.registry.blocks.length
            let (session, events) :=
              if remaining = 0 then session.close turn.buffer
              else (session, session.announce turn.buffer .done)
            return ⟨session, turn.buffer, events, .ok ⟨block, remaining, remaining == 0⟩⟩
  else .ok (session.refuse buffer (.invalidState "accept_reject_block" session.state))

def rejectAll (session : Session) (buffer : Buffer) : List Block → Except Fault (Turn Unit)
  | [] => .ok ⟨session, buffer, [], .ok ()⟩
  | block :: blocks => do
      let turn ← session.restore buffer block
      match turn.outcome with
      | .error _ => return turn
      | .ok () => turn.session.rejectAll turn.buffer blocks

/-- Resolves every block and closes the session. Blocks are rejected from the last to the
first, which leaves the places of those still to come as they are. -/
def clear (session : Session) (buffer : Buffer) (accept : Bool) : Except Fault (Turn Unit) := do
  let blocks := if accept then [] else session.registry.blocks.reverse
  let turn ← session.rejectAll buffer blocks
  match turn.outcome with
  | .error _ => return turn
  | .ok () =>
      let (session, events) := turn.session.close turn.buffer
      return ⟨session, turn.buffer, events, .ok ()⟩

/-- Follows an edit of the host. The answer tells whether the session was listening. -/
def applyEdit (session : Session) (buffer : Buffer) (line : Nat) (delta : Int) :
    Except Fault (Turn Bool) :=
  if session.listening then do
    let (shift, tracker) ← session.tracker.applyEdit line delta
    if shift = .unmoved then return ⟨session, buffer, [], .ok true⟩
    let registry ← session.registry.remap shift
    let session ← { session with tracker, registry }.sync
    let (session, events) :=
      if session.registry.blocks.isEmpty then session.close buffer
      else (session, session.announce buffer .done)
    return ⟨session, buffer, events, .ok true⟩
  else .ok ⟨session, buffer, [], .ok false⟩

end Session

end Redline
