import Redline.Edit
import Redline.Tracker

/-! The blocks of a session: spans of tracked rows that keep their identity while rows move. -/

namespace Redline

/-- One change that is accepted or rejected as a whole: `red` ghost rows from row `start` on,
followed by `green` added rows. -/
structure Block where
  id : BlockId
  start : Nat
  red : Nat
  green : Nat
  deriving DecidableEq, Repr

namespace Block

def span (block : Block) : Span := ⟨block.start, block.red, block.green⟩

def stop (block : Block) : Except Fault Nat := do
  Row.add (← Row.add block.start block.red) block.green

end Block

structure Registry where
  stream : StreamId
  minted : Nat
  blocks : List Block
  deriving DecidableEq, Repr

namespace Registry

def empty (stream : StreamId) : Registry := ⟨stream, 0, []⟩

def clear (registry : Registry) : Registry := { registry with blocks := [] }

def get? (registry : Registry) (id : BlockId) : Option Block :=
  registry.blocks.find? (fun block => block.id == id)

def remove (registry : Registry) (id : BlockId) : Option Block × Registry :=
  (registry.get? id,
    { registry with blocks := registry.blocks.eraseP (fun block => block.id == id) })

def checkOrder : List Block → Except Fault Unit
  | first :: second :: rest => do
      if second.start < (← first.stop) then
        throw (.registryCorrupted (.overlap first.start second.start))
      checkOrder (second :: rest)
  | _ => .ok ()

def check (registry : Registry) : Except Fault Unit :=
  match registry.blocks.find? (fun block => block.red + block.green == 0) with
  | some block => .error (.registryCorrupted (.emptyBlock block.id))
  | none => checkOrder registry.blocks

def cutsOf (registry : Registry) (span : Span) (stop : Nat) : List Nat :=
  let starts := registry.blocks.map Block.start
  (starts.drop (bisect (fun start => decide (start ≤ span.start)) starts)).takeWhile
    (fun start => decide (start < stop))

def cut (ghostStop start : Nat) : List Nat → Except Fault (List Span)
  | [] => .ok []
  | stop :: stops =>
      if stop < start then .error (.crossedBounds start stop)
      else do
        let ghosts := max start (min ghostStop stop)
        let rest ← cut ghostStop stop stops
        return ⟨start, ghosts - start, stop - ghosts⟩ :: rest

/-- Cuts a span at every known start strictly inside it, so that blocks which an edit has
brought together stay apart. -/
def split (registry : Registry) (span : Span) : Except Fault (List Span) := do
  let ghostStop ← Row.add span.start span.red
  let stop ← Row.add ghostStop span.green
  cut ghostStop span.start (registry.cutsOf span stop ++ [stop])

def idAt? (registry : Registry) (start : Nat) : Option BlockId :=
  match bisect (fun block : Block => decide (block.start ≤ start)) registry.blocks with
  | 0 => none
  | found + 1 =>
      match registry.blocks[found]? with
      | some block => if block.start = start then some block.id else none
      | none => none

def adopt (registry : Registry) : Nat → List Span → Nat × List Block
  | minted, [] => (minted, [])
  | minted, span :: spans =>
      match registry.idAt? span.start with
      | some id =>
          let (last, blocks) := registry.adopt minted spans
          (last, ⟨id, span.start, span.red, span.green⟩ :: blocks)
      | none =>
          let (last, blocks) := registry.adopt (minted + 1) spans
          (last, ⟨⟨registry.stream, minted⟩, span.start, span.red, span.green⟩ :: blocks)

/-- Replaces the blocks by those of the given spans, and counts the new ones. Blocks whose
start begins no span are dropped. -/
def sync (registry : Registry) (spans : List Span) : Except Fault (Nat × Registry) := do
  let parts ← spans.mapM registry.split
  let (minted, blocks) := registry.adopt registry.minted parts.flatten
  let next := { registry with minted, blocks }
  next.check
  return (minted - registry.minted, next)

def shiftFrom (registry : Registry) (line : Nat) (offset : Int) : Except Fault Registry := do
  let blocks ← registry.blocks.mapM fun block => do
    return { block with start := ← Row.moveFrom line offset block.start }
  return { registry with blocks }

def survives (shift : RowShift) (block : Block) : Except Fault Bool :=
  if 0 < block.red then .ok true
  else do
    let lost ← shift.deletedWithin block.start (← block.stop)
    return decide (lost < block.green)

def survivors (shift : RowShift) : List Block → Except Fault (List Block)
  | [] => .ok []
  | block :: rest => do
      let kept ← survives shift block
      let others ← survivors shift rest
      return if kept then block :: others else others

/-- Moves block starts the way an edit moved rows, and drops the blocks that keep no row. The
numbers of rows are left to the next `sync`. -/
def remap (registry : Registry) (shift : RowShift) : Except Fault Registry := do
  let kept ← survivors shift registry.blocks
  let blocks ← kept.mapM fun block => do
    return { block with start := ← shift.apply block.start }
  return { registry with blocks }

end Registry

end Redline
