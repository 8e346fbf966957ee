import Redline.Session.State

namespace Redline

inductive BlockRef where
  | at (index : Nat)
  | named (label : String)
  deriving DecidableEq, Repr

structure Legend where
  streams : List StreamId
  blocks : List BlockId
  deriving DecidableEq, Repr

namespace Legend

def empty : Legend := ⟨[], []⟩

def showStream (legend : Legend) (stream : StreamId) : Legend :=
  if stream ∈ legend.streams then legend
  else { legend with streams := legend.streams ++ [stream] }

def showBlock (legend : Legend) (id : BlockId) : Legend :=
  if id ∈ legend.blocks then legend
  else { legend with blocks := legend.blocks ++ [id] }

def showBlocks (legend : Legend) (blocks : List Block) : Legend :=
  blocks.foldl (fun legend block => legend.showBlock block.id) legend

def showEvent (legend : Legend) : Event → Legend
  | .status update => legend.showStream update.stream
  | .overlay _ overlay => legend.showBlocks overlay.blocks

def showEvents (legend : Legend) (events : List Event) : Legend := events.foldl showEvent legend

def streamLabel (legend : Legend) (stream : StreamId) : String :=
  match legend.streams.idxOf? stream with
  | some index => s!"s{index + 1}"
  | none => "unknown"

def blockLabel (legend : Legend) (id : BlockId) : String :=
  match legend.blocks.idxOf? id with
  | some index => s!"b{index + 1}"
  | none => "unknown"

/-- The id that stands for a block which does not exist. -/
def nobody : BlockId := ⟨⟨0⟩, 0⟩

def resolve (legend : Legend) (blocks : List Block) : BlockRef → BlockId
  | .at index => ((blocks[index]?).map Block.id).getD nobody
  | .named label => (legend.blocks.find? (fun id => legend.blockLabel id == label)).getD nobody

end Legend

end Redline
