import Redline.Broadcast
import Redline.Legend
import Redline.Manager.Request
import Redline.Manager.Run

namespace Redline

inductive Step where
  | start (id : BufferId) (document handle : String) (range : LineRange)
  | resolve (id : BufferId) (block : BlockRef) (accept : Bool)
  | query (id : BufferId)
  | cancelHandle (handle : String)
  | other (id : Option BufferId) (request : Request)
  deriving DecidableEq, Repr

structure Workbench where
  manager : Manager
  channel : Channel Event
  handles : Table String Handle
  named : List BufferId
  legend : Legend

namespace Legend

def showReport (legend : Legend) (report : Report) : Legend :=
  let legend :=
    match report.stream with
    | some stream => legend.showStream stream
    | none => legend
  legend.showBlocks report.blocks

def showAnswer (legend : Legend) : Answer → Legend
  | .started handle => legend.showStream handle.stream
  | .resolved resolution => legend.showBlock resolution.block.id
  | .report report => legend.showReport report
  | _ => legend

end Legend

namespace Workbench

def subscriber : String := "host"

def ofManager (manager : Manager) : Except Fault Workbench := do
  let channel ← Channel.create manager.settings.eventCapacity
  return ⟨manager, channel.subscribe subscriber, .empty, [], .empty⟩

def name (bench : Workbench) (id : BufferId) : Workbench :=
  if id ∈ bench.named then bench else { bench with named := bench.named ++ [id] }

def publish (bench : Workbench) (events : List Event) : Workbench :=
  { bench with channel := bench.channel.publishAll events }

def requestOf (bench : Workbench) : Step → Option BufferId × Request
  | .start id document _ range => (some id, .start id document range)
  | .resolve id block accept =>
      (some id, .resolve id (bench.legend.resolve (bench.manager.blocks id) block) accept)
  | .query id => (some id, .query id)
  | .cancelHandle handle =>
      (none, .fire (((bench.handles.get? handle).map Handle.stream).getD ⟨0⟩))
  | .other id request => (id, request)

def keepHandle (bench : Workbench) (step : Step) (answer : Answer) : Workbench :=
  match step, answer with
  | .start _ _ name _, .started handle => { bench with handles := bench.handles.set name handle }
  | _, _ => bench

def perform (bench : Workbench) (step : Step) : Except Fault (Workbench × Answer) := do
  let (named, request) := bench.requestOf step
  let (manager, events, answer) ← bench.manager.serve request
  let bench := { bench with manager, legend := bench.legend.showAnswer answer }
  let bench := (bench.publish events).keepHandle step answer
  return (named.elim bench bench.name, answer)

def drain (bench : Workbench) : List (Reading Event) × Workbench :=
  let (readings, channel) := bench.channel.drain subscriber
  let legend := readings.foldl (fun legend reading =>
    match reading with
    | .item event => legend.showEvent event
    | _ => legend) bench.legend
  (readings, { bench with channel, legend })

def survey (bench : Workbench) : List (BufferId × Report) × Workbench :=
  let ids := bench.named.mergeSort fun first second => decide (first.name ≤ second.name)
  let reports := ids.map fun id => (id, bench.manager.report id)
  let legend := reports.foldl (fun legend report => legend.showReport report.2) bench.legend
  (reports, { bench with legend })

end Workbench

end Redline
