import Redline.Edit
import Redline.Tracker

namespace Redline

/-- Lines inserted strictly inside a range belong to it. -/
def AddedRange.grow (range : AddedRange) (row count : Nat) : AddedRange :=
  if range.start < row ∧ row < range.stop then { range with count := range.count + count }
  else range

namespace Tracker

def grown (tracker : Tracker) : RowShift → Tracker
  | .inserted first count =>
      { tracker with added := tracker.added.map (·.grow first count) }
  | _ => tracker

/-- Ranges lose their deleted rows, and are dropped when none is left; ghosts are kept. -/
def moved (tracker : Tracker) (shift : RowShift) : Tracker where
  added := (tracker.added.map fun range =>
    ⟨shift.move range.start, range.count - shift.lost range.start range.stop⟩).filter
      fun range => range.count != 0
  ghosts := tracker.ghosts.map fun ghost => { ghost with row := shift.move ghost.row }

/-- A list of this many row numbers, of eight bytes each, takes up half of the address space. -/
def rowListLimit : Nat := 0x1000000000000000

def shiftOf (tracker : Tracker) (line : Nat) (delta : Int) : Except Fault RowShift :=
  if delta = 0 then .ok .unmoved
  else if 0 < delta then do
    return .inserted (← tracker.editAnchor line) delta.toNat
  else do
    let stop ← Row.add line delta.natAbs
    if rowListLimit ≤ delta.natAbs then throw .capacityOverflow
    let rows ← (List.range' line (stop - line)).mapM tracker.toViewLine
    return .deleted rows

def applyEdit (tracker : Tracker) (line : Nat) (delta : Int) :
    Except Fault (RowShift × Tracker) := do
  let shift ← tracker.shiftOf line delta
  if delta = 0 then return (shift, tracker)
  let tracker ← checked ((tracker.grown shift).moved shift)
  return (shift, tracker)

end Tracker

end Redline
