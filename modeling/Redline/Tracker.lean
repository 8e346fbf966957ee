import Redline.Fault

/-! The rows a review keeps track of. A view shows the lines of the live buffer with one ghost
row for every removed line; a ghost row stands above the live line that followed it. All row
numbers here count rows of the view. -/

namespace Redline

structure AddedRange where
  start : Nat
  count : Nat
  deriving DecidableEq, Repr

def AddedRange.stop (range : AddedRange) : Nat := range.start + range.count

structure Ghost where
  row : Nat
  text : String
  deriving DecidableEq, Repr

/-- `red` ghost rows from row `start` on, and `green` added rows right below them. -/
structure Span where
  start : Nat
  red : Nat
  green : Nat
  deriving DecidableEq, Repr

def Span.stop (span : Span) : Nat := span.start + span.red + span.green

structure Tracker where
  added : List AddedRange
  ghosts : List Ghost
  deriving DecidableEq, Repr

namespace Tracker

def empty : Tracker := ⟨[], []⟩

def isEmpty (tracker : Tracker) : Bool := tracker.added.isEmpty && tracker.ghosts.isEmpty

def units (tracker : Tracker) : List (Nat × Nat) :=
  tracker.added.map (fun range => (range.start, range.stop)) ++
    tracker.ghosts.map (fun ghost => (ghost.row, ghost.row + 1))

def ascending : List Nat → Bool
  | first :: second :: rest => decide (first ≤ second) && ascending (second :: rest)
  | _ => true

def unitLe (first second : Nat × Nat) : Bool :=
  decide (first.1 < second.1 ∨ first.1 = second.1 ∧ first.2 ≤ second.2)

def insertUnit (unit : Nat × Nat) : List (Nat × Nat) → List (Nat × Nat)
  | [] => [unit]
  | other :: rest =>
      if unitLe unit other then unit :: other :: rest else other :: insertUnit unit rest

def sortUnits : List (Nat × Nat) → List (Nat × Nat)
  | [] => []
  | unit :: rest => insertUnit unit (sortUnits rest)

def overlap? : List (Nat × Nat) → Option TrackerViolation
  | first :: second :: rest =>
      if second.1 < first.2 then some (.overlap first.1 first.2 second.1 second.2)
      else overlap? (second :: rest)
  | _ => none

/-- The first rule that the tracked rows break: ranges hold rows, ranges and ghosts are in
order, and no row belongs to two of them. -/
def violation? (tracker : Tracker) : Option TrackerViolation :=
  match tracker.added.find? (fun range => range.count == 0) with
  | some range => some (.emptyRange range.start)
  | none =>
      if ascending (tracker.added.map AddedRange.start) &&
          ascending (tracker.ghosts.map Ghost.row) then
        overlap? (sortUnits tracker.units)
      else some .outOfOrder

def fits (tracker : Tracker) : Bool := tracker.units.all (fun unit => decide (unit.2 < rowLimit))

def checked (tracker : Tracker) : Except Fault Tracker :=
  if tracker.fits then
    match tracker.violation? with
    | none => .ok tracker
    | some violation => .error (.trackerCorrupted violation)
  else .error .additionOverflow

/-- Puts a range in its place, or makes the range that ends right there longer. -/
def insertAdded (start count : Nat) : List AddedRange → List AddedRange
  | [] => [⟨start, count⟩]
  | range :: rest =>
      if start ≤ range.start then ⟨start, count⟩ :: range :: rest
      else if range.stop = start then ⟨range.start, range.count + count⟩ :: rest
      else range :: insertAdded start count rest

def addAdded (tracker : Tracker) (start count : Nat) : Except Fault Tracker :=
  if count = 0 then .ok tracker
  else checked { tracker with added := insertAdded start count tracker.added }

def ghostRows (row : Nat) : List String → List Ghost
  | [] => []
  | text :: texts => ⟨row, text⟩ :: ghostRows (row + 1) texts

def insertGhosts (row : Nat) (ghosts : List Ghost) (texts : List String) : List Ghost :=
  ghosts.takeWhile (fun ghost => decide (ghost.row < row)) ++ ghostRows row texts ++
    ghosts.dropWhile (fun ghost => decide (ghost.row < row))

def addRemoved (tracker : Tracker) (row : Nat) (texts : List String) : Except Fault Tracker :=
  checked { tracker with ghosts := insertGhosts row tracker.ghosts texts }

def shiftFrom (tracker : Tracker) (line : Nat) (offset : Int) : Except Fault Tracker :=
  if offset = 0 then .ok tracker
  else do
    let added ← tracker.added.mapM fun range => do
      return { range with start := ← Row.moveFrom line offset range.start }
    let ghosts ← tracker.ghosts.mapM fun ghost => do
      return { ghost with row := ← Row.moveFrom line offset ghost.row }
    checked ⟨added, ghosts⟩

def takeAdded (tracker : Tracker) (start : Nat) : Option AddedRange × Tracker :=
  (tracker.added.find? (fun range => range.start == start),
    { tracker with added := tracker.added.eraseP (fun range => range.start == start) })

def ghostRun (row : Nat) : Nat → List Ghost → List Ghost
  | count + 1, ghost :: rest =>
      if ghost.row = row then ghost :: ghostRun (row + 1) count rest else []
  | _, _ => []

def takeRemoved (tracker : Tracker) (row count : Nat) : List Ghost × Tracker :=
  let above := tracker.ghosts.takeWhile (fun ghost => ghost.row != row)
  let below := tracker.ghosts.dropWhile (fun ghost => ghost.row != row)
  let run := ghostRun row count below
  (run, { tracker with ghosts := above ++ below.drop run.length })

def removedBefore (tracker : Tracker) (row : Nat) : Nat :=
  (tracker.ghosts.takeWhile (fun ghost => decide (ghost.row < row))).length

/-- The buffer line a row shows, or that follows it if the row is a ghost. -/
def bufferLine (tracker : Tracker) (row : Nat) : Nat := row - tracker.removedBefore row

def stepOver (row : Nat) : List Ghost → Nat
  | [] => row
  | ghost :: rest => if ghost.row ≤ row then stepOver (row + 1) rest else row

def viewRow (tracker : Tracker) (line : Nat) : Nat := stepOver line tracker.ghosts

/-- The number of leading ghosts that stand above buffer line `line`, if `passed` ghosts are
above all of them. -/
def anchoredAbove (line passed : Nat) : List Ghost → Nat
  | [] => 0
  | ghost :: rest =>
      if ghost.row - passed < line then anchoredAbove line (passed + 1) rest + 1 else 0

/-- The row where lines inserted at buffer line `line` come to stand: right below the line
before it, above the ghosts between the two. -/
def anchorRow (tracker : Tracker) (line : Nat) : Nat :=
  line + anchoredAbove line 0 tracker.ghosts

def toViewLine (tracker : Tracker) (line : Nat) : Except Fault Nat := Row.fit (tracker.viewRow line)

def editAnchor (tracker : Tracker) (line : Nat) : Except Fault Nat :=
  Row.fit (tracker.anchorRow line)

inductive Piece where
  | ghost (row : Nat)
  | range (start count : Nat)
  deriving DecidableEq, Repr

def Piece.start : Piece → Nat
  | ghost row => row
  | range start _ => start

def pieces (tracker : Tracker) : List Piece :=
  (tracker.ghosts.map fun ghost => Piece.ghost ghost.row).merge
    (tracker.added.map fun range => Piece.range range.start range.count)
    (fun first second => decide (first.start ≤ second.start))

/-- A ghost joins the span that starts right below it; a range starts a span of its own. -/
def Piece.cover (piece : Piece) (spans : List Span) : List Span :=
  match piece, spans with
  | range start count, spans => ⟨start, 0, count⟩ :: spans
  | ghost row, [] => [⟨row, 1, 0⟩]
  | ghost row, span :: rest =>
      if span.start = row + 1 then ⟨row, span.red + 1, span.green⟩ :: rest
      else ⟨row, 1, 0⟩ :: span :: rest

def spans (tracker : Tracker) : List Span := tracker.pieces.foldr Piece.cover []

end Tracker

end Redline
