/-! Why an operation is abandoned: bookkeeping that no longer holds together, a row number that
does not fit a machine word, or a list that does not fit the address space. -/

namespace Redline

/-- Streams are numbered from 1 in the order in which their sessions start; no session
is given stream 0. -/
structure StreamId where
  number : Nat
  deriving DecidableEq, Repr

structure BlockId where
  stream : StreamId
  number : Nat
  deriving DecidableEq, Repr

structure BufferId where
  name : String
  deriving DecidableEq, Repr

/-- Row numbers and counts are words of 64 bits. -/
def rowLimit : Nat := 0x10000000000000000

inductive TrackerViolation where
  | emptyRange (start : Nat)
  | outOfOrder
  | overlap (firstStart firstStop secondStart secondStop : Nat)
  deriving DecidableEq, Repr

def TrackerViolation.message : TrackerViolation → String
  | emptyRange start => s!"empty added range at line {start}"
  | outOfOrder => "tracked rows out of order"
  | overlap firstStart firstStop secondStart secondStop =>
      s!"rows {firstStart}..{firstStop} overlap rows {secondStart}..{secondStop}"

inductive RegistryViolation where
  | emptyBlock (id : BlockId)
  | overlap (first second : Nat)
  deriving DecidableEq, Repr

def RegistryViolation.message : RegistryViolation → String
  | emptyBlock _ => "empty block"
  | overlap first second => s!"block at {first} overlaps block at {second}"

inductive Fault where
  | additionOverflow
  | subtractionOverflow
  | aboveFirstRow (row : Nat) (offset : Int)
  | crossedBounds (low high : Nat)
  /-- A list would take up more than half of the address space. -/
  | capacityOverflow
  | channelTooLarge
  | trackerCorrupted (violation : TrackerViolation)
  | registryCorrupted (violation : RegistryViolation)
  deriving DecidableEq, Repr

def Fault.message : Fault → String
  | additionOverflow => "attempt to add with overflow"
  | subtractionOverflow => "attempt to subtract with overflow"
  | aboveFirstRow row offset => s!"shifting line {row} by {offset} moves it above the first line"
  | crossedBounds low high => s!"min > max. min = {low}, max = {high}"
  | capacityOverflow => "capacity overflow"
  | channelTooLarge => "broadcast channel capacity exceeded `usize::MAX / 2`"
  | trackerCorrupted violation => "position tracker corrupted: " ++ violation.message
  | registryCorrupted violation => "block registry corrupted: " ++ violation.message

namespace Row

def fit (row : Nat) : Except Fault Nat :=
  if row < rowLimit then .ok row else .error .additionOverflow

def add (row count : Nat) : Except Fault Nat := fit (row + count)

def sub (row count : Nat) : Except Fault Nat :=
  if count ≤ row then .ok (row - count) else .error .subtractionOverflow

/-- Moves a row by a signed offset. Leaving the range of row numbers at either end is the
same fault. -/
def move (row : Nat) (offset : Int) : Except Fault Nat :=
  let moved := (row : Int) + offset
  if 0 ≤ moved ∧ moved < rowLimit then .ok moved.toNat else .error (.aboveFirstRow row offset)

def moveFrom (line : Nat) (offset : Int) (row : Nat) : Except Fault Nat :=
  if line ≤ row then move row offset else .ok row

end Row

end Redline
