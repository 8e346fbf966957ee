import Redline.Fault
import Redline.Table

/-! A channel that keeps the latest items for any number of subscribers. A subscriber that falls
behind is told how many items it missed and goes on with the oldest one kept. -/

namespace Redline

inductive EventError where
  | channelClosed
  | lagged (missed : Nat)
  deriving DecidableEq, Repr

def EventError.message : EventError → String
  | channelClosed => "Event channel closed"
  | lagged missed => s!"Subscriber lagged, {missed} events skipped"

inductive Reading (α : Type) where
  | item (item : α)
  | pending
  | failed (error : EventError)
  deriving DecidableEq, Repr

/-- `kept` holds the latest items, oldest first; `sent` counts all items, and each subscriber
has the number of the item it wants next. -/
structure Channel (α : Type) where
  capacity : Nat
  kept : List α
  sent : Nat
  owned : Bool
  clones : Nat
  subscribers : Table String Nat
  deriving DecidableEq, Repr

namespace Channel

variable {α : Type}

def defaultCapacity : Nat := 256

/-- The ring holds a power of two of items, and at least one. -/
def ofCapacity (capacity : Nat) : Channel α where
  capacity := (max capacity 1).nextPowerOfTwo
  kept := []
  sent := 0
  owned := true
  clones := 0
  subscribers := .empty

def requestLimit : Nat := 0x7fffffffffffffff

/-- The greatest capacity for which a ring has room in the address space. -/
def capacityLimit : Nat := 0x100000000000000

def create (capacity : Nat) : Except Fault (Channel α) :=
  if requestLimit < capacity then .error .channelTooLarge
  else if capacityLimit < capacity then .error .capacityOverflow
  else .ok (ofCapacity capacity)

def isOpen (channel : Channel α) : Bool := channel.owned || decide (0 < channel.clones)

def clone (channel : Channel α) : Channel α :=
  if channel.isOpen then { channel with clones := channel.clones + 1 } else channel

def drop (channel : Channel α) : Channel α := { channel with owned := false }

def dropClone (channel : Channel α) : Channel α := { channel with clones := channel.clones - 1 }

def subscribe (channel : Channel α) (name : String) : Channel α :=
  if channel.isOpen then { channel with subscribers := channel.subscribers.set name channel.sent }
  else channel

def unsubscribe (channel : Channel α) (name : String) : Channel α :=
  { channel with subscribers := channel.subscribers.erase name }

def oldest (channel : Channel α) : Nat := channel.sent - channel.kept.length

def keepLast (count : Nat) (items : List α) : List α := items.drop (items.length - count)

/-- Without a subscriber an item is lost. -/
def publish (channel : Channel α) (item : α) : Channel α :=
  if channel.isOpen && decide (0 < channel.subscribers.size) then
    { channel with
      kept := keepLast channel.capacity (channel.kept ++ [item])
      sent := channel.sent + 1 }
  else channel

def publishAll (channel : Channel α) (items : List α) : Channel α := items.foldl publish channel

def read (channel : Channel α) (wanted : Nat) : Reading α × Nat :=
  if wanted < channel.oldest then (.failed (.lagged (channel.oldest - wanted)), channel.oldest)
  else
    match channel.kept[wanted - channel.oldest]? with
    | some item => (.item item, wanted + 1)
    | none => (if channel.isOpen then .pending else .failed .channelClosed, wanted)

def receive (channel : Channel α) (name : String) : Reading α × Channel α :=
  match channel.subscribers.get? name with
  | none => (.pending, channel)
  | some wanted =>
      let (reading, next) := channel.read wanted
      (reading, { channel with subscribers := channel.subscribers.set name next })

/-- Reads without waiting. A lag shows as nothing, but the subscriber has moved on. -/
def tryReceive (channel : Channel α) (name : String) : Option α × Channel α :=
  match channel.receive name with
  | (.item item, channel) => (some item, channel)
  | (_, channel) => (none, channel)

def drainUpTo (channel : Channel α) (name : String) : Nat → List (Reading α) × Channel α
  | 0 => ([], channel)
  | count + 1 =>
      match channel.receive name with
      | (.pending, channel) => ([], channel)
      | (.failed .channelClosed, channel) => ([], channel)
      | (reading, channel) =>
          let (readings, channel) := channel.drainUpTo name count
          (reading :: readings, channel)

def drain (channel : Channel α) (name : String) : List (Reading α) × Channel α :=
  channel.drainUpTo name (channel.kept.length + 1)

end Channel

end Redline
