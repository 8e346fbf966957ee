import Redline.Fault
import Redline.Settings.Value
import Redline.Table

namespace Redline.Settings

/-- A step of a path. A negative index counts from the end of a list. -/
inductive Step where
  | key (name : String)
  | index (index : Int)
  deriving DecidableEq, Repr

namespace Step

def isNameChar (character : Char) : Bool :=
  character.isDigit || decide ('a' ≤ character ∧ character ≤ 'z') || character = '_' ||
    character = '-'

def isGap (character : Char) : Bool := character = ' ' || character = '\t'

def trimGaps (text : List Char) : List Char :=
  ((text.dropWhile isGap).reverse.dropWhile isGap).reverse

/-- The index in front of a closing bracket. It has a sign only if it is negative. -/
def subscript? (text : List Char) : Option Step :=
  let digits := trimGaps text.dropLast
  if text.getLast? = some ']' ∧ digits.head? ≠ some '+' then (integer? digits).map index else none

def ofPart? (part : List Char) : Option (List Step) :=
  match part.splitOn '[' with
  | [] => none
  | name :: subscripts => do
      if name.isEmpty ∨ ¬name.all isNameChar then none
      return key (String.ofList name) :: (← subscripts.mapM subscript?)

end Step

def namePrefix : List Char := "vdiff__".toList

def pointed : List Char → List Char
  | '_' :: '_' :: rest => '.' :: pointed rest
  | character :: rest => character :: pointed rest
  | [] => []

def path? (name : String) : Option (List Step) := do
  let name := (Text.lower name).toList
  if ¬namePrefix.isPrefixOf name then none
  let parts ← ((pointed (name.drop namePrefix.length)).splitOn '.').mapM Step.ofPart?
  return parts.flatten

inductive Node where
  | unset
  | value (value : Value)
  | list (items : List Node)
  | table (fields : Table String Node)

inductive Slot where
  /-- To a place counted from the start, which may lie behind the end. -/
  | at (place : Nat)
  /-- To the first of so many places in front of the list. -/
  | before (count : Nat)
  deriving DecidableEq, Repr

def Slot.ofIndex (index : Int) (length : Nat) : Slot :=
  if 0 ≤ index then .at index.toNat
  else if index.natAbs ≤ length then .at (length - index.natAbs)
  else .before (index.natAbs - length)

namespace Node

def fields : Node → Table String Node
  | table fields => fields
  | _ => .empty

def items : Node → List Node
  | list items => items
  | _ => []

def listLimit : Nat := 0x100000000000000

def makeRoom (items : List Node) : Slot → Except Fault (Nat × List Node)
  | .at place =>
      if place < items.length then .ok (place, items)
      else if listLimit ≤ place then .error .capacityOverflow
      else .ok (place, items ++ List.replicate (place + 1 - items.length) unset)
  | .before count =>
      if listLimit < count then .error .capacityOverflow
      else .ok (0, List.replicate count unset ++ items)

/-- Puts a value at the end of a path. What is no table or list, but should be one, gives way. -/
def put (new : Value) : List Step → Node → Except Fault Node
  | [], _ => .ok (value new)
  | .key name :: path, node => do
      let child ← put new path ((node.fields.get? name).getD unset)
      return table (node.fields.set name child)
  | .index index :: path, node => do
      let (place, items) ← makeRoom node.items (.ofIndex index node.items.length)
      let child ← put new path (items[place]?.getD unset)
      return list (items.set place child)

def label : Node → String
  | unset => "unit value"
  | value found => found.label
  | list _ => "sequence"
  | table _ => "map"

end Node

end Redline.Settings
