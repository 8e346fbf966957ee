import Redline.Fault
import Redline.Text.Lines

namespace Redline

/-- Lines `start..=stop` were replaced by a text. -/
structure ExternalEdit where
  start : Nat
  stop : Nat
  text : String
  deriving DecidableEq, Repr

def countLimit : Nat := 0x7fffffffffffffff

def signedCount (count : Nat) : Int := Int.ofNat (min count countLimit)

/-- The change in the number of lines: newlines that came against line ends that went. -/
def ExternalEdit.lineDelta (edit : ExternalEdit) : Int :=
  signedCount (edit.text.toList.count '\n') - signedCount (edit.stop - edit.start)

/-- The number of elements that satisfy a test, of a list in which they come first. Tests the
element in the middle. If the test holds, the search goes on from that element
to the end, otherwise among as many elements from the start. -/
def bisect {α : Type} (test : α → Bool) (elements : List α) : Nat :=
  if elements.length ≤ 1 then elements.countP test
  else
    let half := elements.length / 2
    if (elements.drop half).head?.any test then half + bisect test (elements.drop half)
    else bisect test (elements.take (elements.length - half))
termination_by elements.length
decreasing_by
  · simp only [List.length_drop]; omega
  · simp only [List.length_take]; omega

inductive RowShift where
  | unmoved
  | inserted (first count : Nat)
  /-- The listed live rows, in ascending order, were deleted. -/
  | deleted (rows : List Nat)
  deriving DecidableEq, Repr

namespace RowShift

def deletedBefore (rows : List Nat) (row : Nat) : Nat := bisect (· < row) rows

def move (shift : RowShift) (row : Nat) : Nat :=
  match shift with
  | unmoved => row
  | inserted first count => if first ≤ row then row + count else row
  | deleted rows => row - deletedBefore rows row

def lost (shift : RowShift) (start stop : Nat) : Nat :=
  match shift with
  | deleted rows => deletedBefore rows stop - deletedBefore rows start
  | _ => 0

def apply (shift : RowShift) (row : Nat) : Except Fault Nat :=
  match shift with
  | unmoved => .ok row
  | inserted first count => if first ≤ row then Row.add row count else .ok row
  | deleted rows => Row.sub row (deletedBefore rows row)

def deletedWithin (shift : RowShift) (start stop : Nat) : Except Fault Nat :=
  match shift with
  | deleted rows => Row.sub (deletedBefore rows stop) (deletedBefore rows start)
  | _ => .ok 0

end RowShift

end Redline
