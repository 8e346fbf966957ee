import Redline.Fault
import Redline.Text.Lines

namespace Redline

inductive BufferError where
  | lineOutOfRange (line lineCount : Nat)
  deriving DecidableEq, Repr

def BufferError.message : BufferError → String
  | lineOutOfRange line lineCount => s!"Line {line} out of range (buffer has {lineCount} lines)"

structure Buffer where
  lines : List String
  deriving DecidableEq, Repr

namespace Buffer

def ofText (text : String) : Buffer :=
  ⟨(Text.splitLines text.toList).map String.ofList⟩

def text (buffer : Buffer) : String :=
  String.ofList (Text.joinLines (buffer.lines.map String.toList))

theorem text_ofText (text : String) : (ofText text).text = text := by
  have same : ((Text.splitLines text.toList).map String.ofList).map String.toList =
      Text.splitLines text.toList := by
    simp
  rw [Buffer.text, ofText, same, Text.joinLines_splitLines, String.ofList_toList]

def lineCount (buffer : Buffer) : Nat := buffer.lines.length

theorem lineCount_ofText (text : String) :
    (ofText text).lineCount = text.toList.count '\n' + 1 := by
  rw [lineCount, ofText, List.length_map, Text.length_splitLines]

theorem lineCount_ofText_pos (text : String) : 0 < (ofText text).lineCount := by
  rw [lineCount_ofText]
  exact Nat.succ_pos _

def line? (buffer : Buffer) (index : Nat) : Option String := buffer.lines[index]?

def linesIn (buffer : Buffer) (start stop : Nat) : List String :=
  (buffer.lines.take stop).drop start

/-- Inserts lines so that the first of them gets index `line`; the end of the buffer is a
place like any other. -/
def insert (buffer : Buffer) (line : Nat) (lines : List String) : Except BufferError Buffer :=
  if line ≤ buffer.lineCount then
    .ok ⟨buffer.lines.take line ++ lines ++ buffer.lines.drop line⟩
  else .error (.lineOutOfRange line buffer.lineCount)

/-- Takes `count` lines out. A span that runs past the end is refused with its last line. -/
def delete (buffer : Buffer) (line count : Nat) : Except BufferError (List String × Buffer) :=
  if line + count ≤ buffer.lineCount then
    .ok ((buffer.lines.drop line).take count,
      ⟨buffer.lines.take line ++ buffer.lines.drop (line + count)⟩)
  else
    .error (.lineOutOfRange (max (min (line + count) (rowLimit - 1) - 1) line) buffer.lineCount)

theorem delete_insert {buffer : Buffer} {line : Nat} (texts : List String)
    (inside : line ≤ buffer.lineCount) :
    ∃ after, buffer.insert line texts = .ok after ∧
      after.delete line texts.length = .ok (texts, buffer) := by
  refine ⟨_, if_pos inside, ?_⟩
  unfold lineCount at inside
  have front : (buffer.lines.take line).length = line := by
    rw [List.length_take]
    omega
  have both : (buffer.lines.take line ++ texts).length = line + texts.length := by
    rw [List.length_append, front]
  have room : line + texts.length ≤ lineCount
      ⟨buffer.lines.take line ++ texts ++ buffer.lines.drop line⟩ := by
    rw [lineCount, List.length_append, both]
    exact Nat.le_add_right _ _
  rw [delete, if_pos room, List.drop_left' both]
  simp only [List.append_assoc, List.drop_left' front, List.take_left' front, List.take_left,
    List.take_append_drop]

end Buffer

end Redline
