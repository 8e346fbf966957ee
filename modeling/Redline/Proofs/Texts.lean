import Mathlib
import Redline.Buffer

namespace Redline

namespace Text

theorem joinLines_cons (line : List Char) {lines : List (List Char)} (some : lines ≠ []) :
    joinLines (line :: lines) = line ++ '\n' :: joinLines lines := by
  obtain ⟨next, later, rfl⟩ := List.exists_cons_of_ne_nil some
  rw [joinLines, List.intercalate_cons_cons, List.append_assoc]
  rfl

theorem splitLines_joinLines {lines : List (List Char)} (some : lines ≠ []) :
    splitLines (joinLines lines) = lines.flatMap splitLines := by
  induction lines with
  | nil => exact absurd rfl some
  | cons line lines ih =>
      by_cases last : lines = []
      · subst last
        rw [joinLines, List.intercalate_singleton, List.flatMap_singleton]
      · rw [joinLines_cons line last, splitLines_join, ih last, List.flatMap_cons]

end Text

namespace Buffer

variable {buffer : Buffer} {text : String}

theorem lines_ofText_single (single : '\n' ∉ text.toList) : (ofText text).lines = [text] := by
  rw [ofText, Text.splitLines_single single, List.map_singleton, String.ofList_toList]

theorem lines_ofText_text (some : buffer.lines ≠ []) :
    (ofText buffer.text).lines = buffer.lines.flatMap fun line => (ofText line).lines := by
  have joined : buffer.lines.map String.toList ≠ [] := mt List.map_eq_nil_iff.mp some
  calc (ofText buffer.text).lines
      = (Text.splitLines (Text.joinLines (buffer.lines.map String.toList))).map String.ofList := by
        rw [ofText, text, String.toList_ofList]
    _ = ((buffer.lines.map String.toList).flatMap Text.splitLines).map String.ofList := by
        rw [Text.splitLines_joinLines joined]
    _ = buffer.lines.flatMap fun line => (ofText line).lines := by
        rw [List.flatMap_map, List.map_flatMap]
        rfl

theorem lineCount_ofText_text (some : buffer.lines ≠ []) :
    (ofText buffer.text).lineCount =
      (buffer.lines.map fun line => line.toList.count '\n').sum + buffer.lineCount := by
  calc (ofText buffer.text).lineCount
      = (buffer.lines.map fun line => (ofText line).lineCount).sum := by
        rw [lineCount, lines_ofText_text some, List.length_flatMap]
        rfl
    _ = (buffer.lines.map fun line => line.toList.count '\n' + 1).sum := by
        simp only [lineCount_ofText]
    _ = (buffer.lines.map fun line => line.toList.count '\n').sum + buffer.lineCount := by
        rw [List.sum_map_add, List.map_const', List.sum_replicate_nat, Nat.mul_one, lineCount]

theorem lines_ofText_text_iff : (ofText buffer.text).lines = buffer.lines ↔
    buffer.lines ≠ [] ∧ ∀ line ∈ buffer.lines, '\n' ∉ line.toList := by
  constructor
  · intro same
    have some : buffer.lines ≠ [] := by
      rw [← same]
      exact List.length_pos_iff.mp (lineCount_ofText_pos _)
    refine ⟨some, ?_⟩
    intro line member
    -- The text has as many lines as the buffer, so there is no newline to count.
    have longer := lineCount_ofText_text some
    have equal : (ofText buffer.text).lineCount = buffer.lineCount := congrArg List.length same
    have none : (buffer.lines.map fun line => line.toList.count '\n').sum = 0 := by omega
    apply List.count_eq_zero.mp
    exact List.sum_eq_zero_iff_forall_eq_nat.mp none _ (List.mem_map_of_mem member)
  · rintro ⟨some, single⟩
    calc (ofText buffer.text).lines
        = buffer.lines.flatMap fun line => (ofText line).lines := lines_ofText_text some
      _ = buffer.lines.flatMap fun line => [line] :=
          List.flatMap_congr fun line member => lines_ofText_single (single line member)
      _ = buffer.lines := List.flatMap_singleton' _

inductive Call where
  | insert (line : Nat) (texts : List String)
  | delete (line count : Nat)
  deriving DecidableEq, Repr

def Call.texts : Call → List String
  | .insert _ texts => texts
  | .delete _ _ => []

/-- The lines that a call gives back, and the buffer after it. If the call is refused, that is the
buffer as it was. -/
def perform (buffer : Buffer) : Call → Except BufferError (List String) × Buffer
  | .insert line texts =>
      match buffer.insert line texts with
      | .ok after => (.ok [], after)
      | .error error => (.error error, buffer)
  | .delete line count =>
      match buffer.delete line count with
      | .ok (taken, after) => (.ok taken, after)
      | .error error => (.error error, buffer)

def performAll (buffer : Buffer) (calls : List Call) : Buffer :=
  calls.foldl (fun buffer call => (buffer.perform call).2) buffer

section Passing

variable {after : Buffer} {line count : Nat} {texts taken : List String}

theorem insert_perm (inserted : buffer.insert line texts = .ok after) :
    after.lines.Perm (texts ++ buffer.lines) := by
  rw [insert] at inserted
  split at inserted
  · obtain rfl := Except.ok.inj inserted
    calc (buffer.lines.take line ++ texts ++ buffer.lines.drop line).Perm
          (texts ++ (buffer.lines.take line ++ buffer.lines.drop line)) := by
          rw [List.append_assoc]
          exact List.perm_append_comm_assoc _ _ _
      _ = texts ++ buffer.lines := by rw [List.take_append_drop]
  · cases inserted

theorem delete_perm (deleted : buffer.delete line count = .ok (taken, after)) :
    (taken ++ after.lines).Perm buffer.lines := by
  rw [delete] at deleted
  split at deleted
  · obtain ⟨rfl, rfl⟩ := Prod.mk.inj (Except.ok.inj deleted)
    have rest : (buffer.lines.drop line).take count ++ buffer.lines.drop (line + count) =
        buffer.lines.drop line := by
      rw [← List.drop_drop, List.take_append_drop]
    calc ((buffer.lines.drop line).take count ++
            (buffer.lines.take line ++ buffer.lines.drop (line + count))).Perm
          (buffer.lines.take line ++
            ((buffer.lines.drop line).take count ++ buffer.lines.drop (line + count))) :=
          List.perm_append_comm_assoc _ _ _
      _ = buffer.lines := by rw [rest, List.take_append_drop]
  · cases deleted

/-- A call is refused and changes nothing, or no line is lost and none comes from elsewhere. -/
theorem perform_cases (buffer : Buffer) (call : Call) :
    (∃ error, buffer.perform call = (.error error, buffer)) ∨
      ∃ taken after, buffer.perform call = (.ok taken, after) ∧
        (taken ++ after.lines).Perm (call.texts ++ buffer.lines) := by
  cases call with
  | insert line texts =>
      rw [perform]
      cases inserted : buffer.insert line texts with
      | error error => exact .inl ⟨error, rfl⟩
      | ok after => exact .inr ⟨[], after, rfl, insert_perm inserted⟩
  | delete line count =>
      rw [perform]
      cases deleted : buffer.delete line count with
      | error error => exact .inl ⟨error, rfl⟩
      | ok result => exact .inr ⟨result.1, result.2, rfl, delete_perm deleted⟩

end Passing

theorem mem_perform {call : Call} (member : text ∈ (buffer.perform call).2.lines) :
    text ∈ call.texts ∨ text ∈ buffer.lines := by
  rcases perform_cases buffer call with ⟨error, refused⟩ | ⟨taken, after, done, passed⟩
  · rw [refused] at member
    exact .inr member
  · rw [done] at member
    exact List.mem_append.mp (passed.subset (List.mem_append_right taken member))

theorem mem_performAll {calls : List Call} (member : text ∈ (buffer.performAll calls).lines) :
    text ∈ buffer.lines ∨ ∃ call ∈ calls, text ∈ call.texts := by
  induction calls generalizing buffer with
  | nil => exact .inl member
  | cons call calls ih =>
      rcases ih member with early | ⟨later, among, came⟩
      · rcases mem_perform early with came | early
        · exact .inr ⟨call, List.mem_cons_self, came⟩
        · exact .inl early
      · exact .inr ⟨later, List.mem_cons_of_mem _ among, came⟩

theorem insert_refused {line : Nat} (beyond : buffer.lineCount < line) (texts : List String) :
    buffer.insert line texts = .error (.lineOutOfRange line buffer.lineCount) :=
  if_neg (Nat.not_le.mpr beyond)

/-- A text is the text of its lines, and has one more of them than newlines. Whatever calls a buffer
has gone through, its text names its lines exactly if there are any and no newline stands in one of
them. Its lines were there at the start or came with a call, a refused call changes nothing, and
lines that are inserted at any place up to the end are given back when they are deleted. -/
theorem text_names_lines :
    (∀ text, (ofText text).text = text ∧
      (ofText text).lineCount = text.toList.count '\n' + 1) ∧
    ∀ (start : List String) (calls : List Call),
      let buffer := (Buffer.mk start).performAll calls
      ((ofText buffer.text).lines = buffer.lines ↔
        buffer.lines ≠ [] ∧ ∀ line ∈ buffer.lines, '\n' ∉ line.toList) ∧
      (∀ line ∈ buffer.lines, line ∈ start ∨ ∃ call ∈ calls, line ∈ call.texts) ∧
      (∀ call, (∃ error, buffer.perform call = (.error error, buffer)) ∨
        ∃ taken after, buffer.perform call = (.ok taken, after) ∧
          (taken ++ after.lines).Perm (call.texts ++ buffer.lines)) ∧
      ∀ (line : Nat) (texts : List String),
        (line ≤ buffer.lineCount → ∃ after, buffer.insert line texts = .ok after ∧
          after.delete line texts.length = .ok (texts, buffer)) ∧
        (buffer.lineCount < line →
          buffer.insert line texts = .error (.lineOutOfRange line buffer.lineCount)) := by
  constructor
  · intro text
    exact ⟨text_ofText text, lineCount_ofText text⟩
  · intro start calls buffer
    refine ⟨lines_ofText_text_iff, fun _ member => mem_performAll member, perform_cases buffer, ?_⟩
    intro line texts
    exact ⟨delete_insert texts, fun beyond => insert_refused beyond texts⟩

/-- A carriage return and empty lines are kept. A line that comes with a newline is read as two. -/
theorem edited_text_names_lines :
    let start := ["a\r", "", "b"]
    let calls := [.insert 3 ["", "c"], .delete 1 9, .delete 2 1, .insert 9 ["x"]]
    let buffer := (Buffer.mk start).performAll calls
    let broken := (Buffer.mk start).performAll (calls ++ [.insert 1 ["p\nq"]])
    buffer.lines = ["a\r", "", "", "c"] ∧ (ofText buffer.text).lines = buffer.lines ∧
      broken.lines = ["a\r", "p\nq", "", "", "c"] ∧ (ofText broken.text).lines ≠ broken.lines ∧
      4 ≤ buffer.lineCount ∧
      (∃ after, buffer.insert 4 ["\n", ""] = .ok after ∧
        after.delete 4 2 = .ok (["\n", ""], buffer)) ∧
      buffer.lineCount < 5 ∧ buffer.insert 5 ["x"] = .error (.lineOutOfRange 5 4) := by
  intro start calls buffer broken
  have edited : buffer.lines = ["a\r", "", "", "c"] := by decide
  have ruined : broken.lines = ["a\r", "p\nq", "", "", "c"] := by decide
  have fits : 4 ≤ buffer.lineCount := by decide
  have beyond : buffer.lineCount < 5 := by decide
  obtain ⟨names, _, _, edits⟩ := text_names_lines.2 start calls
  obtain ⟨misnames, _⟩ := text_names_lines.2 start (calls ++ [.insert 1 ["p\nq"]])
  refine ⟨edited, names.mpr ?_, ruined, ?_, fits, (edits 4 ["\n", ""]).1 fits, beyond,
    (edits 5 ["x"]).2 beyond⟩
  · rw [edited]
    decide
  · intro same
    have single := (misnames.mp same).2 "p\nq"
    rw [ruined] at single
    exact single (by decide) (by decide)

end Buffer

end Redline
