import Mathlib
import Redline.Proofs.TrailingReturn

/-! Scripts come to the same as their parts. What a script comes to is told by its lines as they
stand between newlines, so it does not matter where blank lines stand and how lines end. -/

namespace Redline

namespace Text

theorem splitLines_cons (character : Char) (text : List Char) :
    splitLines (character :: text) =
      if character = '\n' then [] :: splitLines text
      else (splitLines text).modifyHead (character :: ·) := by
  by_cases newline : character = '\n' <;>
    simp [splitLines, List.splitOn_cons_eq_if_modifyHead, newline]

theorem splitLines_return (text : List Char) :
    ∃ lines last, splitLines text = lines ++ [last] ∧
      splitLines (text ++ ['\r']) = lines ++ [last ++ ['\r']] := by
  induction text with
  | nil => exact ⟨[], [], rfl, by decide⟩
  | cons character text ih =>
      rcases ih with ⟨lines, last, split, splitReturn⟩
      rw [List.cons_append, splitLines_cons, splitLines_cons, split, splitReturn]
      by_cases newline : character = '\n'
      · rw [if_pos newline, if_pos newline]
        exact ⟨[] :: lines, last, rfl, rfl⟩
      · rw [if_neg newline, if_neg newline]
        rcases lines with _ | ⟨line, lines⟩
        · exact ⟨[], character :: last, rfl, rfl⟩
        · exact ⟨(character :: line) :: lines, last, rfl, rfl⟩

theorem mem_of_mem_splitLines {text line : List Char} {character : Char}
    (part : line ∈ splitLines text) (member : character ∈ line) : character ∈ text := by
  induction text generalizing line with
  | nil => exact absurd (List.mem_singleton.mp part ▸ member) List.not_mem_nil
  | cons first text ih =>
      rw [splitLines_cons] at part
      split at part
      · rcases List.mem_cons.mp part with rfl | part
        · exact absurd member List.not_mem_nil
        · exact List.mem_cons_of_mem _ (ih part member)
      · rcases List.exists_cons_of_ne_nil (splitLines_ne_nil text) with ⟨head, lines, split⟩
        rw [split, List.modifyHead_cons] at part
        rw [split] at ih
        rcases List.mem_cons.mp part with rfl | part
        · rcases List.mem_cons.mp member with rfl | member
          · exact List.mem_cons_self
          · exact List.mem_cons_of_mem _ (ih List.mem_cons_self member)
        · exact List.mem_cons_of_mem _ (ih (List.mem_cons_of_mem _ part) member)

end Text

namespace Script

open Text (splitLines endedLines stripReturn)

def content (line : List Char) : List DiffLine :=
  if isBlankLine line then [] else (Json.readAll Json.readDiffLine line).toOption.toList

def isMalformed (line : List Char) : Bool :=
  !isBlankLine line && (Json.readAll Json.readDiffLine line).toOption.isNone

theorem isBlankLine_return (line : List Char) :
    isBlankLine (line ++ ['\r']) = isBlankLine line := by
  have blank : Text.isBlank '\r' = true := by decide
  simp [isBlankLine, blank]

theorem content_return (line : List Char) : content (line ++ ['\r']) = content line := by
  rw [content, content, isBlankLine_return, Json.readAll_ended Json.readDiffLine_steady]

theorem isMalformed_return (line : List Char) :
    isMalformed (line ++ ['\r']) = isMalformed line := by
  rw [isMalformed, isMalformed, isBlankLine_return, Json.readAll_ended Json.readDiffLine_steady]

theorem stripReturn_cases (line : List Char) :
    stripReturn line = line ∨ line = stripReturn line ++ ['\r'] := by
  fun_induction stripReturn line with
  | case1 => exact .inl rfl
  | case2 => exact .inr rfl
  | case3 character rest _ ih =>
      rcases ih with same | longer
      · exact .inl (congrArg (character :: ·) same)
      · exact .inr (congrArg (character :: ·) longer)

theorem content_stripReturn (line : List Char) : content (stripReturn line) = content line := by
  rcases stripReturn_cases line with same | longer
  · rw [same]
  · exact (content_return _).symm.trans (congrArg content longer.symm)

theorem isMalformed_stripReturn (line : List Char) :
    isMalformed (stripReturn line) = isMalformed line := by
  rcases stripReturn_cases line with same | longer
  · rw [same]
  · exact (isMalformed_return _).symm.trans (congrArg isMalformed longer.symm)

theorem content_endedLines (lines : List (List Char)) :
    (endedLines lines).flatMap content = lines.flatMap content := by
  fun_induction endedLines lines with
  | case1 => rfl
  | case2 => rfl
  | case3 => rfl
  | case4 line next lines ih =>
      rw [List.flatMap_cons, List.flatMap_cons, ih, content_stripReturn]

theorem findIdx?_endedLines (lines : List (List Char)) :
    (endedLines lines).findIdx? isMalformed = lines.findIdx? isMalformed := by
  fun_induction endedLines lines with
  | case1 => rfl
  | case2 => rfl
  | case3 => rfl
  | case4 line next lines ih =>
      rw [List.findIdx?_cons, List.findIdx?_cons, ih, isMalformed_stripReturn]

theorem parseRecords_fine {record : List Char} (fine : isMalformed record = false) (number : Nat)
    (records : List (List Char)) :
    parseRecords number (record :: records) =
      (content record ++ ·) <$> parseRecords (number + 1) records := by
  rw [parseRecords]
  by_cases blank : isBlankLine record
  · have nothing : content record = [] := if_pos blank
    rw [if_pos blank, nothing]
    cases parseRecords (number + 1) records <;> rfl
  · rw [if_neg blank]
    cases read : Json.readAll Json.readDiffLine record with
    | error error => simp [isMalformed, blank, read, Except.toOption] at fine
    | ok line =>
        have one : content record = [line] := by
          simp [content, blank, read, Except.toOption]
        rw [one]
        cases parseRecords (number + 1) records <;> rfl

theorem parseRecords_malformed {record : List Char} (malformed : isMalformed record = true)
    (number : Nat) (records : List (List Char)) :
    ∃ error, parseRecords number (record :: records) = .error (.line number error) := by
  rw [isMalformed, Bool.and_eq_true, Bool.not_eq_true'] at malformed
  rcases malformed with ⟨printed, unread⟩
  rw [parseRecords, printed]
  cases read : Json.readAll Json.readDiffLine record with
  | error error => exact ⟨error, rfl⟩
  | ok line => simp [read, Except.toOption] at unread

/-- The first malformed line decides; if there is none, all lines are read. -/
theorem parseRecords_cases (number : Nat) (records : List (List Char)) :
    (records.findIdx? isMalformed = none ∧
      parseRecords number records = .ok (records.flatMap content)) ∨
    ∃ index error, records.findIdx? isMalformed = some index ∧
      parseRecords number records = .error (.line (number + index) error) := by
  induction records generalizing number with
  | nil => exact .inl ⟨rfl, rfl⟩
  | cons record records ih =>
      rw [List.findIdx?_cons]
      cases malformed : isMalformed record with
      | true =>
          rcases parseRecords_malformed malformed number records with ⟨error, failed⟩
          exact .inr ⟨0, error, rfl, failed⟩
      | false =>
          rw [parseRecords_fine malformed]
          rcases ih (number + 1) with ⟨none, parsed⟩ | ⟨index, error, found, failed⟩
          · exact .inl ⟨by rw [none]; rfl, by rw [parsed]; rfl⟩
          · refine .inr ⟨index + 1, error, by rw [found]; rfl, ?_⟩
            rw [failed, Nat.add_assoc, Nat.add_comm 1]
            rfl

/-- Whether the script is refused at a line, whatever is wrong there. -/
def FailsAt (source : String) (number : Nat) : Prop :=
  ∃ error, parse source = .error (.line number error)

/-- The lines of a script, as they stand between newlines. -/
def physicalLines (source : String) : List (List Char) := splitLines source.toList

theorem parse_cases (source : String) :
    ((physicalLines source).findIdx? isMalformed = none ∧
      parse source = .ok ((physicalLines source).flatMap content)) ∨
    ∃ index, (physicalLines source).findIdx? isMalformed = some index ∧
      FailsAt source (1 + index) := by
  have cases := parseRecords_cases 1 (Text.records source.toList)
  rw [Text.records, content_endedLines, findIdx?_endedLines] at cases
  rcases cases with accepted | ⟨index, error, found, failed⟩
  · exact .inl accepted
  · exact .inr ⟨index, found, error, failed⟩

theorem parse_eq_ok {source : String} {parsed : List DiffLine} :
    parse source = .ok parsed ↔
      (physicalLines source).findIdx? isMalformed = none ∧
        (physicalLines source).flatMap content = parsed := by
  rcases parse_cases source with ⟨none, accepted⟩ | ⟨index, found, error, failed⟩
  · simp [none, accepted]
  · simp [found, failed]

theorem failsAt_iff {source : String} {number : Nat} :
    FailsAt source number ↔
      ∃ index, number = index + 1 ∧ (physicalLines source).findIdx? isMalformed = some index := by
  rcases parse_cases source with ⟨none, accepted⟩ | ⟨index, found, error, failed⟩
  · simp [FailsAt, none, accepted]
  · simp [FailsAt, found, failed, Nat.add_comm, eq_comm]

theorem physicalLines_join (first second : String) :
    physicalLines (first ++ "\n" ++ second) = physicalLines first ++ physicalLines second := by
  have joined : (first ++ "\n" ++ second).toList = first.toList ++ '\n' :: second.toList := by
    simp
  rw [physicalLines, joined, Text.splitLines_join]
  rfl

def gathered (lines : List (List Char)) : Option (List DiffLine) :=
  if lines.any isMalformed then none else some (lines.flatMap content)

theorem gathered_eq_some {lines : List (List Char)} {parsed : List DiffLine} :
    gathered lines = some parsed ↔
      lines.findIdx? isMalformed = none ∧ lines.flatMap content = parsed := by
  rw [gathered, ← Option.not_isSome_iff_eq_none, List.findIdx?_isSome]
  split <;> simp_all

theorem parse_eq_ok_iff {first second : String}
    (same : gathered (physicalLines first) = gathered (physicalLines second))
    (parsed : List DiffLine) : parse first = .ok parsed ↔ parse second = .ok parsed := by
  rw [parse_eq_ok, parse_eq_ok, ← gathered_eq_some, ← gathered_eq_some, same]

/-- A blank line more, or a carriage return more at the end of a line. -/
inductive Spaced : String → String → Prop
  | first (blank source : String) (none : isBlankLine blank.toList) :
      Spaced source (blank ++ "\n" ++ source)
  | between (before blank after : String) (none : isBlankLine blank.toList) :
      Spaced (before ++ "\n" ++ after) (before ++ "\n" ++ blank ++ "\n" ++ after)
  | last (source blank : String) (none : isBlankLine blank.toList) :
      Spaced source (source ++ "\n" ++ blank)
  | ending (before after : String) :
      Spaced (before ++ "\n" ++ after) (before ++ "\r\n" ++ after)

theorem gathered_append_blank {blank : String} (none : isBlankLine blank.toList)
    (before after : List (List Char)) :
    gathered (before ++ physicalLines blank ++ after) = gathered (before ++ after) := by
  have empty (line : List Char) (part : line ∈ physicalLines blank) : isBlankLine line = true := by
    rw [isBlankLine, List.all_eq_true] at none ⊢
    exact fun character member => none character (Text.mem_of_mem_splitLines part member)
  have fine : (physicalLines blank).any isMalformed = false := by
    rw [List.any_eq_false]
    intro line part
    simp [isMalformed, empty line part]
  have nothing : (physicalLines blank).flatMap content = [] := by
    rw [List.flatMap_eq_nil_iff]
    exact fun line part => if_pos (empty line part)
  simp [gathered, fine, nothing]

theorem gathered_return (before : String) (after : List (List Char)) :
    gathered (physicalLines (before ++ "\r") ++ after) =
      gathered (physicalLines before ++ after) := by
  have long : (before ++ "\r").toList = before.toList ++ ['\r'] := by simp
  rcases Text.splitLines_return before.toList with ⟨lines, last, split, splitReturn⟩
  rw [physicalLines, physicalLines, long, split, splitReturn]
  simp [gathered, isMalformed_return, content_return]

theorem Spaced.gathered_eq {source spaced : String} (step : Spaced source spaced) :
    gathered (physicalLines spaced) = gathered (physicalLines source) := by
  cases step with
  | first blank source none =>
      rw [physicalLines_join]
      exact gathered_append_blank none [] _
  | between before blank after none =>
      rw [physicalLines_join, physicalLines_join, physicalLines_join]
      exact gathered_append_blank none _ _
  | last source blank none =>
      rw [physicalLines_join]
      have same := gathered_append_blank none (physicalLines source) []
      rwa [List.append_nil, List.append_nil] at same
  | ending before after =>
      have joined : before ++ "\r\n" ++ after = before ++ "\r" ++ "\n" ++ after := by
        have ending : "\r\n" = "\r" ++ "\n" := rfl
        rw [ending, ← String.append_assoc]
      rw [joined, physicalLines_join, physicalLines_join]
      exact gathered_return before _

theorem gathered_spaced {source spaced : String}
    (steps : Relation.ReflTransGen Spaced source spaced) :
    gathered (physicalLines spaced) = gathered (physicalLines source) := by
  induction steps with
  | refl => rfl
  | tail _ step ih => rw [step.gathered_eq, ih]

theorem length_physicalLines (source : String) :
    (physicalLines source).length = source.toList.count '\n' + 1 :=
  Text.length_splitLines _

/-- Two scripts with a newline between them come to what the first and the second come to; of
two malformed lines the first one is reported, by its number among all lines of the text. Blank
lines and carriage returns at line ends change nothing. -/
theorem scripts_compose :
    (∀ (first second : String) (front back : List DiffLine), parse first = .ok front →
      parse second = .ok back → parse (first ++ "\n" ++ second) = .ok (front ++ back)) ∧
    (∀ (first second : String) (number : Nat), FailsAt first number →
      FailsAt (first ++ "\n" ++ second) number) ∧
    (∀ (first second : String) (front : List DiffLine) (number : Nat), parse first = .ok front →
      FailsAt second number →
        FailsAt (first ++ "\n" ++ second) (first.toList.count '\n' + 1 + number)) ∧
    (∀ (source spaced : String), Relation.ReflTransGen Spaced source spaced →
      ∀ parsed, parse spaced = .ok parsed ↔ parse source = .ok parsed) ∧
    (∀ (source : String) (number : Nat), FailsAt source number ↔
      ∃ index, number = index + 1 ∧ (physicalLines source).findIdx? isMalformed = some index) ∧
    ∀ source : String, (∃ parsed, parse source = .ok parsed) ∨ ∃ number, FailsAt source number := by
  refine ⟨?_, ?_, ?_, ?_, ?_, ?_⟩
  · intro first second front back readFirst readSecond
    rw [parse_eq_ok] at readFirst readSecond ⊢
    rw [physicalLines_join, List.findIdx?_append, readFirst.1, readSecond.1, List.flatMap_append,
      readFirst.2, readSecond.2]
    exact ⟨rfl, rfl⟩
  · intro first second number failed
    rw [failsAt_iff] at failed ⊢
    rcases failed with ⟨index, same, found⟩
    refine ⟨index, same, ?_⟩
    rw [physicalLines_join, List.findIdx?_append, found]
    rfl
  · intro first second front number read failed
    rw [parse_eq_ok] at read
    rw [failsAt_iff] at failed ⊢
    rcases failed with ⟨index, same, found⟩
    refine ⟨index + (physicalLines first).length, ?_, ?_⟩
    · rw [length_physicalLines]
      omega
    · rw [physicalLines_join, List.findIdx?_append, read.1, found]
      rfl
  · intro source spaced steps parsed
    exact parse_eq_ok_iff (gathered_spaced steps) parsed
  · intro source number
    exact failsAt_iff
  · intro source
    rcases parse_cases source with ⟨_, accepted⟩ | ⟨index, _, failed⟩
    · exact .inl ⟨_, accepted⟩
    · exact .inr ⟨_, failed⟩

/-- A first part that ends in a carriage return, a blank line and a line that is no JSON. -/
theorem carriage_composes :
    parse ("[\"same\",\"a\"]\r" ++ "\n" ++ " \n[\"old\",\"b\"]") =
        .ok [⟨.same, "a"⟩, ⟨.removed, "b"⟩] ∧
      FailsAt ("x\r" ++ "\n" ++ "[\"old\",\"b\"]") 1 ∧
      FailsAt ("[\"same\",\"a\"]\r" ++ "\n" ++ "\nx") 3 ∧
      (∀ parsed, parse ("" ++ "\r\n" ++ "[\"old\",\"b\"]") = .ok parsed ↔
        parse ("" ++ "\n" ++ "[\"old\",\"b\"]") = .ok parsed) := by
  rcases scripts_compose with ⟨joins, firstFails, secondFails, respaced, _, _⟩
  refine ⟨?_, ?_, ?_, ?_⟩
  · exact joins _ _ [⟨.same, "a"⟩] [⟨.removed, "b"⟩] (by cbv) (by cbv)
  · exact firstFails _ _ 1 ⟨.expectedValue, by cbv⟩
  · exact secondFails _ _ [⟨.same, "a"⟩] 2 (by cbv) ⟨.expectedValue, by cbv⟩
  · exact respaced _ _ (.single (.ending "" _))

end Script

end Redline
