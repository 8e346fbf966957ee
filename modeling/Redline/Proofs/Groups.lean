import Mathlib.Data.List.SplitBy
import Redline.Session.State
import Redline.Proofs.Streaming

namespace Redline

namespace DiffLine

def consumes (line : DiffLine) : Bool := line.kind != .added

def taken (stream : List DiffLine) : Nat := stream.countP consumes

def put (stream : List DiffLine) : List String :=
  (stream.filter fun line => line.kind == .added).map text

def committed (stream : List DiffLine) : List String := (stream.filter isCommitted).map text

/-- Kept lines, each by itself, and the longest runs of changes. -/
def groups (stream : List DiffLine) : List (List DiffLine) :=
  stream.splitBy fun first second => first.isChange && second.isChange

def isRun (group : List DiffLine) : Bool := group.any isChange

/-- The part of a stream that finds the lines it takes, if `available` lines are there. -/
def applicable : Nat → List DiffLine → List DiffLine
  | _, [] => []
  | available, line :: rest =>
      if available < taken [line] then []
      else line :: applicable (available - taken [line]) rest

/-- The text that groups make of `lines`. An accepted run puts in the lines it adds, a rejected one
leaves the lines it takes. -/
def merged (accepts : Nat → Bool) : Nat → List (List DiffLine) → List String → List String
  | _, [], _ => []
  | number, group :: rest, lines =>
      if isRun group then
        (if accepts number then put group else lines.take (taken group)) ++
          merged accepts (number + 1) rest (lines.drop (taken group))
      else lines.take (taken group) ++ merged accepts number rest (lines.drop (taken group))

def mergedText (accepts : Nat → Bool) (first : Nat) (stream : List DiffLine)
    (lines : List String) : List String :=
  lines.take first ++ (merged accepts 0 (groups stream) (lines.drop first) ++
    lines.drop (first + taken stream))

variable {stream first second : List DiffLine} {line : DiffLine}

@[simp] theorem taken_append (first second : List DiffLine) :
    taken (first ++ second) = taken first + taken second := List.countP_append

@[simp] theorem put_append (first second : List DiffLine) :
    put (first ++ second) = put first ++ put second := by
  simp [put]

@[simp] theorem committed_append (first second : List DiffLine) :
    committed (first ++ second) = committed first ++ committed second := by
  simp [committed]

theorem applicable_eq (available : Nat) (stream : List DiffLine) :
    taken (applicable available stream) ≤ available ∧
      (applicable available stream = stream ∨
        ∃ line rest, stream = applicable available stream ++ line :: rest ∧
          available - taken (applicable available stream) < taken [line]) := by
  induction stream generalizing available with
  | nil => exact ⟨Nat.zero_le _, .inl rfl⟩
  | cons line rest ih =>
      rw [applicable]
      by_cases short : available < taken [line]
      · rw [if_pos short]
        exact ⟨Nat.zero_le _, .inr ⟨line, rest, rfl, short⟩⟩
      · rw [if_neg short]
        rcases ih (available - taken [line]) with ⟨bound, ends⟩
        have counted := taken_append [line] (applicable (available - taken [line]) rest)
        rw [List.singleton_append] at counted
        refine ⟨by omega, ?_⟩
        rcases ends with whole | ⟨next, later, divided, takes⟩
        · exact .inl (by rw [whole])
        · refine .inr ⟨next, later, ?_, by omega⟩
          rw [List.cons_append, ← divided]

theorem length_applicable_le (available : Nat) (stream : List DiffLine) :
    (applicable available stream).length ≤ stream.length := by
  rcases applicable_eq available stream with ⟨_, ends⟩
  rcases ends with whole | ⟨line, rest, divided, _⟩
  · rw [whole]
  · have counted := congrArg List.length divided
    rw [List.length_append] at counted
    omega

theorem groups_snoc_apart
    (apart : ∀ last ∈ stream.getLast?, (last.isChange && line.isChange) = false) :
    groups (stream ++ [line]) = groups stream ++ [[line]] := by
  rw [groups, List.splitBy_append_cons [] apart]
  rfl

/-- An element that goes with the last one joins its group. -/
theorem splitBy_snoc_join {α : Type} {joins : α → α → Bool} {elements : List α} {last next : α}
    (ends : last ∈ elements.getLast?) (both : joins last next = true) : ∃ front group,
      elements.splitBy joins = front ++ [group] ∧ last ∈ group ∧
        (elements ++ [next]).splitBy joins = front ++ [group ++ [next]] := by
  obtain ⟨flat, filled, inside, between⟩ := List.splitBy_eq_iff.mp
    (show elements.splitBy joins = elements.splitBy joins from rfl)
  rcases List.eq_nil_or_concat (elements.splitBy joins) with none | ⟨front, group, divided⟩
  · rw [none] at flat
    rw [flat] at ends
    simp at ends
  · rw [List.concat_eq_append] at divided
    rw [divided] at flat filled inside between
    have nonempty : group ≠ [] := by
      intro empty
      exact filled (by simp [empty])
    obtain ⟨above, final, rfl⟩ : ∃ above final, group = above ++ [final] := by
      rcases List.eq_nil_or_concat group with empty | ⟨above, final, same⟩
      · exact absurd empty nonempty
      · exact ⟨above, final, by rw [same, List.concat_eq_append]⟩
    have same : last = final := by
      rw [flat] at ends
      simpa using ends.symm
    subst same
    -- The last group ends with the last element, so this is the one that grows.
    refine ⟨front, _, divided, by simp, ?_⟩
    refine List.splitBy_eq_iff.mpr ⟨?_, ?_, ?_, ?_⟩
    · rw [flat]
      simp
    · intro member
      rcases List.mem_append.mp member with inFront | last
      · exact filled (List.mem_append_left _ inFront)
      · simp at last
    · intro group member
      rcases List.mem_append.mp member with inFront | final
      · exact inside group (List.mem_append_left _ inFront)
      · rw [List.mem_singleton.mp final, List.isChain_append]
        refine ⟨inside _ (List.mem_append_right _ List.mem_cons_self), List.isChain_singleton _, ?_⟩
        intro first atEnd second atStart
        rw [List.getLast?_concat, Option.mem_some_iff] at atEnd
        rw [List.head?_cons, Option.mem_some_iff] at atStart
        rw [← atEnd, ← atStart, both]
    · rw [List.isChain_append] at between ⊢
      refine ⟨between.1, List.isChain_singleton _, ?_⟩
      intro first atEnd second atStart
      rcases between.2.2 first atEnd (above ++ [last]) (by simp) with ⟨nonempty, some, apart⟩
      rw [List.head?_cons, Option.mem_some_iff] at atStart
      subst atStart
      refine ⟨nonempty, by simp, ?_⟩
      rw [List.head_append_of_ne_nil some]
      exact apart

theorem groups_snoc_join {last : DiffLine} (ends : last ∈ stream.getLast?)
    (both : (last.isChange && line.isChange) = true) : ∃ front run,
      groups stream = front ++ [run] ∧ isRun run = true ∧
        groups (stream ++ [line]) = front ++ [run ++ [line]] := by
  obtain ⟨front, run, divided, member, joined⟩ := @splitBy_snoc_join _
    (fun first second : DiffLine => first.isChange && second.isChange) _ _ _ ends both
  have change : last.isChange = true := (Bool.and_eq_true_iff.mp both).1
  exact ⟨front, run, divided, List.any_eq_true.mpr ⟨last, member, change⟩, joined⟩

theorem flatten_groups (stream : List DiffLine) : (groups stream).flatten = stream :=
  List.flatten_splitBy _ _

theorem any_groups (stream : List DiffLine) : (groups stream).any isRun = stream.any isChange :=
  calc (groups stream).any isRun
      = (groups stream).flatten.any isChange := List.any_flatten.symm
    _ = stream.any isChange := by rw [flatten_groups]

theorem merged_rejected (number : Nat) (groups : List (List DiffLine)) (lines : List String) :
    merged (fun _ => false) number groups lines = lines.take (taken groups.flatten) := by
  induction groups generalizing number lines with
  | nil => rfl
  | cons group rest ih =>
      rw [merged, List.flatten_cons, taken_append, List.take_add]
      split
      · rw [ih]
        rfl
      · rw [ih]

theorem mergedText_rejected (first : Nat) (stream : List DiffLine) (lines : List String) :
    mergedText (fun _ => false) first stream lines = lines := by
  rw [mergedText, merged_rejected, flatten_groups, ← List.drop_drop, List.take_append_drop,
    List.take_append_drop]

end DiffLine

namespace Draft

open DiffLine (taken put isRun groups)

variable {stream : StreamId} {line : DiffLine} {lines : List String} {base : List Passage}

def ofGroups (stream : StreamId) : Nat → List (List DiffLine) → List String → List Passage
  | _, [], _ => []
  | number, group :: rest, lines =>
      if isRun group then
        .change ⟨stream, number⟩ (lines.take (taken group)) (put group) ::
          ofGroups stream (number + 1) rest (lines.drop (taken group))
      else
        (lines.take (taken group)).map .kept ++
          ofGroups stream number rest (lines.drop (taken group))

def record (fresh : BlockId) (line : DiffLine) (rest : List String) (draft : List Passage) :
    List Passage :=
  if line.isChange then extend fresh (rest.take (taken [line])) (put [line]) draft
  else draft ++ (rest.take (taken [line])).map .kept

theorem ofGroups_append (number : Nat) (first second : List (List DiffLine))
    (lines : List String) : ofGroups stream number (first ++ second) lines =
      ofGroups stream number first lines ++
        ofGroups stream (number + first.countP isRun) second
          (lines.drop (taken first.flatten)) := by
  induction first generalizing number lines with
  | nil => rfl
  | cons group rest ih =>
      rw [List.cons_append, ofGroups, ofGroups, List.countP_cons, List.flatten_cons,
        DiffLine.taken_append]
      split
      · rw [ih, List.drop_drop, List.cons_append, Nat.add_right_comm, Nat.add_assoc]
      · rw [ih, List.drop_drop, Nat.add_zero, List.append_assoc]

theorem ids_ofGroups (number : Nat) (groups : List (List DiffLine)) (lines : List String) :
    ids (ofGroups stream number groups lines) =
      (List.range' number (groups.countP isRun)).map fun index => ⟨stream, index⟩ := by
  induction groups generalizing number lines with
  | nil => rfl
  | cons group rest ih =>
      rw [ofGroups, List.countP_cons]
      split
      · rw [ids_change_cons, ih, List.range'_succ, List.map_cons]
      · rw [ids_append, ids_kept, List.nil_append, ih, Nat.add_zero]

/-- One block for every run, with as many rows as the run takes and puts in. -/
theorem blocks_ofGroups (row number : Nat) {groups : List (List DiffLine)} {lines : List String}
    (room : taken groups.flatten ≤ lines.length) :
    (blocks row (ofGroups stream number groups lines)).map
        (fun block => (block.id, block.red, block.green)) =
      ((groups.filter isRun).zipIdx number).map fun (run, index) =>
        (⟨stream, index⟩, taken run, (put run).length) := by
  induction groups generalizing row number lines with
  | nil => rfl
  | cons group rest ih =>
      rw [List.flatten_cons, DiffLine.taken_append] at room
      have later : taken rest.flatten ≤ (lines.drop (taken group)).length := by
        rw [List.length_drop]
        omega
      rw [ofGroups, List.filter_cons]
      split
      · have red : (lines.take (taken group)).length = taken group := by
          rw [List.length_take]
          omega
        rw [blocks, List.map_cons, ih _ _ later, List.zipIdx_cons, List.map_cons, red]
      · rw [blocks_append, blocks_kept, List.nil_append, ih _ _ later]

theorem ofGroups_kept (number : Nat) (kept : line.isChange = false) (lines : List String) :
    ofGroups stream number [[line]] lines = (lines.take (taken [line])).map .kept := by
  simp [ofGroups, isRun, kept]

theorem ofGroups_run (number : Nat) {run : List DiffLine} (changes : isRun run = true)
    (lines : List String) : ofGroups stream number [run] lines =
      [.change ⟨stream, number⟩ (lines.take (taken run)) (put run)] := by
  simp [ofGroups, changes]

theorem taken_kept (kept : line.isChange = false) : taken [line] = 1 := by
  cases line with
  | mk kind text => cases kind <;> simp_all [DiffLine.isChange, taken, DiffLine.consumes]

theorem closed_ofGroups {ops : List DiffLine} (plain : ids base = [])
    (room : taken ops ≤ lines.length)
    (kept : ∀ last ∈ ops.getLast?, last.isChange = false) :
    Closed (base ++ ofGroups stream 0 (groups ops) lines) := by
  rcases List.eq_nil_or_concat ops with rfl | ⟨front, last, rfl⟩
  · apply closed_of_plain
    simp [groups, ofGroups, plain]
  · rw [List.concat_eq_append] at room kept ⊢
    have still : last.isChange = false := kept last (by simp)
    have apart : ∀ other ∈ front.getLast?, (other.isChange && last.isChange) = false := by
      intro other _
      rw [still, Bool.and_false]
    rw [DiffLine.taken_append, taken_kept still] at room
    have present : ∃ text, (lines.drop (taken front)).take 1 = [text] := by
      have inside : taken front < lines.length := by omega
      refine ⟨lines[taken front], ?_⟩
      rw [List.take_one, List.head?_drop, List.getElem?_eq_getElem inside]
      rfl
    rcases present with ⟨text, found⟩
    rw [DiffLine.groups_snoc_apart apart, ofGroups_append, ofGroups_kept _ still,
      DiffLine.flatten_groups, taken_kept still, found, ← List.append_assoc]
    exact closed_kept _ text

/-- One more line of a stream leads to the draft of one more line. -/
theorem record_ofGroups {ops : List DiffLine} (plain : ids base = [])
    (room : taken ops ≤ lines.length) (line : DiffLine) :
    record ⟨stream, (ids (base ++ ofGroups stream 0 (groups ops) lines)).length⟩ line
        (lines.drop (taken ops)) (base ++ ofGroups stream 0 (groups ops) lines) =
      base ++ ofGroups stream 0 (groups (ops ++ [line])) lines := by
  have number : (ids (base ++ ofGroups stream 0 (groups ops) lines)).length =
      0 + (groups ops).countP isRun := by
    rw [ids_append, plain, ids_ofGroups]
    simp
  rw [record, number]
  by_cases change : line.isChange = true
  · rw [if_pos change]
    have single : isRun [line] = true := by simp [isRun, change]
    by_cases joins : ∃ last ∈ ops.getLast?, last.isChange = true
    · rcases joins with ⟨last, ends, changes⟩
      obtain ⟨front, run, divided, isChange, joined⟩ := DiffLine.groups_snoc_join ends
        (show (last.isChange && line.isChange) = true by rw [changes, change]; rfl)
      have flat := DiffLine.flatten_groups ops
      rw [divided, List.flatten_append, List.flatten_singleton] at flat
      have whole : isRun (run ++ [line]) = true := by
        simp only [isRun, List.any_append] at isChange ⊢
        rw [isChange, Bool.true_or]
      rw [joined, divided, ofGroups_append, ofGroups_append, ofGroups_run _ isChange,
        ofGroups_run _ whole, ← List.append_assoc, extend_open, ← List.append_assoc, ← flat]
      simp only [DiffLine.taken_append, DiffLine.put_append, List.take_add, List.drop_drop]
    · have apart : ∀ last ∈ ops.getLast?, (last.isChange && line.isChange) = false := by
        intro last ends
        rw [Bool.eq_false_iff.mpr fun changes => joins ⟨last, ends, changes⟩, Bool.false_and]
      have closed := @closed_ofGroups stream lines base ops plain room fun last ends =>
        Bool.eq_false_iff.mpr fun changes => joins ⟨last, ends, changes⟩
      rw [extend_closed _ closed, DiffLine.groups_snoc_apart apart, ofGroups_append,
        ofGroups_run _ single, DiffLine.flatten_groups, List.append_assoc]
  · have kept : line.isChange = false := Bool.eq_false_iff.mpr change
    have apart : ∀ last ∈ ops.getLast?, (last.isChange && line.isChange) = false := by
      intro last _
      rw [kept, Bool.and_false]
    rw [if_neg change, DiffLine.groups_snoc_apart apart, ofGroups_append, ofGroups_kept _ kept,
      DiffLine.flatten_groups, List.append_assoc]

end Draft

end Redline
