import Redline.Proofs.RowMap
import Redline.Proofs.Soundness

namespace Redline

namespace Block

def greenRows (block : Block) : List Nat := List.range' (block.start + block.red) block.green

/-- A row of the block is left when the rows of `gone` were deleted. Ghosts cannot be deleted. -/
def Remains (gone : List Nat) (block : Block) : Prop :=
  0 < block.red ∨ ∃ row ∈ block.greenRows, row ∉ gone

instance (gone : List Nat) (block : Block) : Decidable (block.Remains gone) :=
  inferInstanceAs (Decidable (0 < block.red ∨ ∃ row ∈ block.greenRows, row ∉ gone))

end Block

namespace Tracker

variable {tracker : Tracker} {line : Nat} {delta : Int} {block : Block}

/-- The number of added rows of a block after an edit. Lines inserted between two of them
belong to the block. -/
def greenLeft (tracker : Tracker) (line : Nat) (delta : Int) (block : Block) : Nat :=
  if 0 < delta ∧ 0 < line ∧ tracker.viewRow (line - 1) ∈ block.greenRows ∧
      tracker.viewRow line ∈ block.greenRows then
    block.green + delta.toNat
  else block.green - block.greenRows.countP fun row => decide (row ∈ tracker.deletedRows line delta)

theorem greenLeft_pos_iff : 0 < tracker.greenLeft line delta block ↔
    ∃ row ∈ block.greenRows, row ∉ tracker.deletedRows line delta := by
  rw [greenLeft]
  split
  · rename_i inside
    have grows : 0 < block.green + delta.toNat := by omega
    refine iff_of_true grows ⟨_, inside.2.2.1, ?_⟩
    rw [deletedRows_inserted inside.1]
    exact List.not_mem_nil
  · have width : block.greenRows.length = block.green := List.length_range'
    have most := List.countP_le_length
      (p := fun row => decide (row ∈ tracker.deletedRows line delta)) (l := block.greenRows)
    have all := List.countP_eq_length
      (p := fun row => decide (row ∈ tracker.deletedRows line delta)) (l := block.greenRows)
    simp only [decide_eq_true_eq] at all
    constructor
    · intro some
      by_contra none
      have whole := all.mpr fun row member => by_contra fun spared => none ⟨row, member, spared⟩
      omega
    · rintro ⟨row, member, spared⟩
      have less : block.greenRows.countP
          (fun row => decide (row ∈ tracker.deletedRows line delta)) ≠ block.greenRows.length :=
        fun whole => spared (all.mp whole row member)
      omega

theorem countP_mem_comm {first second : List Nat} (inFirst : first.Nodup)
    (inSecond : second.Nodup) : (first.countP fun row => decide (row ∈ second)) =
      second.countP fun row => decide (row ∈ first) := by
  rw [List.countP_eq_length_filter, List.countP_eq_length_filter]
  apply List.Perm.length_eq
  rw [List.perm_ext_iff_of_nodup (inFirst.filter _) (inSecond.filter _)]
  intro row
  simp only [List.mem_filter, decide_eq_true_eq]
  exact and_comm

theorem lost_eq (rows : List Nat) (ascending : rows.Pairwise (· < ·)) (block : Block) :
    (RowShift.deleted rows).lost (block.start + block.red)
        (block.start + block.red + block.green) =
      block.greenRows.countP fun row => decide (row ∈ rows) := by
  have within : (rows.countP fun row => decide
      (block.start + block.red ≤ row ∧ row < block.start + block.red + block.green)) =
        rows.countP fun row => decide (row ∈ block.greenRows) := by
    apply List.countP_congr
    intro row _
    simp only [decide_eq_true_eq, Block.greenRows, List.mem_range'_1]
  have order : block.start + block.red ≤ block.start + block.red + block.green :=
    Nat.le_add_right _ _
  rw [RowShift.lost, RowShift.deletedBefore_add ascending order, Nat.add_sub_cancel_left, within]
  exact countP_mem_comm (ascending.imp Nat.ne_of_lt) List.nodup_range'

/-- A block follows an edit by the rows that the edit adds to it or deletes. -/
theorem green_follow (valid : tracker.Valid)
    (tracked : ∀ range ∈ block.addedRanges, range ∈ tracker.added) :
    (block.follow (tracker.editShift line delta)).green = tracker.greenLeft line delta block := by
  rw [editShift, greenLeft]
  by_cases positive : 0 < delta
  · have none : (block.greenRows.countP
        fun row => decide (row ∈ tracker.deletedRows line delta)) = 0 := by
      rw [deletedRows_inserted positive]
      simp
    rw [if_pos positive, none, Nat.sub_zero]
    have grows := AddedRange.count_grow ⟨block.start + block.red, block.green⟩
      (tracker.anchorRow line) delta.toNat
    have inside : (block.start + block.red < tracker.anchorRow line ∧
        tracker.anchorRow line < block.start + block.red + block.green) ↔
          (0 < delta ∧ 0 < line ∧ tracker.viewRow (line - 1) ∈ block.greenRows ∧
            tracker.viewRow line ∈ block.greenRows) := by
      by_cases plain : block.green = 0
      · refine iff_of_false (by omega) ?_
        simp [Block.greenRows, plain]
      · have member : ⟨block.start + block.red, block.green⟩ ∈ tracker.added := by
          apply tracked
          rw [Block.addedRanges, if_neg plain]
          exact List.mem_singleton_self _
        have between := inside_iff valid member line
        simp only [AddedRange.Holds, AddedRange.stop] at between
        simp only [Block.greenRows, List.mem_range'_1, positive, true_and]
        exact between
    simp only [Block.follow, AddedRange.follow, grows, AddedRange.stop, inside]
  · rw [if_neg positive, if_neg fun both => positive both.1]
    exact congrArg (block.green - ·) (lost_eq _ (deletedRows_ascending tracker line delta) block)

theorem keeps_follow (valid : tracker.Valid)
    (tracked : ∀ range ∈ block.addedRanges, range ∈ tracker.added) :
    (block.follow (tracker.editShift line delta)).keeps =
      decide (block.Remains (tracker.deletedRows line delta)) := by
  apply decide_eq_decide.mpr
  rw [green_follow valid tracked, Block.Remains, ← greenLeft_pos_iff]
  exact Nat.add_pos_iff_pos_or_pos

end Tracker

theorem Tiled.mem_added {tracker : Tracker} {blocks : List Block} (tiled : Tiled tracker blocks)
    {block : Block} (member : block ∈ blocks) :
    ∀ range ∈ block.addedRanges, range ∈ tracker.added := by
  intro range inside
  rw [tiled.added]
  exact List.mem_flatMap.mpr ⟨block, member, inside⟩

namespace Draft

variable {tracker : Tracker} {draft : List Passage} {line : Nat} {delta : Int}
  {texts : List String}

theorem blocks_edited (found : tracker.ghosts = ghosts 0 draft) (filled : Filled draft)
    (width : texts.length = delta.toNat) :
    blocks 0 (edited line delta texts draft) =
      ((blocks 0 draft).map (Block.follow (tracker.editShift line delta))).filter Block.keeps := by
  rw [edited, Tracker.editShift]
  split
  · have mapped := @blocks_insertAt _ [] draft texts line found (Nat.zero_le line)
    rw [← width, List.filter_eq_self.mpr]
    · exact mapped.symm
    · intro other member
      rcases List.mem_map.mp member with ⟨block, present, rfl⟩
      exact Registry.keeps_inserted (filled.blocks 0 block present)
  · have size : (-delta).toNat = delta.natAbs := by omega
    have mapped := @blocks_deleteLines tracker [] draft line delta.natAbs found
    simp only [size_nil, lines_nil, List.length_nil, Nat.sub_zero, Nat.zero_sub] at mapped
    rw [Tracker.deletedRows, size, mapped]

end Draft

namespace Session

variable {session : Session} {draft : List Passage} {buffer : Buffer} {line : Nat} {delta : Int}

theorem Tracks.edits (tracks : session.Tracks draft) (listens : session.listening = true)
    (buffer : Buffer) (edited : delta ≠ 0) (fits : session.tracker.EditFits line delta)
    (short : -(Tracker.rowListLimit : Int) < delta) {texts : List String}
    (width : texts.length = delta.toNat) :
    let next := session.redraft (Draft.edited line delta texts draft)
    next.Tracks (Draft.edited line delta texts draft) ∧
      session.applyEdit buffer line delta =
        .ok ⟨(next.concluded buffer).1, buffer, (next.concluded buffer).2, .ok true⟩ := by
  have shifted := Tracker.shiftOf_eq fits edited short
  have small := Tracker.fits_followed tracks.sound.tracker fits
  rw [Tracker.followed, (tracks.shifted edited width shifted).1] at small
  exact ⟨tracks.edited small,
    (tracks.applyEdit listens edited width).mpr ⟨⟨_, shifted⟩, small, rfl⟩⟩

theorem Tracks.blocks_edited (tracks : session.Tracks draft) {texts : List String}
    (width : texts.length = delta.toNat) :
    Draft.blocks 0 (Draft.edited line delta texts draft) =
      (session.registry.blocks.filter fun block =>
        decide (block.Remains (session.tracker.deletedRows line delta))).map
          (Block.follow (session.tracker.editShift line delta)) := by
  have valid := (Tracker.checked_eq_ok.mp tracks.sound.tracker).2
  rw [Draft.blocks_edited tracks.ghosts tracks.filled width, ← tracks.blocks, List.filter_map]
  congr 1
  apply List.filter_congr
  intro block member
  exact Tracker.keeps_follow valid (tracks.tiled.mem_added member)

/-- An edit drops the blocks of which it deletes all rows. All others keep their identity, their
order and their removed lines, and the session goes on as long as there is one. -/
theorem Reachable.edit_keeps_identity (reachable : Reachable session buffer)
    (state : session.state = .reviewing) (edited : delta ≠ 0)
    (fits : session.tracker.EditFits line delta) (short : -(Tracker.rowListLimit : Int) < delta) :
    let left := session.registry.blocks.filter fun block =>
      decide (block.Remains (session.tracker.deletedRows line delta))
    ∃ turn, session.applyEdit buffer line delta = .ok turn ∧ turn.outcome = .ok true ∧
      turn.session.registry.blocks.map (fun block => (block.id, block.red, block.green)) =
        left.map (fun block =>
          (block.id, block.red, session.tracker.greenLeft line delta block)) ∧
      turn.session.registry.minted = session.registry.minted ∧
      turn.session.state = if left = [] then .idle else .reviewing := by
  intro left
  rcases reachable.coherent.under_review state with ⟨draft, tracks, listens, _⟩
  have valid := (Tracker.checked_eq_ok.mp tracks.sound.tracker).2
  have width : (List.replicate delta.toNat "").length = delta.toNat := List.length_replicate
  rcases tracks.edits listens buffer edited fits short width with ⟨_, applied⟩
  have blocks : (session.redraft
      (Draft.edited line delta (List.replicate delta.toNat "") draft)).registry.blocks =
        left.map (Block.follow (session.tracker.editShift line delta)) :=
    tracks.blocks_edited width
  refine ⟨_, applied, rfl, ?_⟩
  rw [concluded, blocks, List.length_map]
  by_cases none : left = []
  · simp only [none, List.length_nil, if_true]
    exact ⟨rfl, rfl, rfl⟩
  · rw [if_neg (by rwa [List.length_eq_zero_iff]), if_neg none]
    refine ⟨?_, rfl, state⟩
    rw [blocks, List.map_map]
    apply List.map_congr_left
    intro block member
    have present := (List.mem_filter.mp member).1
    rw [Function.comp_apply, Tracker.green_follow valid (tracks.tiled.mem_added present)]
    rfl

/-- The host deleted the line between the two changes and the one that was added last. The
changes touch and stay apart. -/
theorem twoChanges_keep_identity :
    twoChanges.state = .reviewing ∧ twoChanges.tracker.EditFits 1 (-2) ∧
      ∃ turn, twoChanges.applyEdit ⟨["x"]⟩ 1 (-2) = .ok turn ∧
        turn.session.registry.blocks.map (fun block => (block.id, block.red, block.green)) =
          [(⟨⟨1⟩, 0⟩, 0, 1), (⟨⟨1⟩, 1⟩, 1, 0)] ∧ turn.session.state = .reviewing := by
  have reachable : Reachable twoChanges ⟨["x"]⟩ := twoChanges_reachable.host ⟨["x"]⟩
  have fits : twoChanges.tracker.EditFits 1 (-2) :=
    Tracker.editFits_deleted (by decide) (by decide)
  rcases reachable.edit_keeps_identity rfl (by decide) fits (by decide) with
    ⟨turn, applied, _, blocks, _, state⟩
  exact ⟨rfl, fits, turn, applied, blocks, state⟩

/-- A report of 2^60 deleted lines is abandoned, though the blocks would keep their ghosts. -/
theorem twoChanges_capacity : ¬∀ session buffer, Reachable session buffer →
    session.state = .reviewing → ∀ (line : Nat) (delta : Int), delta ≠ 0 →
      session.tracker.EditFits line delta →
        ∃ turn, session.applyEdit buffer line delta = .ok turn ∧ turn.outcome = .ok true := by
  intro always
  have fits : twoChanges.tracker.EditFits 0 (-1152921504606846976) :=
    Tracker.editFits_deleted (by decide) (by decide)
  rcases always twoChanges _ twoChanges_reachable rfl 0 _ (by decide) fits with
    ⟨turn, applied, _⟩
  have abandoned : twoChanges.applyEdit ⟨["x", "a", "y"]⟩ 0 (-1152921504606846976) =
      .error .capacityOverflow := rfl
  rw [abandoned] at applied
  simp at applied

end Session

end Redline
