import Redline.Proofs.RowMap
import Redline.Proofs.Soundness

/-! Lines of the buffer and rows of the view that are no ghosts form one pairing. Three walks over
the ghosts compute it: a search by halving from a row to its line, a walk that steps over ghosts
from a line to its row, and a count that finds where an edit of a line is anchored. -/

namespace Redline.Tracker

variable {tracker : Tracker} {row other : Nat}

def Ghostly (tracker : Tracker) (row : Nat) : Prop := row ∈ tracker.ghosts.map Ghost.row

instance (tracker : Tracker) (row : Nat) : Decidable (tracker.Ghostly row) :=
  inferInstanceAs (Decidable (row ∈ tracker.ghosts.map Ghost.row))

theorem bisect_ghosts (ascending : Ascending tracker.ghosts) (row : Nat) :
    bisect (fun ghost => decide (ghost.row < row)) tracker.ghosts = tracker.removedBefore row := by
  have partitioned : Partitioned (fun ghost : Ghost => decide (ghost.row < row)) tracker.ghosts :=
    List.pairwise_map.mp (partitioned_lt (List.pairwise_map.mpr ascending) row)
  calc bisect (fun ghost => decide (ghost.row < row)) tracker.ghosts
      = tracker.ghosts.countP fun ghost => decide (ghost.row < row) := bisect_eq_countP partitioned
    _ = (tracker.ghosts.filter fun ghost => decide (ghost.row < row)).length :=
        List.countP_eq_length_filter
    _ = tracker.removedBefore row := by
        rw [removedBefore, partitioned.takeWhile_eq]

theorem viewRow_bufferLine (ascending : Ascending tracker.ghosts) (live : ¬tracker.Ghostly row) :
    tracker.viewRow (tracker.bufferLine row) = row :=
  (viewRow_eq_iff ascending).mpr ⟨rfl, live⟩

theorem le_viewRow_bufferLine (ascending : Ascending tracker.ghosts) (row : Nat) :
    row ≤ tracker.viewRow (tracker.bufferLine row) := by
  apply Nat.le_of_not_lt
  rw [viewRow_lt_iff ascending]
  exact Nat.lt_irrefl _

/-- From a row on there are only ghosts until the row that shows its line. -/
theorem ghostly_between (ascending : Ascending tracker.ghosts) (below : row ≤ other)
    (above : other < tracker.viewRow (tracker.bufferLine row)) : tracker.Ghostly other := by
  by_contra live
  have shown := viewRow_bufferLine ascending live
  -- A live row in between would show a line that comes before the line at `row`.
  have earlier : tracker.bufferLine other < tracker.bufferLine row := by
    apply Nat.lt_of_not_le
    intro later
    rcases Nat.lt_or_eq_of_le later with less | same
    · have order : tracker.viewRow (tracker.bufferLine row) <
          tracker.viewRow (tracker.bufferLine other) := stepOver_lt_stepOver less
      omega
    · rw [same, shown] at above
      exact Nat.lt_irrefl _ above
  have passed := (viewRow_lt_iff ascending _ row).mpr earlier
  omega

theorem anchorRow_le_viewRow (ascending : Ascending tracker.ghosts) (line : Nat) :
    tracker.anchorRow line ≤ tracker.viewRow line := by
  rw [anchorRow_le_iff ascending, bufferLine_viewRow ascending]

/-- In a tracker that passes its check, lines and live rows are paired in order, a ghost leads to
the first live row below it, and an edit is anchored above the ghosts of its line. No difference
of row numbers falls below zero on the way. -/
theorem lines_pair_with_live_rows (clear : tracker.violation? = none) :
    (∀ line, tracker.viewRow line < rowLimit →
      tracker.toViewLine line = .ok (tracker.viewRow line)) ∧
    (∀ line, tracker.anchorRow line < rowLimit →
      tracker.editAnchor line = .ok (tracker.anchorRow line)) ∧
    (∀ line, ¬tracker.Ghostly (tracker.viewRow line)) ∧
    (∀ first second, first < second → tracker.viewRow first < tracker.viewRow second) ∧
    (∀ line, tracker.bufferLine (tracker.viewRow line) = line) ∧
    (∀ row, ¬tracker.Ghostly row → tracker.viewRow (tracker.bufferLine row) = row) ∧
    (∀ row, tracker.Ghostly row → row < tracker.viewRow (tracker.bufferLine row) ∧
      ∀ other, row < other → other < tracker.viewRow (tracker.bufferLine row) →
        tracker.Ghostly other) ∧
    tracker.anchorRow 0 = 0 ∧
    (∀ line, tracker.anchorRow (line + 1) = tracker.viewRow line + 1) ∧
    (∀ line, tracker.anchorRow line ≤ tracker.viewRow line ∧
      ∀ row, tracker.anchorRow line ≤ row → row < tracker.viewRow line → tracker.Ghostly row) ∧
    (∀ row, bisect (fun ghost => decide (ghost.row < row)) tracker.ghosts =
        tracker.removedBefore row ∧ tracker.removedBefore row ≤ row) ∧
    ∀ (index : Nat) (ghost : Ghost), tracker.ghosts[index]? = some ghost → index ≤ ghost.row := by
  have ascending := (valid_of_violation? clear).ghosts
  refine ⟨fun line small => if_pos small, fun line small => if_pos small,
    viewRow_notMem ascending, fun _ _ below => stepOver_lt_stepOver below,
    bufferLine_viewRow ascending, fun _ live => viewRow_bufferLine ascending live, ?_,
    anchorRow_zero, anchorRow_succ ascending, ?_, ?_, ?_⟩
  · intro row ghostly
    have reached := le_viewRow_bufferLine ascending row
    have live := viewRow_notMem ascending (tracker.bufferLine row)
    have other : row ≠ tracker.viewRow (tracker.bufferLine row) := by
      intro same
      rw [← same] at live
      exact live ghostly
    exact ⟨Nat.lt_of_le_of_ne reached other, fun _ below above =>
      ghostly_between ascending (Nat.le_of_lt below) above⟩
  · intro line
    refine ⟨anchorRow_le_viewRow ascending line, ?_⟩
    intro row below above
    apply ghostly_between ascending below
    rwa [bufferLine_anchorRow ascending]
  · intro row
    exact ⟨bisect_ghosts ascending row, removedBefore_le ascending row⟩
  · intro index ghost found
    have place := index_le_row ascending (fun _ _ => Nat.zero_le _) found
    rwa [Nat.zero_add] at place

/-- The first of two ghosts leads past the second one to the row below them. -/
theorem twoReplaced_pairs : twoReplaced.violation? = none ∧ twoReplaced.Ghostly 1 ∧
    1 < twoReplaced.viewRow (twoReplaced.bufferLine 1) ∧ twoReplaced.viewRow 1 = 3 ∧
    twoReplaced.anchorRow 1 ≤ twoReplaced.viewRow 1 ∧ twoReplaced.bufferLine 3 = 1 := by
  have clear : twoReplaced.violation? = none := by decide
  have ghostly : twoReplaced.Ghostly 1 := by decide
  obtain ⟨_, _, _, _, lines, _, ghosts, _, _, anchors, _⟩ := lines_pair_with_live_rows clear
  have shown : twoReplaced.viewRow 1 = 3 := by decide
  have back := lines 1
  rw [shown] at back
  exact ⟨clear, ghostly, (ghosts 1 ghostly).1, shown, (anchors 1).1, back⟩

end Redline.Tracker
