import Redline.Proofs.Bisect
import Redline.Tracker.Edit

namespace Redline.Tracker

def Ascending (ghosts : List Ghost) : Prop :=
  ghosts.Pairwise fun first second => first.row < second.row

variable {tracker : Tracker} {ghosts : List Ghost}

theorem length_takeWhile_le (ascending : Ascending ghosts) {low row : Nat} (below : low ≤ row)
    (above : ∀ ghost ∈ ghosts, low ≤ ghost.row) :
    low + (ghosts.takeWhile fun ghost => decide (ghost.row < row)).length ≤ row := by
  induction ghosts generalizing low with
  | nil => simpa using below
  | cons ghost rest ih =>
      rcases List.pairwise_cons.mp ascending with ⟨first, later⟩
      have here := above ghost List.mem_cons_self
      rw [List.takeWhile_cons]
      by_cases inside : ghost.row < row
      · have next : low + 1 ≤ row := by omega
        have behind := ih later next fun other member => by
          have order := first other member
          omega
        simp only [inside, decide_true, if_true, List.length_cons]
        omega
      · simpa [inside] using below

theorem removedBefore_le (ascending : Ascending tracker.ghosts) (row : Nat) :
    tracker.removedBefore row ≤ row := by
  simpa [removedBefore] using length_takeWhile_le ascending (Nat.zero_le row) (by simp)

theorem stepOver_lt_iff (ascending : Ascending ghosts) (line row : Nat) :
    stepOver line ghosts < row ↔
      line + (ghosts.takeWhile fun ghost => decide (ghost.row < row)).length < row := by
  induction ghosts generalizing line with
  | nil => simp [stepOver]
  | cons ghost rest ih =>
      rcases List.pairwise_cons.mp ascending with ⟨first, later⟩
      have room := fun inside : ghost.row ≤ row => length_takeWhile_le ascending inside (by
        intro other member
        rcases List.mem_cons.mp member with rfl | member
        · exact Nat.le_refl _
        · exact Nat.le_of_lt (first other member))
      rw [stepOver, List.takeWhile_cons] at *
      by_cases inside : ghost.row < row
      · have room := room (Nat.le_of_lt inside)
        simp only [inside, decide_true, if_true, List.length_cons] at room ⊢
        split
        · rw [ih later]
          omega
        · omega
      · simp only [inside, decide_false, Bool.false_eq_true, if_false, List.length_nil]
        split
        · rw [ih later]
          omega
        · omega

theorem viewRow_lt_iff (ascending : Ascending tracker.ghosts) (line row : Nat) :
    tracker.viewRow line < row ↔ line < tracker.bufferLine row := by
  rw [viewRow, stepOver_lt_iff ascending, bufferLine, removedBefore]
  omega

theorem le_stepOver (line : Nat) : line ≤ stepOver line ghosts := by
  induction ghosts generalizing line with
  | nil => exact Nat.le_refl _
  | cons ghost rest ih =>
      rw [stepOver]
      split
      · exact Nat.le_of_succ_le (ih (line + 1))
      · exact Nat.le_refl _

theorem stepOver_le (row : Nat) (ghosts : List Ghost) :
    stepOver row ghosts ≤ row + ghosts.length := by
  induction ghosts generalizing row with
  | nil => exact Nat.le_refl _
  | cons ghost rest ih =>
      rw [stepOver, List.length_cons]
      split
      · have later := ih (row + 1)
        omega
      · exact Nat.le_add_right _ _

theorem anchoredAbove_le (line passed : Nat) (ghosts : List Ghost) :
    anchoredAbove line passed ghosts ≤ ghosts.length := by
  induction ghosts generalizing passed with
  | nil => exact Nat.le_refl _
  | cons ghost rest ih =>
      rw [anchoredAbove, List.length_cons]
      split
      · exact Nat.succ_le_succ (ih (passed + 1))
      · exact Nat.zero_le _

theorem stepOver_anchored (ascending : Ascending ghosts) (line passed : Nat)
    (above : ∀ ghost ∈ ghosts, passed ≤ ghost.row) :
    stepOver (line + passed) ghosts = line + passed + anchoredAbove (line + 1) passed ghosts := by
  induction ghosts generalizing passed with
  | nil => rfl
  | cons ghost rest ih =>
      rcases List.pairwise_cons.mp ascending with ⟨first, later⟩
      have here := above ghost List.mem_cons_self
      rw [stepOver, anchoredAbove]
      by_cases inside : ghost.row ≤ line + passed
      · have behind := ih later (passed + 1) fun other member => by
          have order := first other member
          omega
        rw [if_pos inside, if_pos (by omega), Nat.add_assoc, behind]
        omega
      · rw [if_neg inside, if_neg (by omega), Nat.add_zero]

theorem anchoredAbove_zero (passed : Nat) : anchoredAbove 0 passed ghosts = 0 := by
  cases ghosts with
  | nil => rfl
  | cons ghost rest => simp [anchoredAbove]

theorem anchorRow_zero : tracker.anchorRow 0 = 0 := by
  rw [anchorRow, anchoredAbove_zero]

/-- Lines go in right below the line before them. -/
theorem anchorRow_succ (ascending : Ascending tracker.ghosts) (line : Nat) :
    tracker.anchorRow (line + 1) = tracker.viewRow line + 1 := by
  have step := stepOver_anchored ascending line 0 (by simp)
  rw [Nat.add_zero] at step
  rw [anchorRow, viewRow, step]
  omega

theorem anchorRow_le_iff (ascending : Ascending tracker.ghosts) (line row : Nat) :
    tracker.anchorRow line ≤ row ↔ line ≤ tracker.bufferLine row := by
  cases line with
  | zero => simp [anchorRow_zero]
  | succ line =>
      have order := viewRow_lt_iff ascending line row
      rw [anchorRow_succ ascending]
      omega

theorem countP_lt_succ (rows : List Nat) (row : Nat) :
    rows.countP (fun other => decide (other < row + 1)) =
      rows.countP (fun other => decide (other < row)) + rows.count row := by
  induction rows with
  | nil => rfl
  | cons other rest ih =>
      simp only [List.countP_cons, List.count_cons, ih, decide_eq_true_eq, beq_iff_eq]
      split <;> split <;> split <;> omega

theorem removedBefore_eq_countP (ascending : Ascending tracker.ghosts) (row : Nat) :
    tracker.removedBefore row =
      (tracker.ghosts.map Ghost.row).countP fun ghost => decide (ghost < row) := by
  have partitioned := partitioned_lt (List.pairwise_map.mpr ascending) row
  rw [List.countP_eq_length_filter, ← partitioned.takeWhile_eq, List.takeWhile_map,
    List.length_map]
  rfl

/-- A ghost shows no line of its own. -/
theorem bufferLine_succ (ascending : Ascending tracker.ghosts) (row : Nat) :
    tracker.bufferLine (row + 1) = if row ∈ tracker.ghosts.map Ghost.row then
      tracker.bufferLine row else tracker.bufferLine row + 1 := by
  have distinct : (tracker.ghosts.map Ghost.row).Nodup :=
    (List.pairwise_map.mpr ascending).imp Nat.ne_of_lt
  have within := removedBefore_le ascending row
  rw [removedBefore_eq_countP ascending] at within
  simp only [bufferLine, removedBefore_eq_countP ascending, countP_lt_succ, distinct.count]
  split <;> omega

theorem viewRow_eq_iff (ascending : Ascending tracker.ghosts) {line row : Nat} :
    tracker.viewRow line = row ↔
      tracker.bufferLine row = line ∧ row ∉ tracker.ghosts.map Ghost.row := by
  have here := viewRow_lt_iff ascending line row
  have next := viewRow_lt_iff ascending line (row + 1)
  rw [bufferLine_succ ascending] at next
  constructor
  · intro shows
    split at next
    · omega
    · rename_i live
      exact ⟨by omega, live⟩
  · rintro ⟨reached, live⟩
    rw [if_neg live] at next
    omega

theorem bufferLine_viewRow (ascending : Ascending tracker.ghosts) (line : Nat) :
    tracker.bufferLine (tracker.viewRow line) = line :=
  ((viewRow_eq_iff ascending).mp rfl).1

theorem viewRow_notMem (ascending : Ascending tracker.ghosts) (line : Nat) :
    tracker.viewRow line ∉ tracker.ghosts.map Ghost.row :=
  ((viewRow_eq_iff ascending).mp rfl).2

theorem bufferLine_anchorRow (ascending : Ascending tracker.ghosts) (line : Nat) :
    tracker.bufferLine (tracker.anchorRow line) = line := by
  cases line with
  | zero => rw [anchorRow_zero, bufferLine, Nat.zero_sub]
  | succ line =>
      rw [anchorRow_succ ascending, bufferLine_succ ascending,
        if_neg (viewRow_notMem ascending line), bufferLine_viewRow ascending]

theorem stepOver_lt_stepOver {first second : Nat} (below : first < second) :
    stepOver first ghosts < stepOver second ghosts := by
  induction ghosts generalizing first second with
  | nil => exact below
  | cons ghost rest ih =>
      rw [stepOver, stepOver]
      by_cases inside : ghost.row ≤ first
      · rw [if_pos inside, if_pos (Nat.le_trans inside (Nat.le_of_lt below))]
        exact ih (Nat.succ_lt_succ below)
      · rw [if_neg inside]
        split
        · exact Nat.lt_of_lt_of_le (Nat.lt_succ_of_lt below) (le_stepOver (second + 1))
        · exact below

theorem viewRows_ascending (tracker : Tracker) (line count : Nat) :
    ((List.range' line count).map tracker.viewRow).Pairwise (· < ·) := by
  rw [List.pairwise_map]
  exact List.Pairwise.imp stepOver_lt_stepOver List.pairwise_lt_range'

theorem countP_lt_range' (start count bound : Nat) :
    (List.range' start count).countP (fun line => decide (line < bound)) =
      min (start + count) bound - min start bound := by
  induction count generalizing start with
  | zero => simp
  | succ count ih =>
      rw [List.range'_succ, List.countP_cons, ih]
      by_cases inside : start < bound
      · simp only [inside, decide_true, if_true]
        omega
      · simp only [inside, decide_false, Bool.false_eq_true, if_false]
        omega

/-- Of the rows that show deleted lines, those above a row show lines that come before the
line at that row. -/
theorem deletedBefore_eq (ascending : Ascending tracker.ghosts) (line count row : Nat) :
    RowShift.deletedBefore ((List.range' line count).map tracker.viewRow) row =
      min (line + count) (tracker.bufferLine row) - min line (tracker.bufferLine row) := by
  rw [RowShift.deletedBefore,
    bisect_eq_countP (partitioned_lt (viewRows_ascending tracker line count) row), List.countP_map,
    ← countP_lt_range']
  apply List.countP_congr
  intro deleted _
  simpa using viewRow_lt_iff ascending deleted row

end Redline.Tracker
