import Redline.Proofs.Edits
import Redline.Proofs.Validity

namespace Redline

/-! ## Counting deleted rows -/

namespace RowShift

variable {rows : List Nat} {first second row : Nat}

theorem deletedBefore_eq_countP (ascending : rows.Pairwise (· < ·)) (row : Nat) :
    deletedBefore rows row = rows.countP fun deleted => decide (deleted < row) :=
  bisect_eq_countP (partitioned_lt ascending row)

theorem countP_lt_add (rows : List Nat) (order : first ≤ second) :
    rows.countP (fun row => decide (row < second)) =
      rows.countP (fun row => decide (row < first)) +
        rows.countP fun row => decide (first ≤ row ∧ row < second) := by
  induction rows with
  | nil => rfl
  | cons row rest ih =>
      simp only [List.countP_cons, ih, decide_eq_true_eq]
      split <;> split <;> split <;> omega

theorem countP_within_le (ascending : rows.Pairwise (· < ·)) (first second : Nat) :
    rows.countP (fun row => decide (first ≤ row ∧ row < second)) ≤ second - first := by
  have distinct : rows.Nodup := ascending.imp Nat.ne_of_lt
  have within : rows.filter (fun row => decide (first ≤ row ∧ row < second)) ⊆
      List.range' first (second - first) := by
    intro row member
    have bounds := of_decide_eq_true (List.mem_filter.mp member).2
    rw [List.mem_range'_1]
    omega
  have few := (distinct.filter _).length_le_of_subset within
  rwa [List.length_range', ← List.countP_eq_length_filter] at few

theorem countP_within_lt (ascending : rows.Pairwise (· < ·)) (order : first < second)
    (spared : first ∉ rows) :
    rows.countP (fun row => decide (first ≤ row ∧ row < second)) < second - first := by
  have same : rows.countP (fun row => decide (first ≤ row ∧ row < second)) =
      rows.countP fun row => decide (first + 1 ≤ row ∧ row < second) := by
    apply List.countP_congr
    intro row member
    have other : row ≠ first := by
      rintro rfl
      exact spared member
    simp only [decide_eq_true_eq]
    omega
  have few := countP_within_le ascending (first + 1) second
  omega

theorem deletedBefore_add (ascending : rows.Pairwise (· < ·)) (order : first ≤ second) :
    deletedBefore rows second = deletedBefore rows first +
      rows.countP fun row => decide (first ≤ row ∧ row < second) := by
  rw [deletedBefore_eq_countP ascending, deletedBefore_eq_countP ascending,
    countP_lt_add rows order]

theorem deletedBefore_le (ascending : rows.Pairwise (· < ·)) (row : Nat) :
    deletedBefore rows row ≤ row := by
  have few := countP_within_le ascending 0 row
  have none : rows.countP (fun row => decide (row < 0)) = 0 := by
    simp
  rw [deletedBefore_add ascending (Nat.zero_le row), deletedBefore_eq_countP ascending, none]
  omega

end RowShift

/-! ## What an edit does to rows -/

/-- The shift keeps the rows that are not `gone` in order, and every added range with the rows it
holds. -/
structure RowShift.Orderly (shift : RowShift) (added : List AddedRange) (gone : List Nat) :
    Prop where
  move : ∀ first second, first < second → first ∉ gone → second ∉ gone →
    shift.move first < shift.move second
  holds : ∀ range ∈ added, ∀ row, row ∉ gone →
    ((range.follow shift).Holds (shift.move row) ↔ range.Holds row)
  apart : ∀ first ∈ added, ∀ second ∈ added, first.stop ≤ second.start →
    (first.follow shift).stop ≤ (second.follow shift).start

namespace AddedRange

theorem start_follow (range : AddedRange) (shift : RowShift) :
    (range.follow shift).start = shift.move range.start := by
  cases shift <;> rfl

theorem stop_follow_inserted {range : AddedRange} (filled : 0 < range.count) (first count : Nat) :
    (range.follow (.inserted first count)).stop =
      if first < range.stop then range.stop + count else range.stop := by
  have width : range.stop = range.start + range.count := rfl
  have moved : (range.follow (.inserted first count)).stop =
      (RowShift.inserted first count).move range.start + (range.grow first count).count := rfl
  rw [moved, count_grow, RowShift.move]
  split <;> split <;> split <;> omega

theorem stop_follow_deleted {rows : List Nat} (ascending : rows.Pairwise (· < ·))
    (range : AddedRange) :
    (range.follow (.deleted rows)).stop = (RowShift.deleted rows).move range.stop := by
  have order : range.start ≤ range.stop := Nat.le_add_right _ _
  have few := RowShift.countP_within_le ascending range.start range.stop
  have above := RowShift.deletedBefore_le ascending range.start
  simp only [follow, RowShift.lost, RowShift.move, RowShift.deletedBefore_add ascending order]
  simp only [stop] at few ⊢
  omega

end AddedRange

namespace RowShift

theorem orderly_inserted {added : List AddedRange} (filled : ∀ range ∈ added, 0 < range.count)
    (first count : Nat) : Orderly (.inserted first count) added [] := by
  constructor
  · intro above below order _ _
    simp only [RowShift.move]
    split <;> split <;> omega
  · intro range member row _
    have whole := filled range member
    have width : range.stop = range.start + range.count := rfl
    rw [AddedRange.Holds, AddedRange.Holds, AddedRange.start_follow,
      AddedRange.stop_follow_inserted whole, RowShift.move, RowShift.move]
    split <;> split <;> split <;> omega
  · intro above inAbove below _ order
    have whole := filled above inAbove
    rw [AddedRange.start_follow, AddedRange.stop_follow_inserted whole, RowShift.move]
    split <;> split <;> omega

theorem move_deleted_le {rows : List Nat} (ascending : rows.Pairwise (· < ·))
    {first second : Nat} (order : first ≤ second) :
    (deleted rows).move first ≤ (deleted rows).move second := by
  have few := countP_within_le ascending first second
  have above := deletedBefore_le ascending first
  simp only [RowShift.move, deletedBefore_add ascending order]
  omega

theorem move_deleted_lt {rows : List Nat} (ascending : rows.Pairwise (· < ·))
    {first second : Nat} (order : first < second) (spared : first ∉ rows) :
    (deleted rows).move first < (deleted rows).move second := by
  have few := countP_within_lt ascending order spared
  have above := deletedBefore_le ascending first
  simp only [RowShift.move, deletedBefore_add ascending (Nat.le_of_lt order)]
  omega

theorem orderly_deleted {rows : List Nat} (ascending : rows.Pairwise (· < ·))
    (added : List AddedRange) : Orderly (.deleted rows) added rows := by
  constructor
  · intro first second order spared _
    exact move_deleted_lt ascending order spared
  · intro range _ row spared
    rw [AddedRange.Holds, AddedRange.start_follow, AddedRange.stop_follow_deleted ascending]
    constructor
    · rintro ⟨above, below⟩
      constructor
      · by_contra outside
        have moved := move_deleted_lt ascending (Nat.lt_of_not_le outside) spared
        omega
      · by_contra outside
        have moved := move_deleted_le ascending (Nat.le_of_not_lt outside)
        omega
    · rintro ⟨above, below⟩
      exact ⟨move_deleted_le ascending above, move_deleted_lt ascending below spared⟩
  · intro first _ second _ order
    rw [AddedRange.start_follow, AddedRange.stop_follow_deleted ascending]
    exact move_deleted_le ascending order

end RowShift

namespace Tracker

variable {tracker : Tracker} {shift : RowShift} {gone : List Nat} {line row : Nat} {delta : Int}

def Adds (tracker : Tracker) (row : Nat) : Prop := ∃ range ∈ tracker.added, range.Holds row

def followed (tracker : Tracker) (shift : RowShift) : Tracker := (tracker.grown shift).moved shift

theorem ghosts_followed : (tracker.followed shift).ghosts =
    tracker.ghosts.map fun ghost => { ghost with row := shift.move ghost.row } := by
  rw [followed, moved_grown]

theorem rows_followed : (tracker.followed shift).ghosts.map Ghost.row =
    (tracker.ghosts.map Ghost.row).map shift.move := by
  rw [ghosts_followed, List.map_map, List.map_map]
  rfl

theorem mem_added_followed {range : AddedRange} : range ∈ (tracker.followed shift).added ↔
    (∃ old ∈ tracker.added, old.follow shift = range) ∧ range.count ≠ 0 := by
  rw [followed, moved_grown, List.mem_filter, List.mem_map, bne_iff_ne]

/-! ## Rows that are left -/

section Orderly

variable (orderly : shift.Orderly tracker.added gone)
  (live : ∀ row ∈ tracker.ghosts.map Ghost.row, row ∉ gone)

include orderly

theorem move_lt_iff (first second : Nat) (inFirst : first ∉ gone) (inSecond : second ∉ gone) :
    shift.move first < shift.move second ↔ first < second := by
  constructor
  · intro moved
    by_contra other
    rcases Nat.lt_or_eq_of_le (Nat.le_of_not_lt other) with below | same
    · have back := orderly.move second first below inSecond inFirst
      omega
    · rw [same] at moved
      exact Nat.lt_irrefl _ moved
  · intro below
    exact orderly.move first second below inFirst inSecond

theorem adds_followed (spared : row ∉ gone) :
    (tracker.followed shift).Adds (shift.move row) ↔ tracker.Adds row := by
  constructor
  · rintro ⟨range, member, holds⟩
    rcases mem_added_followed.mp member with ⟨⟨old, present, rfl⟩, _⟩
    exact ⟨old, present, (orderly.holds old present row spared).mp holds⟩
  · rintro ⟨old, present, holds⟩
    have moved := (orderly.holds old present row spared).mpr holds
    refine ⟨old.follow shift, mem_added_followed.mpr ⟨⟨old, present, rfl⟩, ?_⟩, moved⟩
    intro empty
    simp only [AddedRange.Holds, AddedRange.stop, empty] at moved
    omega

include live

theorem valid_followed (valid : tracker.Valid) : (tracker.followed shift).Valid := by
  constructor
  · intro range member
    exact Nat.pos_of_ne_zero (mem_added_followed.mp member).2
  · rw [followed, moved_grown]
    apply List.Pairwise.filter
    rw [List.pairwise_map]
    refine valid.ranges.imp_of_mem ?_
    intro first second inFirst inSecond order
    exact orderly.apart first inFirst second inSecond order
  · rw [ghosts_followed, Ascending, List.pairwise_map]
    refine valid.ghosts.imp_of_mem ?_
    intro first second inFirst inSecond below
    exact orderly.move _ _ below (live _ (List.mem_map_of_mem inFirst))
      (live _ (List.mem_map_of_mem inSecond))
  · intro range member ghost present holds
    rw [ghosts_followed] at present
    rcases List.mem_map.mp present with ⟨before, inside, rfl⟩
    have spared := live _ (List.mem_map_of_mem inside)
    rcases (adds_followed orderly spared).mp ⟨range, member, holds⟩ with ⟨old, known, reached⟩
    exact valid.apart old known before inside reached

theorem removedBefore_followed (valid : tracker.Valid) (spared : row ∉ gone) :
    (tracker.followed shift).removedBefore (shift.move row) = tracker.removedBefore row := by
  have ascending := (valid_followed orderly live valid).ghosts
  rw [removedBefore_eq_countP ascending, removedBefore_eq_countP valid.ghosts, rows_followed,
    List.countP_map]
  apply List.countP_congr
  intro ghost member
  simpa using move_lt_iff orderly ghost row (live ghost member) spared

/-- The row of a line that is left is where the shift takes its old row. -/
theorem viewRow_followed (valid : tracker.Valid) {after : Nat}
    (spared : tracker.viewRow line ∉ gone)
    (place : shift.move (tracker.viewRow line) =
      after + tracker.removedBefore (tracker.viewRow line)) :
    (tracker.followed shift).viewRow after = shift.move (tracker.viewRow line) := by
  have ascending := (valid_followed orderly live valid).ghosts
  refine (viewRow_eq_iff ascending).mpr ⟨?_, ?_⟩
  · rw [bufferLine, removedBefore_followed orderly live valid spared, place,
      Nat.add_sub_cancel_right]
  · rw [rows_followed]
    intro member
    rcases List.mem_map.mp member with ⟨ghost, present, same⟩
    have below := move_lt_iff orderly ghost (tracker.viewRow line) (live ghost present) spared
    have above := move_lt_iff orderly (tracker.viewRow line) ghost spared (live ghost present)
    have equal : ghost = tracker.viewRow line := by omega
    rw [equal] at present
    exact viewRow_notMem valid.ghosts line present

end Orderly

/-! ## The two kinds of edits -/

/-- The number that a line has after an edit at line `line`, unless the edit deleted it. -/
def lineAfter (line : Nat) (delta : Int) (other : Nat) : Option Nat :=
  if other < line then some other
  else if (line : Int) ≤ other + delta then some (other + delta).toNat
  else none

theorem lineAfter_eq_some {other after : Nat} : lineAfter line delta other = some after ↔
    other < line ∧ other = after ∨
      line ≤ other ∧ (line : Int) ≤ after ∧ (other + delta : Int) = after := by
  unfold lineAfter
  split
  · rw [Option.some.injEq]
    omega
  · split
    · rw [Option.some.injEq]
      omega
    · simp only [reduceCtorEq, false_iff]
      omega

def deletedRows (tracker : Tracker) (line : Nat) (delta : Int) : List Nat :=
  (List.range' line (-delta).toNat).map tracker.viewRow

/-- The row numbers that an edit computes are below the limit: the row where lines go in and all
tracked rows after that, or the rows that show deleted lines. -/
def EditFits (tracker : Tracker) (line : Nat) (delta : Int) : Prop :=
  (0 < delta → tracker.anchorRow line < rowLimit ∧
    (tracker.followed (.inserted (tracker.anchorRow line) delta.toNat)).fits = true) ∧
  (delta < 0 → line + delta.natAbs < rowLimit ∧
    ∀ deleted ∈ List.range' line delta.natAbs, tracker.viewRow deleted < rowLimit)

theorem editFits_deleted (negative : delta < 0)
    (small : line + delta.natAbs + tracker.ghosts.length < rowLimit) :
    tracker.EditFits line delta := by
  refine ⟨by omega, fun _ => ⟨by omega, ?_⟩⟩
  intro deleted member
  have bounds := List.mem_range'_1.mp member
  have reach := stepOver_le deleted tracker.ghosts
  rw [viewRow]
  omega

def editShift (tracker : Tracker) (line : Nat) (delta : Int) : RowShift :=
  if 0 < delta then .inserted (tracker.anchorRow line) delta.toNat
  else .deleted (tracker.deletedRows line delta)

theorem deletedRows_ascending (tracker : Tracker) (line : Nat) (delta : Int) :
    (tracker.deletedRows line delta).Pairwise (· < ·) :=
  viewRows_ascending tracker line _

theorem deletedRows_inserted (positive : 0 < delta) : tracker.deletedRows line delta = [] := by
  have none : (-delta).toNat = 0 := by omega
  rw [deletedRows, none]
  rfl

theorem notMem_deletedRows (ascending : Ascending tracker.ghosts) (line : Nat) (delta : Int) :
    ∀ row ∈ tracker.ghosts.map Ghost.row, row ∉ tracker.deletedRows line delta := by
  intro row member gone
  rcases List.mem_map.mp gone with ⟨deleted, _, same⟩
  rw [← same] at member
  exact viewRow_notMem ascending deleted member

theorem orderly_editShift (valid : tracker.Valid) (line : Nat) (delta : Int) :
    (tracker.editShift line delta).Orderly tracker.added (tracker.deletedRows line delta) := by
  rw [editShift]
  split
  · rename_i positive
    rw [deletedRows_inserted positive]
    exact RowShift.orderly_inserted valid.filled _ _
  · exact RowShift.orderly_deleted (deletedRows_ascending tracker line delta) _

theorem viewRow_eq_add (ascending : Ascending tracker.ghosts) (line : Nat) :
    tracker.viewRow line = line + tracker.removedBefore (tracker.viewRow line) := by
  have reached := bufferLine_viewRow ascending line
  have within := removedBefore_le ascending (tracker.viewRow line)
  rw [bufferLine] at reached
  omega

theorem spared_of_lineAfter (tracker : Tracker) {other after : Nat}
    (left : lineAfter line delta other = some after) :
    tracker.viewRow other ∉ tracker.deletedRows line delta := by
  intro gone
  rcases List.mem_map.mp gone with ⟨deleted, member, same⟩
  have bounds := List.mem_range'_1.mp member
  have equal : deleted = other := by
    rcases Nat.lt_trichotomy deleted other with below | equal | above
    · have order : tracker.viewRow deleted < tracker.viewRow other := stepOver_lt_stepOver below
      omega
    · exact equal
    · have order : tracker.viewRow other < tracker.viewRow deleted := stepOver_lt_stepOver above
      omega
  rcases lineAfter_eq_some.mp left with above | below <;> omega

/-- A line and the row that shows it move by the same distance. -/
theorem move_viewRow (valid : tracker.Valid) {other after : Nat}
    (left : lineAfter line delta other = some after) :
    (tracker.editShift line delta).move (tracker.viewRow other) =
      after + tracker.removedBefore (tracker.viewRow other) := by
  have ascending := valid.ghosts
  have here := viewRow_eq_add ascending other
  have reached := bufferLine_viewRow ascending other
  rw [editShift]
  split
  · have anchored := anchorRow_le_iff ascending line (tracker.viewRow other)
    rw [reached] at anchored
    simp only [RowShift.move, anchored]
    rcases lineAfter_eq_some.mp left with ⟨above, same⟩ | ⟨below, _, same⟩
    · rw [if_neg (by omega)]
      omega
    · rw [if_pos below]
      omega
  · have above := deletedBefore_eq ascending line (-delta).toNat (tracker.viewRow other)
    rw [reached] at above
    simp only [RowShift.move, deletedRows, above]
    rcases lineAfter_eq_some.mp left with above | below <;> omega

/-! ## Inserted lines -/

theorem valid_inserted (valid : tracker.Valid) (first count : Nat) :
    (tracker.followed (.inserted first count)).Valid :=
  valid_followed (RowShift.orderly_inserted valid.filled first count)
    (fun _ _ => List.not_mem_nil) valid

/-- Inserted lines stand where the edit is anchored, one below the other. -/
theorem viewRow_fresh (valid : tracker.Valid) {count index : Nat} (inside : index < count) :
    (tracker.followed (.inserted (tracker.anchorRow line) count)).viewRow (line + index) =
      tracker.anchorRow line + index := by
  have ascending := valid.ghosts
  have next := (valid_inserted valid (tracker.anchorRow line) count).ghosts
  have reached := bufferLine_anchorRow ascending line
  have within := removedBefore_le ascending (tracker.anchorRow line)
  have above : (tracker.followed (.inserted (tracker.anchorRow line) count)).removedBefore
      (tracker.anchorRow line + index) = tracker.removedBefore (tracker.anchorRow line) := by
    rw [removedBefore_eq_countP next, removedBefore_eq_countP ascending, rows_followed,
      List.countP_map]
    apply List.countP_congr
    intro ghost _
    rw [Function.comp_apply, decide_eq_true_iff, decide_eq_true_iff, RowShift.move]
    split <;> omega
  refine (viewRow_eq_iff next).mpr ⟨?_, ?_⟩
  · rw [bufferLine] at reached ⊢
    omega
  · rw [rows_followed]
    intro member
    rcases List.mem_map.mp member with ⟨ghost, _, same⟩
    simp only [RowShift.move] at same
    split at same <;> omega

theorem adds_fresh (valid : tracker.Valid) {first count index : Nat} (inside : index < count) :
    (tracker.followed (.inserted first count)).Adds (first + index) ↔
      ∃ range ∈ tracker.added, range.start < first ∧ first < range.stop := by
  have holds : ∀ range ∈ tracker.added,
      ((range.follow (.inserted first count)).Holds (first + index) ↔
        range.start < first ∧ first < range.stop) := by
    intro range member
    have whole := valid.filled range member
    rw [AddedRange.Holds, AddedRange.start_follow, AddedRange.stop_follow_inserted whole,
      RowShift.move]
    split <;> split <;> omega
  constructor
  · rintro ⟨range, member, reached⟩
    rcases mem_added_followed.mp member with ⟨⟨old, present, rfl⟩, _⟩
    exact ⟨old, present, (holds old present).mp reached⟩
  · rintro ⟨old, present, between⟩
    have reached := (holds old present).mpr between
    refine ⟨old.follow _, mem_added_followed.mpr ⟨⟨old, present, rfl⟩, ?_⟩, reached⟩
    intro empty
    simp only [AddedRange.Holds, AddedRange.stop, empty] at reached
    omega

theorem inside_iff (valid : tracker.Valid) {range : AddedRange} (member : range ∈ tracker.added)
    (line : Nat) : range.start < tracker.anchorRow line ∧ tracker.anchorRow line < range.stop ↔
      0 < line ∧ range.Holds (tracker.viewRow (line - 1)) ∧ range.Holds (tracker.viewRow line) := by
  have ascending := valid.ghosts
  have anchored := (anchorRow_le_iff ascending line (tracker.viewRow line)).mpr
    (Nat.le_of_eq (bufferLine_viewRow ascending line).symm)
  cases line with
  | zero => simp [anchorRow_zero]
  | succ line =>
      have below := anchorRow_succ ascending line
      simp only [AddedRange.Holds, Nat.add_sub_cancel]
      constructor
      · rintro ⟨above, reached⟩
        -- No ghost stands inside a range, so the line behind the place is shown right there.
        have shown : tracker.viewRow (line + 1) = tracker.anchorRow (line + 1) := by
          refine (viewRow_eq_iff ascending).mpr ⟨bufferLine_anchorRow ascending _, ?_⟩
          intro ghostly
          rcases List.mem_map.mp ghostly with ⟨ghost, present, same⟩
          apply valid.apart range member ghost present
          rw [same]
          exact ⟨Nat.le_of_lt above, reached⟩
        omega
      · omega

/-! ## The edit -/

theorem fits_followed (checked : tracker.checked = .ok tracker)
    (fits : tracker.EditFits line delta) :
    (tracker.followed (tracker.editShift line delta)).fits = true := by
  rcases checked_eq_ok.mp checked with ⟨small, valid⟩
  rw [editShift]
  split
  · rename_i positive
    exact (fits.1 positive).2
  · rw [Draft.fits_iff_mem] at small ⊢
    have ascending := deletedRows_ascending tracker line delta
    constructor
    · intro range member
      rcases mem_added_followed.mp member with ⟨⟨old, present, rfl⟩, _⟩
      rw [AddedRange.stop_follow_deleted ascending]
      exact Nat.lt_of_le_of_lt (Nat.sub_le _ _) (small.1 old present)
    · intro ghost member
      rw [ghosts_followed] at member
      rcases List.mem_map.mp member with ⟨old, present, rfl⟩
      have below := small.2 old present
      simp only [RowShift.move]
      omega

theorem shiftOf_eq (fits : tracker.EditFits line delta) (edited : delta ≠ 0)
    (short : -(rowListLimit : Int) < delta) :
    tracker.shiftOf line delta = .ok (tracker.editShift line delta) := by
  rcases Int.lt_or_gt_of_ne edited with negative | positive
  · have width : (-delta).toNat = delta.natAbs := by omega
    rw [editShift, if_neg (by omega), deletedRows, width]
    exact (shiftOf_deleted negative).mpr
      ⟨⟨(fits.2 negative).1, by omega, (fits.2 negative).2⟩, rfl⟩
  · rw [editShift, if_pos positive]
    exact (shiftOf_inserted positive).mpr ⟨(fits.1 positive).1, rfl⟩

theorem applyEdit_eq (checked : tracker.checked = .ok tracker) (fits : tracker.EditFits line delta)
    (edited : delta ≠ 0) (short : -(rowListLimit : Int) < delta) :
    tracker.applyEdit line delta =
      .ok (tracker.editShift line delta, tracker.followed (tracker.editShift line delta)) := by
  have valid := (checked_eq_ok.mp checked).2
  have next := valid_followed (orderly_editShift valid line delta)
    (notMem_deletedRows valid.ghosts line delta) valid
  have passed := checked_eq_ok.mpr ⟨fits_followed checked fits, next⟩
  rw [applyEdit, shiftOf_eq fits edited short, ok_bind, if_neg edited]
  rw [followed] at passed ⊢
  rw [passed]
  rfl

theorem apply_editShift (tracker : Tracker) (line : Nat) (delta : Int) (small : row < rowLimit) :
    (tracker.editShift line delta).apply row =
      Row.fit ((tracker.editShift line delta).move row) := by
  rw [editShift]
  split
  · simp only [RowShift.apply, RowShift.move]
    split
    · rfl
    · exact (if_pos small).symm
  · have within := RowShift.deletedBefore_le (deletedRows_ascending tracker line delta) row
    have below : row - RowShift.deletedBefore (tracker.deletedRows line delta) row < rowLimit := by
      omega
    simp only [RowShift.apply, RowShift.move, Row.sub_eq within]
    exact (if_pos below).symm

theorem deletedWithin_editShift (line : Nat) (delta : Int) {start stop : Nat}
    (order : start ≤ stop) : (tracker.editShift line delta).deletedWithin start stop =
      .ok ((tracker.deletedRows line delta).countP fun row =>
        decide (start ≤ row ∧ row < stop)) := by
  rw [editShift]
  split
  · rename_i positive
    rw [deletedRows_inserted positive]
    rfl
  · rw [RowShift.deletedWithin,
      RowShift.deletedBefore_add (deletedRows_ascending tracker line delta) order,
      Row.sub_eq (Nat.le_add_right _ _), Nat.add_sub_cancel_left]

/-- The shift that an edit answers is the row map of that edit. -/
theorem shift_maps_rows (checked : tracker.checked = .ok tracker) (line : Nat) {delta : Int}
    (edited : delta ≠ 0) (fits : tracker.EditFits line delta)
    (short : -(rowListLimit : Int) < delta) :
    ∃ shift next, tracker.applyEdit line delta = .ok (shift, next) ∧ next.checked = .ok next ∧
      next.ghosts = tracker.ghosts.map (fun ghost => { ghost with row := shift.move ghost.row }) ∧
      (∀ row < rowLimit, shift.apply row = Row.fit (shift.move row)) ∧
      (∀ other after, lineAfter line delta other = some after →
        next.viewRow after = shift.move (tracker.viewRow other) ∧
          (next.Adds (next.viewRow after) ↔ tracker.Adds (tracker.viewRow other))) ∧
      (∀ index : Nat, (index : Int) < delta → (next.Adds (next.viewRow (line + index)) ↔
        0 < line ∧ ∃ range ∈ tracker.added,
          range.Holds (tracker.viewRow (line - 1)) ∧ range.Holds (tracker.viewRow line))) ∧
      (∀ first second, first < second → first ∉ tracker.deletedRows line delta →
        second ∉ tracker.deletedRows line delta → shift.move first < shift.move second) ∧
      ∀ start stop, start ≤ stop → shift.deletedWithin start stop =
        .ok ((tracker.deletedRows line delta).countP fun row =>
          decide (start ≤ row ∧ row < stop)) := by
  have valid := (checked_eq_ok.mp checked).2
  have orderly := orderly_editShift valid line delta
  have live := notMem_deletedRows valid.ghosts line delta
  refine ⟨_, _, applyEdit_eq checked fits edited short,
    checked_eq_ok.mpr ⟨fits_followed checked fits, valid_followed orderly live valid⟩,
    ghosts_followed, fun row => apply_editShift tracker line delta, ?_, ?_, orderly.move,
    fun start stop => deletedWithin_editShift line delta⟩
  · intro other after left
    have spared := spared_of_lineAfter tracker left
    have shown := viewRow_followed orderly live valid spared (move_viewRow valid left)
    refine ⟨shown, ?_⟩
    rw [shown]
    exact adds_followed orderly spared
  · intro index inside
    have positive : 0 < delta := by omega
    have few : index < delta.toNat := by omega
    rw [editShift, if_pos positive, viewRow_fresh valid few, adds_fresh valid few]
    constructor
    · rintro ⟨range, member, between⟩
      rcases (inside_iff valid member line).mp between with ⟨below, both⟩
      exact ⟨below, range, member, both⟩
    · rintro ⟨below, range, member, both⟩
      exact ⟨range, member, (inside_iff valid member line).mpr ⟨below, both⟩⟩

def twoReplaced : Tracker := ⟨[⟨3, 2⟩], [⟨1, "b"⟩, ⟨2, "c"⟩]⟩

/-- The lines above and below the ghosts are deleted, which brings the last added line up. -/
theorem twoReplaced_maps_rows :
    twoReplaced.checked = .ok twoReplaced ∧ twoReplaced.EditFits 0 (-2) ∧
      ∃ shift next, twoReplaced.applyEdit 0 (-2) = .ok (shift, next) ∧
        next.viewRow 0 = shift.move (twoReplaced.viewRow 2) ∧ next.Adds (next.viewRow 0) := by
  have checked : twoReplaced.checked = .ok twoReplaced := by decide
  have fits : twoReplaced.EditFits 0 (-2) := editFits_deleted (by decide) (by decide)
  have last : twoReplaced.Adds (twoReplaced.viewRow 2) :=
    ⟨⟨3, 2⟩, by decide, by decide, by decide⟩
  rcases shift_maps_rows checked 0 (by decide) fits (by decide) with
    ⟨shift, next, applied, _, _, _, lines, _⟩
  rcases lines 2 0 rfl with ⟨shown, adds⟩
  exact ⟨checked, fits, shift, next, applied, shown, adds.mpr last⟩

/-- A report of 2^60 deleted lines is abandoned, though all rows it computes are far below the
limit. -/
theorem twoReplaced_capacity : ¬∀ (tracker : Tracker) (line : Nat) (delta : Int),
    tracker.checked = .ok tracker → delta ≠ 0 → tracker.EditFits line delta →
      ∃ shift next, tracker.applyEdit line delta = .ok (shift, next) := by
  intro always
  have fits : twoReplaced.EditFits 0 (-1152921504606846976) :=
    editFits_deleted (by decide) (by decide)
  rcases always twoReplaced 0 _ (by decide) (by decide) fits with ⟨shift, next, applied⟩
  have abandoned : twoReplaced.applyEdit 0 (-1152921504606846976) =
      .error .capacityOverflow := rfl
  rw [abandoned] at applied
  simp at applied

end Tracker

end Redline
