import Redline.Proofs.Undoing

/-! Rows that part. Moving all rows from a line on further down leaves a gap above them; a range
that the line cuts stays where it is, as a whole. Two gaps can be made in either order, and a gap
can be closed again. -/

namespace Redline

theorem Row.eq_of_moveFrom {line row moved : Nat} (still : moveFrom line 0 row = .ok moved) :
    moved = row := by
  rw [moveFrom] at still
  split at still
  · have place := (eq_of_move still).1
    omega
  · exact (Except.ok.inj still).symm

namespace RowShift

variable {first count row : Nat}

theorem move_of_lt (above : row < first) : (inserted first count).move row = row :=
  if_neg (Nat.not_le.mpr above)

theorem move_of_le (below : first ≤ row) : (inserted first count).move row = row + count :=
  if_pos below

theorem le_move (first count row : Nat) : row ≤ (inserted first count).move row := by
  rcases Nat.lt_or_ge row first with above | below
  · exact Nat.le_of_eq (move_of_lt above).symm
  · exact move_of_le below ▸ Nat.le_add_right row count

theorem move_comm {second : Nat} (order : first ≤ second) (high low row : Nat) :
    (inserted (second + high) low).move ((inserted first high).move row) =
      (inserted first high).move ((inserted second low).move row) := by
  rcases Nat.lt_or_ge row first with above | below
  · rw [move_of_lt above, move_of_lt (show row < second by omega), move_of_lt above,
      move_of_lt (by omega)]
  · rw [move_of_le below]
    rcases Nat.lt_or_ge row second with between | under
    · rw [move_of_lt between, move_of_le below, move_of_lt (by omega)]
    · rw [move_of_le under, move_of_le (by omega), move_of_le (by omega), Nat.add_right_comm]

end RowShift

namespace Tracker

variable {tracker : Tracker} {line first second high low : Nat} {place : Nat → Nat} {offset : Int}

def placed (tracker : Tracker) (place : Nat → Nat) : Tracker where
  added := tracker.added.map fun range => { range with start := place range.start }
  ghosts := tracker.ghosts.map fun ghost => { ghost with row := place ghost.row }

/-- Rows from `line` on move as if `count` lines came in there, but no range becomes longer. -/
def parted (tracker : Tracker) (line count : Nat) : Tracker :=
  tracker.placed (RowShift.inserted line count).move

theorem placed_placed (tracker : Tracker) (first second : Nat → Nat) :
    (tracker.placed first).placed second = tracker.placed (second ∘ first) := by
  simp [placed, Function.comp_def]

def starts (tracker : Tracker) : List Nat :=
  tracker.added.map AddedRange.start ++ tracker.ghosts.map Ghost.row

theorem starts_placed (tracker : Tracker) (place : Nat → Nat) :
    (tracker.placed place).starts = tracker.starts.map place := by
  simp [starts, placed, Function.comp_def]

theorem placed_eq_self (still : ∀ row ∈ tracker.starts, place row = row) :
    tracker.placed place = tracker := by
  rw [starts, List.forall_mem_append, List.forall_mem_map, List.forall_mem_map] at still
  obtain ⟨ranges, ghosts⟩ := still
  have added : tracker.added.map (fun range => { range with start := place range.start }) =
      tracker.added.map id := by
    apply List.map_congr_left
    intro range member
    rw [ranges range member]
    rfl
  have removed : tracker.ghosts.map (fun ghost => { ghost with row := place ghost.row }) =
      tracker.ghosts.map id := by
    apply List.map_congr_left
    intro ghost member
    rw [ghosts ghost member]
    rfl
  rw [placed, added, removed, List.map_id, List.map_id]

/-- A shift that moves every row to its place, where the rows are in order. -/
theorem shiftFrom_eq
    (moves : ∀ row ∈ tracker.starts, Row.moveFrom line offset row = .ok (place row))
    (passes : (tracker.placed place).checked = .ok (tracker.placed place)) :
    tracker.shiftFrom line offset = .ok (tracker.placed place) := by
  rw [shiftFrom]
  split
  · rename_i none
    have still : ∀ row ∈ tracker.starts, place row = row := by
      intro row member
      have moved := moves row member
      rw [none] at moved
      exact Row.eq_of_moveFrom moved
    rw [placed_eq_self still]
  · rw [starts, List.forall_mem_append, List.forall_mem_map, List.forall_mem_map] at moves
    obtain ⟨ranges, ghosts⟩ := moves
    have added : (tracker.added.mapM fun range => do
        return { range with start := ← Row.moveFrom line offset range.start } :
          Except Fault (List AddedRange)) = .ok (tracker.placed place).added :=
      mapM_ok fun range member => by rw [ranges range member]; rfl
    have removed : (tracker.ghosts.mapM fun ghost => do
        return { ghost with row := ← Row.moveFrom line offset ghost.row } :
          Except Fault (List Ghost)) = .ok (tracker.placed place).ghosts :=
      mapM_ok fun ghost member => by rw [ghosts ghost member]; rfl
    rw [added, ok_bind, removed, ok_bind]
    exact passes

theorem valid_parted (valid : tracker.Valid) (line count : Nat) :
    (tracker.parted line count).Valid := by
  constructor
  · exact List.forall_mem_map.mpr valid.filled
  · refine List.pairwise_map.mpr (valid.ranges.imp ?_)
    intro first second below
    simp only [AddedRange.stop, RowShift.move] at below ⊢
    split <;> split <;> omega
  · refine List.pairwise_map.mpr (valid.ghosts.imp ?_)
    intro first second below
    simp only [RowShift.move]
    split <;> split <;> omega
  · simp only [parted, placed, List.forall_mem_map]
    intro range member ghost present
    have outside := valid.apart range member ghost present
    simp only [AddedRange.Holds, AddedRange.stop, RowShift.move] at outside ⊢
    split <;> split <;> omega

theorem fits_parted {count : Nat} : (tracker.parted line count).fits = true ↔
    (∀ range ∈ tracker.added,
      (RowShift.inserted line count).move range.start + range.count < rowLimit) ∧
      ∀ ghost ∈ tracker.ghosts, (RowShift.inserted line count).move ghost.row + 1 < rowLimit := by
  rw [Draft.fits_iff_mem, parted, placed, List.forall_mem_map, List.forall_mem_map]
  rfl

theorem fits_of_parted {count : Nat} (fits : (tracker.parted line count).fits = true) :
    tracker.fits = true := by
  obtain ⟨ranges, ghosts⟩ := fits_parted.mp fits
  refine Draft.fits_iff_mem.mpr ⟨?_, ?_⟩
  · intro range member
    have moved := ranges range member
    have further := RowShift.le_move line count range.start
    rw [AddedRange.stop]
    omega
  · intro ghost member
    have moved := ghosts ghost member
    have further := RowShift.le_move line count ghost.row
    omega

theorem lt_of_mem_starts (fits : tracker.fits = true) :
    ∀ row ∈ tracker.starts, row < rowLimit := by
  obtain ⟨ranges, ghosts⟩ := Draft.fits_iff_mem.mp fits
  rw [starts, List.forall_mem_append, List.forall_mem_map, List.forall_mem_map]
  constructor
  · intro range member
    have stop := ranges range member
    rw [AddedRange.stop] at stop
    omega
  · intro ghost member
    have next := ghosts ghost member
    omega

theorem shiftFrom_parted (valid : tracker.Valid) (count : Nat)
    (fits : (tracker.parted line count).fits = true) :
    tracker.shiftFrom line count = .ok (tracker.parted line count) := by
  have next := valid_parted valid line count
  have small := lt_of_mem_starts fits
  rw [parted, starts_placed, List.forall_mem_map] at small
  refine shiftFrom_eq ?_ (checked_eq_ok.mpr ⟨fits, next⟩)
  intro row member
  have bound := small row member
  rw [Row.moveFrom]
  split
  · rename_i below
    rw [RowShift.move_of_le below] at bound ⊢
    exact Row.move_eq rfl bound
  · rename_i above
    rw [RowShift.move_of_lt (Nat.not_le.mp above)]

/-- Moving the rows up again closes the gap. -/
theorem shiftFrom_rejoined (checked : tracker.checked = .ok tracker) (line count : Nat) :
    (tracker.parted line count).shiftFrom line (-count) = .ok tracker := by
  have small := lt_of_mem_starts (checked_eq_ok.mp checked).1
  have whole : (tracker.parted line count).placed (RowShift.deleted (List.range' line count)).move =
      tracker := by
    rw [parted, placed_placed]
    exact placed_eq_self fun row _ => RowShift.move_move line count row
  have moves : ∀ row ∈ (tracker.parted line count).starts, Row.moveFrom line (-count) row =
      .ok ((RowShift.deleted (List.range' line count)).move row) := by
    rw [parted, starts_placed, List.forall_mem_map]
    intro row member
    rw [RowShift.move_move, Row.moveFrom]
    rcases Nat.lt_or_ge row line with above | below
    · rw [RowShift.move_of_lt above, if_neg (Nat.not_le.mpr above)]
    · rw [RowShift.move_of_le below, if_pos (Nat.le_add_right_of_le below)]
      exact Row.move_eq (by omega) (small row member)
  have moved := shiftFrom_eq moves (by rw [whole]; exact checked)
  rw [moved, whole]

theorem parted_parted (tracker : Tracker) (order : first ≤ second) (high low : Nat) :
    (tracker.parted first high).parted (second + high) low =
      (tracker.parted second low).parted first high := by
  have same : (RowShift.inserted (second + high) low).move ∘ (RowShift.inserted first high).move =
      (RowShift.inserted first high).move ∘ (RowShift.inserted second low).move :=
    funext (RowShift.move_comm order high low)
  rw [parted, parted, parted, parted, placed_placed, placed_placed, same]

/-- Rows can be parted at two lines in either order, the lower line being named as it stands by
then, and a gap can be closed again, as long as all rows stay below the limit. -/
theorem gaps_commute_and_close (checked : tracker.checked = .ok tracker) (order : first ≤ second)
    (high low : Nat) :
    let upper := tracker.parted first high
    let lower := tracker.parted second low
    let both := upper.parted (second + high) low
    (both.fits = true →
      (tracker.shiftFrom first high = .ok upper ∧
        upper.shiftFrom (second + high) low = .ok both) ∧
      tracker.shiftFrom second low = .ok lower ∧ lower.shiftFrom first high = .ok both) ∧
    (upper.fits = true →
      tracker.shiftFrom first high = .ok upper ∧ upper.shiftFrom first (-high) = .ok tracker) := by
  intro upper lower both
  have valid := (checked_eq_ok.mp checked).2
  constructor
  · intro fits
    have same : both = lower.parted first high := parted_parted tracker order high low
    have again : (lower.parted first high).fits = true := same ▸ fits
    refine ⟨⟨?_, ?_⟩, ?_, ?_⟩
    · exact shiftFrom_parted valid high (fits_of_parted fits)
    · exact shiftFrom_parted (valid_parted valid first high) low fits
    · exact shiftFrom_parted valid low (fits_of_parted again)
    · rw [same]
      exact shiftFrom_parted (valid_parted valid second low) high again
  · intro fits
    exact ⟨shiftFrom_parted valid high fits, shiftFrom_rejoined checked first high⟩

def cutRange : Tracker := ⟨[⟨1, 4⟩, ⟨7, 2⟩], [⟨0, "a"⟩, ⟨9, "b"⟩]⟩

/-- The cut range stays, the range and the ghost below both lines go down by both counts. -/
theorem cutRange_commutes :
    let upper : Tracker := ⟨[⟨1, 4⟩, ⟨9, 2⟩], [⟨0, "a"⟩, ⟨11, "b"⟩]⟩
    let lower : Tracker := ⟨[⟨1, 4⟩, ⟨12, 2⟩], [⟨0, "a"⟩, ⟨14, "b"⟩]⟩
    let both : Tracker := ⟨[⟨1, 4⟩, ⟨14, 2⟩], [⟨0, "a"⟩, ⟨16, "b"⟩]⟩
    cutRange.checked = .ok cutRange ∧ 3 ≤ 6 ∧ both.fits = true ∧ upper.fits = true ∧
    (cutRange.shiftFrom 3 2 = .ok upper ∧ upper.shiftFrom (6 + 2) 5 = .ok both) ∧
    (cutRange.shiftFrom 6 5 = .ok lower ∧ lower.shiftFrom 3 2 = .ok both) ∧
    upper.shiftFrom 3 (-2) = .ok cutRange := by
  intro upper lower both
  have checked : cutRange.checked = .ok cutRange := by decide
  have fits : both.fits = true := by decide
  have some : upper.fits = true := by decide
  obtain ⟨commute, close⟩ := gaps_commute_and_close checked (by decide : 3 ≤ 6) 2 5
  obtain ⟨highFirst, lowFirst⟩ := commute fits
  exact ⟨checked, by decide, fits, some, highFirst, lowFirst, (close some).2⟩

end Tracker

end Redline
