import Redline.Proofs.Holders
import Redline.Proofs.RowMap

/-! Recording rows. A range goes to its place or makes the one above it longer, and ghosts go to
their place as they come, without a look at the rows they take. The check that follows makes up for
it: a record is refused exactly if it takes a row that is tracked. -/

namespace Redline.Tracker

variable {tracker next : Tracker} {ranges : List AddedRange} {ghosts : List Ghost}
  {range : AddedRange} {start count row : Nat} {texts : List String}

/-- None of `count` rows from row `start` on is tracked. -/
def Free (tracker : Tracker) (start count : Nat) : Prop :=
  ∀ row, start ≤ row → row < start + count → tracker.holders row = 0

def share (range : AddedRange) (row : Nat) : Nat := if range.Holds row then 1 else 0

/-- The rows of a longer range are those of the old one and the new rows. -/
theorem share_longer (meets : range.stop = start) (count row : Nat) :
    share ⟨range.start, range.count + count⟩ row = share range row + share ⟨start, count⟩ row := by
  have either : AddedRange.Holds ⟨range.start, range.count + count⟩ row ↔
      range.Holds row ∨ AddedRange.Holds ⟨start, count⟩ row := by
    simp only [AddedRange.Holds, AddedRange.stop] at meets ⊢
    omega
  have apart : range.Holds row → ¬AddedRange.Holds ⟨start, count⟩ row := by
    simp only [AddedRange.Holds, AddedRange.stop] at meets ⊢
    omega
  by_cases old : range.Holds row
  · simp [share, either, old, apart old]
  · by_cases new : AddedRange.Holds ⟨start, count⟩ row
    · simp [share, either, old, new]
    · simp [share, either, old, new]

theorem countP_insertAdded (start count : Nat) (ranges : List AddedRange) (row : Nat) :
    (insertAdded start count ranges).countP (fun range => decide (range.Holds row)) =
      ranges.countP (fun range => decide (range.Holds row)) + share ⟨start, count⟩ row := by
  induction ranges with
  | nil => simp [insertAdded, share]
  | cons range rest ih =>
      rw [insertAdded]
      split
      · rw [List.countP_cons (l := range :: rest)]
        simp [share]
      · split
        · rename_i below meets
          have longer := share_longer meets count row
          simp only [share] at longer ⊢
          simp only [List.countP_cons, decide_eq_true_eq, longer]
          omega
        · rw [List.countP_cons, List.countP_cons, ih]
          omega

theorem mem_insertAdded (member : range ∈ insertAdded start count ranges) :
    range ∈ ranges ∨ range.stop = start + count ∧ count ≤ range.count ∧
      (range.start = start ∨ ∃ old ∈ ranges, old.start = range.start) := by
  induction ranges with
  | nil =>
      rw [List.mem_singleton.mp member]
      exact .inr ⟨rfl, Nat.le_refl _, .inl rfl⟩
  | cons first rest ih =>
      rw [insertAdded] at member
      split at member
      · rcases List.mem_cons.mp member with rfl | old
        · exact .inr ⟨rfl, Nat.le_refl _, .inl rfl⟩
        · exact .inl old
      · split at member
        · rename_i below meets
          rcases List.mem_cons.mp member with rfl | old
          · refine .inr ⟨?_, Nat.le_add_left _ _, .inr ⟨first, List.mem_cons_self, rfl⟩⟩
            rw [AddedRange.stop, ← meets, AddedRange.stop, Nat.add_assoc]
          · exact .inl (List.mem_cons_of_mem first old)
        · rcases List.mem_cons.mp member with rfl | later
          · exact .inl List.mem_cons_self
          · rcases ih later with old | ⟨stop, width, from_start | ⟨old, present, same⟩⟩
            · exact .inl (List.mem_cons_of_mem first old)
            · exact .inr ⟨stop, width, .inl from_start⟩
            · exact .inr ⟨stop, width, .inr ⟨old, List.mem_cons_of_mem first present, same⟩⟩

theorem starts_insertAdded
    (starts : ranges.Pairwise fun first second => first.start ≤ second.start) :
    (insertAdded start count ranges).Pairwise fun first second => first.start ≤ second.start := by
  induction ranges with
  | nil => exact List.pairwise_singleton _ _
  | cons first rest ih =>
      obtain ⟨above, later⟩ := List.pairwise_cons.mp starts
      rw [insertAdded]
      split
      · rename_i before
        refine List.pairwise_cons.mpr ⟨?_, starts⟩
        intro range member
        rcases List.mem_cons.mp member with rfl | member
        · exact before
        · exact Nat.le_trans before (above range member)
      · split
        · exact List.pairwise_cons.mpr ⟨above, later⟩
        · rename_i below apart
          refine List.pairwise_cons.mpr ⟨?_, ih later⟩
          intro range member
          rcases mem_insertAdded member with old | ⟨_, _, from_start | ⟨old, present, same⟩⟩
          · exact above range old
          · omega
          · exact same ▸ above old present

theorem length_insertAdded (filled : ∀ range ∈ ranges, 0 < range.count)
    (apart : ranges.Pairwise fun first second => first.stop ≤ second.start) :
    (insertAdded start count ranges).length =
      if ∃ range ∈ ranges, range.stop = start then ranges.length else ranges.length + 1 := by
  induction ranges with
  | nil => simp [insertAdded]
  | cons first rest ih =>
      obtain ⟨above, later⟩ := List.pairwise_cons.mp apart
      have whole := filled first List.mem_cons_self
      rw [insertAdded]
      split
      · rename_i before
        -- No range behind this place ends where the new rows start.
        have none : ¬∃ range ∈ first :: rest, range.stop = start := by
          rintro ⟨range, member, meets⟩
          have full := filled range member
          rcases List.mem_cons.mp member with rfl | member
          · simp only [AddedRange.stop] at meets
            omega
          · have order := above range member
            simp only [AddedRange.stop] at order meets
            omega
        rw [if_neg none, List.length_cons]
      · split
        · rename_i meets
          rw [if_pos ⟨first, List.mem_cons_self, meets⟩]
          rfl
        · rename_i apart
          have same : (∃ range ∈ first :: rest, range.stop = start) ↔
              ∃ range ∈ rest, range.stop = start := by
            simp [apart]
          have full : ∀ range ∈ rest, 0 < range.count := fun range member =>
            filled range (List.mem_cons_of_mem first member)
          rw [List.length_cons, ih full later]
          simp only [same, List.length_cons]
          split <;> rfl

theorem ghostRows_eq_mapIdx (row : Nat) (texts : List String) :
    ghostRows row texts = texts.mapIdx fun index text => ⟨row + index, text⟩ := by
  induction texts generalizing row with
  | nil => rfl
  | cons text rest ih =>
      rw [ghostRows, ih, List.mapIdx_cons]
      simp only [Nat.add_zero, Nat.add_right_comm row, Nat.add_assoc]

theorem insertGhosts_perm (row : Nat) (ghosts : List Ghost) (texts : List String) :
    (insertGhosts row ghosts texts).Perm (ghosts ++ ghostRows row texts) := by
  calc
    (insertGhosts row ghosts texts).Perm
        (ghosts.takeWhile (fun ghost => decide (ghost.row < row)) ++
          (ghosts.dropWhile (fun ghost => decide (ghost.row < row)) ++ ghostRows row texts)) := by
      rw [insertGhosts, List.append_assoc]
      exact List.perm_append_comm.append_left _
    _ = ghosts ++ ghostRows row texts := by
      rw [← List.append_assoc, List.takeWhile_append_dropWhile]

theorem count_insertGhosts (row : Nat) (ghosts : List Ghost) (texts : List String) (other : Nat) :
    ((insertGhosts row ghosts texts).map Ghost.row).count other =
      (ghosts.map Ghost.row).count other + share ⟨row, texts.length⟩ other := by
  have rows := (insertGhosts_perm row ghosts texts).map Ghost.row
  have distinct : (List.range' row texts.length).Nodup := List.nodup_range'
  have once : (List.range' row texts.length).count other = share ⟨row, texts.length⟩ other := by
    rw [distinct.count, share]
    exact if_congr List.mem_range'_1 rfl rfl
  rw [rows.count_eq, List.map_append, List.count_append, Draft.map_row_ghostRows, once]

theorem row_of_mem_ghostRows {ghost : Ghost} (member : ghost ∈ ghostRows row texts) :
    row ≤ ghost.row ∧ ghost.row < row + texts.length := by
  have place := List.mem_map_of_mem (f := Ghost.row) member
  rw [Draft.map_row_ghostRows] at place
  exact List.mem_range'_1.mp place

/-- Where no ghost stands in the way, new ghosts keep to the order. -/
theorem insertGhosts_ascending (ascending : Ascending ghosts)
    (free : ∀ ghost ∈ ghosts, ghost.row < row ∨ row + texts.length ≤ ghost.row) :
    Ascending (insertGhosts row ghosts texts) := by
  have partitioned : Partitioned (fun ghost : Ghost => decide (ghost.row < row)) ghosts := by
    refine ascending.imp ?_
    intro first second below inside
    exact decide_eq_true (Nat.lt_trans below (of_decide_eq_true inside))
  have rows : Ascending (ghostRows row texts) := by
    rw [Ascending, ← List.pairwise_map (f := Ghost.row), Draft.map_row_ghostRows]
    exact List.pairwise_lt_range'
  rw [insertGhosts, partitioned.takeWhile_eq, partitioned.dropWhile_eq, Ascending,
    List.pairwise_append, List.pairwise_append]
  refine ⟨⟨List.Pairwise.filter _ ascending, rows, ?_⟩, List.Pairwise.filter _ ascending, ?_⟩
  · intro first above second new
    have low := of_decide_eq_true (List.mem_filter.mp above).2
    have place := row_of_mem_ghostRows new
    omega
  · intro first before second below
    obtain ⟨present, high⟩ := List.mem_filter.mp below
    have high : ¬second.row < row := by simpa using high
    have behind := (free second present).resolve_left high
    rcases List.mem_append.mp before with above | new
    · have low := of_decide_eq_true (List.mem_filter.mp above).2
      omega
    · have place := row_of_mem_ghostRows new
      omega

/-- The tracker after a record of `count` rows from row `start` on, before it is checked. -/
structure Recorded (tracker : Tracker) (start count : Nat) (next : Tracker) : Prop where
  fits : next.fits = true
  filled : ∀ range ∈ next.added, 0 < range.count
  holders : ∀ row, next.holders row = tracker.holders row + share ⟨start, count⟩ row
  starts : tracker.Free start count →
    next.added.Pairwise fun first second => first.start ≤ second.start
  rows : tracker.Free start count →
    next.ghosts.Pairwise fun first second => first.row ≤ second.row

theorem Recorded.passes (recorded : tracker.Recorded start count next) (valid : tracker.Valid)
    (free : tracker.Free start count) : next.checked = .ok next := by
  have alone : ∀ row, next.holders row ≤ 1 := by
    intro row
    have before := valid.alone row
    rw [recorded.holders, share]
    split
    · rename_i inside
      rw [free row inside.1 inside.2]
    · exact before
  exact checked_eq_ok.mpr ⟨recorded.fits,
    valid_of_alone recorded.filled (recorded.starts free) (recorded.rows free) alone⟩

theorem Recorded.refused (recorded : tracker.Recorded start count next)
    (taken : ¬tracker.Free start count) :
    ∃ violation, next.checked = .error (.trackerCorrupted violation) := by
  have disorder : ¬next.InOrder := by
    intro inOrder
    apply taken
    intro row above below
    have both := inOrder.alone row
    rw [recorded.holders, share, if_pos ⟨above, below⟩] at both
    omega
  obtain ⟨violation, _, refused⟩ := refused_of_disorder recorded.fits disorder
  exact ⟨violation, refused⟩

theorem Valid.recorded_added (valid : tracker.Valid) (fits : tracker.fits = true)
    (some : 0 < count) (small : start + count < rowLimit) :
    tracker.Recorded start count
      { tracker with added := insertAdded start count tracker.added } := by
  obtain ⟨ranges, ghosts⟩ := Draft.fits_iff_mem.mp fits
  constructor
  · refine Draft.fits_iff_mem.mpr ⟨?_, ghosts⟩
    intro range member
    rcases mem_insertAdded member with old | ⟨stop, _⟩
    · exact ranges range old
    · exact stop ▸ small
  · intro range member
    rcases mem_insertAdded member with old | ⟨_, width, _⟩
    · exact valid.filled range old
    · exact Nat.lt_of_lt_of_le some width
  · intro row
    simp only [holders, countP_insertAdded]
    omega
  · intro _
    exact starts_insertAdded (valid.starts.imp Nat.le_of_lt)
  · intro _
    exact valid.ghosts.imp Nat.le_of_lt

theorem Valid.recorded_removed (valid : tracker.Valid) (fits : tracker.fits = true)
    (small : row + texts.length < rowLimit) :
    tracker.Recorded row texts.length
      { tracker with ghosts := insertGhosts row tracker.ghosts texts } := by
  obtain ⟨ranges, ghosts⟩ := Draft.fits_iff_mem.mp fits
  constructor
  · refine Draft.fits_iff_mem.mpr ⟨ranges, ?_⟩
    intro ghost member
    rcases List.mem_append.mp ((insertGhosts_perm row _ texts).mem_iff.mp member) with old | new
    · exact ghosts ghost old
    · have place := row_of_mem_ghostRows new
      omega
  · exact valid.filled
  · intro row
    simp only [holders, count_insertGhosts]
    omega
  · intro _
    exact valid.starts.imp Nat.le_of_lt
  · intro free
    have apart : ∀ ghost ∈ tracker.ghosts,
        ghost.row < row ∨ row + texts.length ≤ ghost.row := by
      intro ghost member
      by_contra inside
      have none := free ghost.row (by omega) (by omega)
      have one : 0 < (tracker.ghosts.map Ghost.row).count ghost.row :=
        List.count_pos_iff.mpr (List.mem_map_of_mem member)
      rw [holders] at none
      omega
    exact (insertGhosts_ascending valid.ghosts apart).imp Nat.le_of_lt

theorem adds_iff : tracker.Adds row ↔
    0 < tracker.added.countP fun range => decide (range.Holds row) := by
  simp only [Adds, List.countP_pos_iff, decide_eq_true_eq]

/-- Rows can be recorded exactly where none is tracked. Added rows join the range that ends right
above them, or else form one of their own; a ghost stands on every row of removed texts; all else
stays as it is. Rows that are tracked are noticed by the check. -/
theorem record_fails_on_overlap (checked : tracker.checked = .ok tracker) (some : 0 < count)
    (small : start + count < rowLimit) (low : row + texts.length < rowLimit) :
    (tracker.Free start count → ∃ next, tracker.addAdded start count = .ok next ∧
      next.checked = .ok next ∧ next.ghosts = tracker.ghosts ∧
      (∀ row, next.Adds row ↔ tracker.Adds row ∨ start ≤ row ∧ row < start + count) ∧
      next.added.length = if ∃ range ∈ tracker.added, range.stop = start
        then tracker.added.length else tracker.added.length + 1) ∧
    (¬tracker.Free start count → ∃ violation,
      tracker.addAdded start count = .error (.trackerCorrupted violation)) ∧
    (tracker.Free row texts.length → ∃ next, tracker.addRemoved row texts = .ok next ∧
      next.checked = .ok next ∧ next.added = tracker.added ∧
      next.ghosts.Perm
        (tracker.ghosts ++ texts.mapIdx fun index text => ⟨row + index, text⟩)) ∧
    (¬tracker.Free row texts.length → ∃ violation,
      tracker.addRemoved row texts = .error (.trackerCorrupted violation)) := by
  obtain ⟨fits, valid⟩ := checked_eq_ok.mp checked
  have added := valid.recorded_added fits some small
  have removed := valid.recorded_removed fits low
  have placed : tracker.addAdded start count =
      Tracker.checked { tracker with added := insertAdded start count tracker.added } :=
    if_neg (Nat.ne_of_gt some)
  rw [placed]
  refine ⟨?_, added.refused, ?_, removed.refused⟩
  · intro free
    have passes := added.passes valid free
    refine ⟨_, passes, passes, rfl, ?_, length_insertAdded valid.filled valid.ranges⟩
    intro row
    rw [adds_iff, adds_iff, countP_insertAdded, share]
    split
    · rename_i inside
      exact ⟨fun _ => .inr inside, fun _ => Nat.succ_pos _⟩
    · rename_i outside
      exact ⟨.inl, fun either => either.resolve_right outside⟩
  · intro free
    have passes := removed.passes valid free
    refine ⟨_, passes, passes, rfl, ?_⟩
    rw [← ghostRows_eq_mapIdx]
    exact insertGhosts_perm row tracker.ghosts texts

/-- Two more rows below the range make it longer; a ghost does not go where one stands. -/
theorem twoReplaced_records :
    twoReplaced.checked = .ok twoReplaced ∧ 0 < 2 ∧ 5 + 2 < rowLimit ∧
      2 + ["x", "y"].length < rowLimit ∧ twoReplaced.Free 5 2 ∧ ¬twoReplaced.Free 2 2 ∧
      (∃ next, twoReplaced.addAdded 5 2 = .ok next ∧ next.Adds 6 ∧ next.added.length = 1) ∧
      ∃ violation, twoReplaced.addRemoved 2 ["x", "y"] = .error (.trackerCorrupted violation) := by
  have checked : twoReplaced.checked = .ok twoReplaced := by decide
  have free : twoReplaced.Free 5 2 := by
    have none : ∀ row < 7, 5 ≤ row → twoReplaced.holders row = 0 := by decide
    exact fun row above below => none row below above
  have taken : ¬twoReplaced.Free 2 2 := by
    intro free
    exact absurd (free 2 (Nat.le_refl 2) (by decide)) (by decide)
  obtain ⟨records, _, _, refused⟩ := @record_fails_on_overlap twoReplaced 5 2 2 ["x", "y"] checked
    (by decide) (by decide) (by decide)
  obtain ⟨next, added, _, _, adds, length⟩ := records free
  have meets : ∃ range ∈ twoReplaced.added, range.stop = 5 := ⟨⟨3, 2⟩, by decide, rfl⟩
  rw [if_pos meets] at length
  exact ⟨checked, by decide, by decide, by decide, free, taken,
    ⟨next, added, (adds 6).mpr (.inr (by decide)), length⟩, refused taken⟩

end Redline.Tracker
