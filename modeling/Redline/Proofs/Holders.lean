import Redline.Proofs.RowGroups

/-! The units that hold a row. The check of a tracker asks whether ranges and ghosts ascend, not
whether they do so strictly, and whether neighbours in the order of first rows are apart; no row
that belongs to two units escapes it, wherever the two stand. -/

namespace Redline

instance (range : AddedRange) (row : Nat) : Decidable (range.Holds row) :=
  inferInstanceAs (Decidable (range.start ≤ row ∧ row < range.stop))

theorem countP_le_one_iff {α : Type} {elements : List α} {holds : α → Bool} :
    elements.countP holds ≤ 1 ↔
      elements.Pairwise fun first second => ¬(holds first = true ∧ holds second = true) := by
  induction elements with
  | nil => simp
  | cons element rest ih =>
      rw [List.countP_cons, List.pairwise_cons, ← ih]
      by_cases here : holds element = true
      · have alone : rest.countP holds = 0 ↔ ∀ other ∈ rest, ¬holds other = true :=
          List.countP_eq_zero
        simp only [here, if_true, true_and, ← alone]
        omega
      · simp [here]

namespace Tracker

variable {tracker : Tracker} {row : Nat}

def holders (tracker : Tracker) (row : Nat) : Nat :=
  tracker.added.countP (fun range => decide (range.Holds row)) +
    (tracker.ghosts.map Ghost.row).count row

structure InOrder (tracker : Tracker) : Prop where
  filled : ∀ range ∈ tracker.added, 1 ≤ range.count
  starts : tracker.added.Pairwise fun first second => first.start < second.start
  rows : tracker.ghosts.Pairwise fun first second => first.row < second.row
  alone : ∀ row, tracker.holders row ≤ 1

theorem holders_eq_countP (tracker : Tracker) (row : Nat) : tracker.holders row =
    tracker.units.countP fun unit => decide (unit.1 ≤ row ∧ row < unit.2) := by
  have ghosts : tracker.ghosts.countP (fun ghost => ghost.row == row) =
      tracker.ghosts.countP fun ghost => decide (ghost.row ≤ row ∧ row < ghost.row + 1) := by
    apply List.countP_congr
    intro ghost _
    simp only [beq_iff_eq, decide_eq_true_eq]
    omega
  rw [units, List.countP_append, List.countP_map, List.countP_map, holders, List.count,
    List.countP_map]
  exact congrArg _ ghosts

theorem unshared_iff {first second : Nat × Nat} (whole : first.1 < first.2)
    (full : second.1 < second.2) : Unshared first second ↔
      ∀ row, ¬((first.1 ≤ row ∧ row < first.2) ∧ second.1 ≤ row ∧ row < second.2) := by
  constructor
  · rintro unshared row ⟨inFirst, inSecond⟩
    rw [Unshared] at unshared
    omega
  · intro never
    have neither := never (max first.1 second.1)
    rw [Unshared]
    omega

theorem unshared_iff_alone (filled : ∀ range ∈ tracker.added, 0 < range.count) :
    tracker.units.Pairwise Unshared ↔ ∀ row, tracker.holders row ≤ 1 := by
  have whole := units_filled filled
  have pair {first second : Nat × Nat} (here : [first, second].Sublist tracker.units) :=
    unshared_iff (whole first (here.subset (by simp))) (whole second (here.subset (by simp)))
  simp only [holders_eq_countP, countP_le_one_iff, List.pairwise_iff_forall_sublist,
    decide_eq_true_eq]
  constructor
  · intro unshared row first second here
    exact (pair here).mp (unshared here) row
  · intro never first second here
    exact (pair here).mpr fun row => never row here

theorem valid_of_alone (filled : ∀ range ∈ tracker.added, 0 < range.count)
    (starts : tracker.added.Pairwise fun first second => first.start ≤ second.start)
    (rows : tracker.ghosts.Pairwise fun first second => first.row ≤ second.row)
    (alone : ∀ row, tracker.holders row ≤ 1) : tracker.Valid :=
  valid_of_unshared filled starts rows ((unshared_iff_alone filled).mpr alone)

theorem Valid.alone (valid : tracker.Valid) : ∀ row, tracker.holders row ≤ 1 :=
  (unshared_iff_alone valid.filled).mp valid.unshared

theorem valid_iff_inOrder : tracker.Valid ↔ tracker.InOrder := by
  constructor
  · intro valid
    exact ⟨valid.filled, valid.starts, valid.ghosts, valid.alone⟩
  · rintro ⟨filled, starts, rows, alone⟩
    exact valid_of_alone filled (starts.imp Nat.le_of_lt) (rows.imp Nat.le_of_lt) alone

theorem violation?_eq_none_iff : tracker.violation? = none ↔ tracker.InOrder := by
  rw [← valid_iff_inOrder]
  exact ⟨valid_of_violation?, Valid.violation?⟩

theorem refused_of_disorder (fits : tracker.fits = true) (disorder : ¬tracker.InOrder) :
    ∃ violation, tracker.violation? = some violation ∧
      tracker.checked = .error (.trackerCorrupted violation) := by
  cases found : tracker.violation? with
  | none => exact absurd (violation?_eq_none_iff.mp found) disorder
  | some violation => exact ⟨violation, rfl, by rw [checked, if_pos fits, found]⟩

/-- Whatever ranges and ghosts a tracker has, its check passes exactly if they are in order, and
the tracker is passed on only then. -/
theorem check_finds_shared_rows (fits : tracker.fits = true) :
    (tracker.violation? = none ↔ tracker.InOrder) ∧
      (tracker.checked = .ok tracker ↔ tracker.InOrder) ∧
      (¬tracker.InOrder → ∃ violation, tracker.violation? = some violation ∧
        tracker.checked = .error (.trackerCorrupted violation)) := by
  refine ⟨violation?_eq_none_iff, ?_, refused_of_disorder fits⟩
  rw [checked_eq_ok, valid_iff_inOrder]
  exact ⟨And.right, fun inOrder => ⟨fits, inOrder⟩⟩

/-- The last range is inside the first one, which is not its neighbour. -/
def nested : Tracker := ⟨[⟨1, 6⟩, ⟨2, 2⟩, ⟨4, 1⟩], [⟨9, "a"⟩]⟩

theorem nested_is_found : nested.fits = true ∧ inContact.fits = true ∧ inContact.InOrder ∧
    ¬nested.InOrder ∧ ∃ violation, nested.checked = .error (.trackerCorrupted violation) := by
  have fits : nested.fits = true := by decide
  have whole : inContact.fits = true := by decide
  have shared : ¬nested.InOrder := fun inOrder => absurd (inOrder.alone 4) (by decide)
  obtain ⟨violation, _, refused⟩ := (check_finds_shared_rows fits).2.2 shared
  have clear : inContact.violation? = none := by decide
  exact ⟨fits, whole, (check_finds_shared_rows whole).1.mp clear, shared, violation, refused⟩

end Tracker

end Redline
