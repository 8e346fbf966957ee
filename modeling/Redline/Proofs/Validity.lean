import Redline.Proofs.Coordinates
import Redline.Proofs.Tiling

namespace Redline

def AddedRange.Holds (range : AddedRange) (row : Nat) : Prop :=
  range.start ≤ row ∧ row < range.stop

namespace Tracker

def Unshared (first second : Nat × Nat) : Prop := first.2 ≤ second.1 ∨ second.2 ≤ first.1

structure Valid (tracker : Tracker) : Prop where
  filled : ∀ range ∈ tracker.added, 0 < range.count
  ranges : tracker.added.Pairwise fun first second => first.stop ≤ second.start
  ghosts : Ascending tracker.ghosts
  apart : ∀ range ∈ tracker.added, ∀ ghost ∈ tracker.ghosts, ¬range.Holds ghost.row

variable {tracker : Tracker} {units : List (Nat × Nat)}

theorem unshared_symm {first second : Nat × Nat} (unshared : Unshared first second) :
    Unshared second first := unshared.symm

/-- Neighbours that do not reach into one another are apart from all others. -/
theorem pairwise_of_overlap?_eq_none (filled : ∀ unit ∈ units, unit.1 < unit.2)
    (clear : overlap? units = none) :
    units.Pairwise fun first second => first.2 ≤ second.1 := by
  induction units using overlap?.induct with
  | case1 first second rest reaching =>
      rw [overlap?, if_pos reaching] at clear
      simp at clear
  | case2 first second rest below ih =>
      rw [overlap?, if_neg below] at clear
      have later := ih (fun unit member => filled unit (List.mem_cons_of_mem first member)) clear
      have next := filled second (by simp)
      refine List.pairwise_cons.mpr ⟨?_, later⟩
      intro last member
      rcases List.mem_cons.mp member with rfl | member
      · omega
      · have order := (List.pairwise_cons.mp later).1 last member
        omega
  | case3 units short =>
      rcases units with - | ⟨unit, - | ⟨next, rest⟩⟩
      · exact List.Pairwise.nil
      · exact List.pairwise_singleton _ unit
      · exact absurd rfl (short unit next rest)

theorem pairwise_of_ascending {rows : List Nat} (ordered : ascending rows = true) :
    rows.Pairwise (· ≤ ·) := by
  induction rows using ascending.induct with
  | case1 first second rest ih =>
      simp only [ascending, Bool.and_eq_true, decide_eq_true_eq] at ordered
      have later := ih ordered.2
      refine List.pairwise_cons.mpr ⟨?_, later⟩
      intro last member
      rcases List.mem_cons.mp member with rfl | member
      · exact ordered.1
      · exact Nat.le_trans ordered.1 ((List.pairwise_cons.mp later).1 last member)
  | case2 rows short =>
      rcases rows with - | ⟨row, - | ⟨next, rest⟩⟩
      · exact List.Pairwise.nil
      · exact List.pairwise_singleton _ row
      · exact absurd rfl (short row next rest)

/-- Units of which no two share a row stand apart once they are sorted. -/
theorem sortUnits_apart (filled : ∀ unit ∈ units, unit.1 < unit.2)
    (unshared : units.Pairwise Unshared) :
    (sortUnits units).Pairwise fun first second => first.2 ≤ second.1 := by
  have sorted := (sortUnits_perm units).symm.pairwise unshared unshared_symm
  refine (sorted.and (sortUnits_sorted units)).imp_of_mem ?_
  rintro first second _ member ⟨unshared, below⟩
  have whole := filled second ((sortUnits_perm units).mem_iff.mp member)
  simp only [Unshared, unitLe, decide_eq_true_eq] at unshared below
  omega

theorem units_filled (filled : ∀ range ∈ tracker.added, 0 < range.count) :
    ∀ unit ∈ tracker.units, unit.1 < unit.2 := by
  intro unit member
  rcases List.mem_append.mp member with added | ghosts
  · rcases List.mem_map.mp added with ⟨range, present, rfl⟩
    have whole := filled range present
    simp only [AddedRange.stop]
    omega
  · rcases List.mem_map.mp ghosts with ⟨ghost, _, rfl⟩
    exact Nat.lt_succ_self _

theorem Valid.unshared (valid : tracker.Valid) : tracker.units.Pairwise Unshared := by
  refine List.pairwise_append.mpr ⟨?_, ?_, ?_⟩
  · rw [List.pairwise_map]
    exact valid.ranges.imp .inl
  · rw [List.pairwise_map]
    exact valid.ghosts.imp .inl
  · intro first added second ghosts
    rcases List.mem_map.mp added with ⟨range, inside, rfl⟩
    rcases List.mem_map.mp ghosts with ⟨ghost, present, rfl⟩
    have outside := valid.apart range inside ghost present
    simp only [AddedRange.Holds, Unshared] at outside ⊢
    omega

theorem Valid.violation? (valid : tracker.Valid) : tracker.violation? = none := by
  have filled : tracker.added.find? (fun range => range.count == 0) = none := by
    rw [List.find?_eq_none]
    intro range member
    have whole := valid.filled range member
    simp only [beq_iff_eq]
    omega
  have starts : (tracker.added.map AddedRange.start).Pairwise (· ≤ ·) := by
    rw [List.pairwise_map]
    refine valid.ranges.imp ?_
    intro first second below
    exact Nat.le_trans (Nat.le_add_right _ _) below
  have rows : (tracker.ghosts.map Ghost.row).Pairwise (· ≤ ·) := by
    rw [List.pairwise_map]
    exact valid.ghosts.imp Nat.le_of_lt
  have apart := sortUnits_apart (units_filled valid.filled) valid.unshared
  rw [Tracker.violation?, filled]
  simp [ascending_of_pairwise starts, ascending_of_pairwise rows, overlap?_eq_none apart]

theorem valid_of_unshared (filled : ∀ range ∈ tracker.added, 0 < range.count)
    (starts : tracker.added.Pairwise fun first second => first.start ≤ second.start)
    (rows : tracker.ghosts.Pairwise fun first second => first.row ≤ second.row)
    (unshared : tracker.units.Pairwise Unshared) : tracker.Valid := by
  rcases List.pairwise_append.mp unshared with ⟨ranges, ghosts, both⟩
  refine ⟨filled, ?_, ?_, ?_⟩
  · refine ((List.pairwise_map.mp ranges).and starts).imp_of_mem ?_
    rintro first second _ member ⟨unshared, below⟩
    have rows := filled second member
    simp only [Unshared, AddedRange.stop] at unshared ⊢
    omega
  · refine ((List.pairwise_map.mp ghosts).and rows).imp ?_
    rintro first second ⟨unshared, below⟩
    simp only [Unshared] at unshared
    omega
  · intro range inside ghost present holds
    have unshared := both _ (List.mem_map_of_mem inside) _ (List.mem_map_of_mem present)
    simp only [AddedRange.Holds, Unshared] at holds unshared
    omega

theorem valid_of_violation? (clear : tracker.violation? = none) : tracker.Valid := by
  rw [Tracker.violation?] at clear
  split at clear
  · simp at clear
  · rename_i none
    split at clear
    · rename_i ordered
      rw [Bool.and_eq_true] at ordered
      have starts := List.pairwise_map.mp (pairwise_of_ascending ordered.1)
      have rows := List.pairwise_map.mp (pairwise_of_ascending ordered.2)
      have filled : ∀ range ∈ tracker.added, 0 < range.count := by
        intro range member
        have other := List.find?_eq_none.mp none range member
        rw [beq_iff_eq] at other
        omega
      have whole := units_filled filled
      have perm := sortUnits_perm tracker.units
      have sorted := pairwise_of_overlap?_eq_none
        (fun unit member => whole unit (perm.mem_iff.mp member)) clear
      exact valid_of_unshared filled starts rows
        (perm.pairwise (sorted.imp .inl) unshared_symm)
    · simp at clear

theorem checked_eq_ok : tracker.checked = .ok tracker ↔ tracker.fits = true ∧ tracker.Valid := by
  rw [checked]
  constructor
  · intro passed
    split at passed
    · rename_i fits
      split at passed
      · rename_i clear
        exact ⟨fits, valid_of_violation? clear⟩
      · simp at passed
    · simp at passed
  · rintro ⟨fits, valid⟩
    rw [if_pos fits, valid.violation?]

end Tracker

end Redline
