import Redline.Fault

namespace Redline

namespace Row

theorem add_eq {row count : Nat} (fits : row + count < rowLimit) :
    add row count = .ok (row + count) := if_pos fits

theorem sub_eq {row count : Nat} (below : count ≤ row) : sub row count = .ok (row - count) :=
  if_pos below

theorem move_eq {row moved : Nat} {offset : Int} (place : (row : Int) + offset = moved)
    (fits : moved < rowLimit) : move row offset = .ok moved := by
  simp only [move, place]
  rw [if_pos ⟨by omega, by omega⟩, Int.toNat_natCast]

theorem eq_of_move {row moved : Nat} {offset : Int} (succeeds : move row offset = .ok moved) :
    (row : Int) + offset = moved ∧ moved < rowLimit := by
  simp only [move] at succeeds
  split at succeeds
  · have place := Except.ok.inj succeeds
    omega
  · exact absurd succeeds (by simp)

end Row

variable {ε α β : Type}

theorem bind_eq_ok {first : Except ε α} {next : α → Except ε β} {last : β} :
    (first >>= next) = .ok last ↔ ∃ middle, first = .ok middle ∧ next middle = .ok last := by
  cases first with
  | error fault => simp [bind, Except.bind]
  | ok middle => simp [bind, Except.bind]

@[simp] theorem ok_bind (middle : α) (next : α → Except ε β) :
    ((Except.ok middle : Except ε α) >>= next) = next middle := rfl

theorem mapM_ok {elements : List α} {operation : α → Except ε β} {result : α → β}
    (succeeds : ∀ element ∈ elements, operation element = .ok (result element)) :
    elements.mapM operation = .ok (elements.map result) := by
  induction elements with
  | nil => rfl
  | cons element rest ih =>
      rw [List.mapM_cons, succeeds element List.mem_cons_self,
        ih fun later member => succeeds later (List.mem_cons_of_mem element member)]
      rfl

theorem eq_of_mapM {elements : List α} {operation : α → Except ε β} {results : List β}
    (succeeds : elements.mapM operation = .ok results) :
    elements.map operation = results.map .ok := by
  induction elements generalizing results with
  | nil =>
      have empty : results = [] := (Except.ok.inj succeeds).symm
      rw [empty]
      rfl
  | cons element rest ih =>
      rw [List.mapM_cons] at succeeds
      rcases bind_eq_ok.mp succeeds with ⟨result, first, succeeds⟩
      rcases bind_eq_ok.mp succeeds with ⟨others, later, last⟩
      have parts : result :: others = results := Except.ok.inj last
      rw [← parts, List.map_cons, List.map_cons, first, ih later]

theorem eq_map_of_mapM {elements : List α} {operation : α → Except ε β} {results : List β}
    {result : α → β} (exact : ∀ element ∈ elements, ∀ value,
      operation element = .ok value → value = result element)
    (succeeds : elements.mapM operation = .ok results) : results = elements.map result := by
  have values := eq_of_mapM succeeds
  clear succeeds
  induction elements generalizing results with
  | nil =>
      cases results with
      | nil => rfl
      | cons value others => simp at values
  | cons element rest ih =>
      cases results with
      | nil => simp at values
      | cons value others =>
          rcases List.cons.inj values with ⟨first, later⟩
          rw [List.map_cons, exact element List.mem_cons_self value first,
            ih (fun other member => exact other (List.mem_cons_of_mem element member)) later]

end Redline
