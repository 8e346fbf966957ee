import Redline.Edit

namespace Redline

variable {α : Type} {test : α → Bool} {elements : List α}

/-- Elements that pass a test stand before those that do not. -/
def Partitioned (test : α → Bool) (elements : List α) : Prop :=
  elements.Pairwise fun first second => test second = true → test first = true

theorem Partitioned.take_drop (partitioned : Partitioned test elements) (half : Nat) :
    ∀ first ∈ elements.take half, ∀ second ∈ elements.drop half,
      test second = true → test first = true := by
  have split : Partitioned test (elements.take half ++ elements.drop half) := by
    rwa [List.take_append_drop]
  exact (List.pairwise_append.mp split).2.2

theorem bisect_eq_countP (partitioned : Partitioned test elements) :
    bisect test elements = elements.countP test := by
  induction elements using bisect.induct test with
  | case1 elements short => rw [bisect, if_pos short]
  | case2 elements long half passes ih =>
      obtain ⟨middle, reached, passed⟩ : ∃ middle ∈ elements.drop half, test middle = true := by
        cases found : elements.drop half with
        | nil => simp [found] at passes
        | cons middle rest => exact ⟨middle, by simp, by simpa [found] using passes⟩
      have all : ∀ first ∈ elements.take half, test first = true := by
        intro first member
        exact partitioned.take_drop half first member middle reached passed
      have before : (elements.take half).countP test = half := by
        rw [List.countP_eq_length.mpr all, List.length_take]
        omega
      rw [bisect, if_neg long, if_pos passes, ih (partitioned.sublist (List.drop_sublist _ _))]
      calc
        half + (elements.drop half).countP test =
            (elements.take half ++ elements.drop half).countP test := by
          rw [List.countP_append, before]
        _ = elements.countP test := by rw [List.take_append_drop]
  | case3 elements long half fails ih =>
      -- What is cut off lies behind the middle, where the test has failed.
      have failing : ∀ last ∈ elements.drop (elements.length - half), ¬test last = true := by
        intro last member passed
        apply fails
        cases found : elements.drop half with
        | nil =>
            have short := List.drop_eq_nil_iff.mp found
            omega
        | cons middle rest =>
            have behind : last ∈ elements.drop half := by
              have later : elements.length - half = half + (elements.length - half - half) := by
                omega
              rw [later, ← List.drop_drop] at member
              exact List.mem_of_mem_drop member
            have ordered := partitioned.sublist (List.drop_sublist half elements)
            rw [found] at behind ordered
            rcases List.mem_cons.mp behind with rfl | member
            · simpa using passed
            · simpa using (List.pairwise_cons.mp ordered).1 last member passed
      rw [bisect, if_neg long, if_neg fails, ih (partitioned.sublist (List.take_sublist _ _))]
      calc
        (elements.take (elements.length - half)).countP test =
            (elements.take (elements.length - half) ++
              elements.drop (elements.length - half)).countP test := by
          rw [List.countP_append, List.countP_eq_zero.mpr failing, Nat.add_zero]
        _ = elements.countP test := by rw [List.take_append_drop]

theorem Partitioned.drop_countP (partitioned : Partitioned test elements) :
    elements.drop (elements.countP test) = elements.filter (fun element => !test element) := by
  induction elements with
  | nil => rfl
  | cons element rest ih =>
      have later := (List.pairwise_cons.mp partitioned).1
      cases passes : test element with
      | true => simp [passes, ih (List.pairwise_cons.mp partitioned).2]
      | false =>
          have failing : ∀ last ∈ rest, ¬test last = true := by
            intro last member passed
            simp [later last member passed] at passes
          have kept : ∀ last ∈ rest, (!test last) = true := by
            intro last member
            simpa using failing last member
          simp [passes, List.countP_eq_zero.mpr failing, List.filter_eq_self.mpr kept]

theorem Partitioned.takeWhile_eq (partitioned : Partitioned test elements) :
    elements.takeWhile test = elements.filter test := by
  induction elements with
  | nil => rfl
  | cons element rest ih =>
      rcases List.pairwise_cons.mp partitioned with ⟨first, later⟩
      cases passes : test element with
      | true => simp [passes, ih later]
      | false =>
          have failing : ∀ last ∈ rest, ¬test last = true := by
            intro last member passed
            simp [first last member passed] at passes
          simpa [passes] using fun last member => failing last member

theorem Partitioned.dropWhile_eq (partitioned : Partitioned test elements) :
    elements.dropWhile test = elements.filter fun element => !test element := by
  induction elements with
  | nil => rfl
  | cons element rest ih =>
      obtain ⟨first, later⟩ := List.pairwise_cons.mp partitioned
      cases passes : test element with
      | true => simp [passes, ih later]
      | false =>
          have failing : ∀ last ∈ rest, (!test last) = true := by
            intro last member
            cases passed : test last with
            | true => rw [first last member passed] at passes; cases passes
            | false => rfl
          simp [passes, List.filter_eq_self.mpr failing]

theorem partitioned_le {rows : List Nat} (ascending : rows.Pairwise (· < ·)) (bound : Nat) :
    Partitioned (fun row => decide (row ≤ bound)) rows := by
  refine ascending.imp ?_
  intro first second below inside
  exact decide_eq_true (Nat.le_trans (Nat.le_of_lt below) (of_decide_eq_true inside))

theorem partitioned_lt {rows : List Nat} (ascending : rows.Pairwise (· < ·)) (bound : Nat) :
    Partitioned (fun row => decide (row < bound)) rows := by
  refine ascending.imp ?_
  intro first second below inside
  exact decide_eq_true (Nat.lt_trans below (of_decide_eq_true inside))

theorem bisect_map {β : Type} (test : β → Bool) (image : α → β) (elements : List α) :
    bisect test (elements.map image) = bisect (test ∘ image) elements := by
  induction elements using bisect.induct (test ∘ image) with
  | case1 elements short =>
      rw [bisect, bisect, List.length_map, if_pos short, if_pos short, List.countP_map]
  | case2 elements long half passes ih =>
      rw [bisect, bisect, List.length_map, if_neg long, if_neg long]
      simp only [half, ← List.map_drop, List.head?_map, Option.any_map, Function.comp_def]
        at passes ih ⊢
      rw [if_pos passes, if_pos passes, ih]
  | case3 elements long half fails ih =>
      rw [bisect, bisect, List.length_map, if_neg long, if_neg long]
      simp only [half, ← List.map_drop, ← List.map_take, List.head?_map, Option.any_map,
        Function.comp_def] at fails ih ⊢
      rw [if_neg fails, if_neg fails, ih]

end Redline
