import Redline.Proofs.Draft
import Redline.Proofs.Sync
import Redline.Tracker.Edit

namespace Redline

def AddedRange.follow (shift : RowShift) (range : AddedRange) : AddedRange :=
  match shift with
  | .inserted first count => ⟨shift.move range.start, (range.grow first count).count⟩
  | _ => ⟨shift.move range.start, range.count - shift.lost range.start range.stop⟩

theorem AddedRange.count_grow (range : AddedRange) (row count : Nat) :
    (range.grow row count).count =
      if range.start < row ∧ row < range.stop then range.count + count else range.count := by
  unfold grow
  split <;> rfl

theorem AddedRange.follow_empty (shift : RowShift) (start : Nat) :
    (AddedRange.follow shift ⟨start, 0⟩).count = 0 := by
  cases shift with
  | inserted first count =>
      have outside : ¬(start < first ∧ first < AddedRange.stop ⟨start, 0⟩) := by
        simp only [stop]
        omega
      exact (count_grow ⟨start, 0⟩ first count).trans (if_neg outside)
  | unmoved => simp [follow]
  | deleted rows => simp [follow]

theorem AddedRange.le_follow (range : AddedRange) (row count : Nat) :
    range.count ≤ (AddedRange.follow (.inserted row count) range).count := by
  have grows : (AddedRange.follow (.inserted row count) range).count =
      if range.start < row ∧ row < range.stop then range.count + count else range.count :=
    count_grow range row count
  rw [grows]
  split
  · exact Nat.le_add_right _ _
  · exact Nat.le_refl _

namespace Block

def follow (shift : RowShift) (block : Block) : Block :=
  ⟨block.id, shift.move block.start, block.red,
    (AddedRange.follow shift ⟨block.start + block.red, block.green⟩).count⟩

/-- The ghosts of a block and the row below them move together. -/
def Rigid (shift : RowShift) (block : Block) : Prop :=
  ∀ index ≤ block.red, shift.move (block.start + index) = shift.move block.start + index

def keeps (block : Block) : Bool := decide (0 < block.red + block.green)

theorem ghostRows_follow {shift : RowShift} {block : Block} (rigid : block.Rigid shift) :
    block.ghostRows.map shift.move = (block.follow shift).ghostRows := by
  simp only [ghostRows, follow, List.range'_eq_map_range, List.map_map]
  apply List.map_congr_left
  intro index member
  exact rigid index (Nat.le_of_lt (List.mem_range.mp member))

theorem addedRanges_follow {shift : RowShift} {block : Block} (rigid : block.Rigid shift) :
    (block.addedRanges.map (AddedRange.follow shift)).filter (fun range => range.count != 0) =
      (block.follow shift).addedRanges := by
  have start : (AddedRange.follow shift ⟨block.start + block.red, block.green⟩).start =
      shift.move block.start + block.red := by
    rw [← rigid block.red (Nat.le_refl _)]
    cases shift <;> rfl
  have follows : (block.follow shift).addedRanges =
      [AddedRange.follow shift ⟨block.start + block.red, block.green⟩].filter
        fun range => range.count != 0 := by
    simp only [addedRanges, follow, ← start]
    by_cases none : (AddedRange.follow shift ⟨block.start + block.red, block.green⟩).count = 0
    · simp [none]
    · simp [none]
  rw [follows]
  by_cases plain : block.green = 0
  · rw [plain]
    simp [addedRanges, plain, AddedRange.follow_empty]
  · simp [addedRanges, plain]

end Block

namespace Tracker

theorem moved_grown (tracker : Tracker) (shift : RowShift) :
    (tracker.grown shift).moved shift =
      ⟨(tracker.added.map (AddedRange.follow shift)).filter fun range => range.count != 0,
        tracker.ghosts.map fun ghost => { ghost with row := shift.move ghost.row }⟩ := by
  cases shift with
  | unmoved => rfl
  | deleted rows => rfl
  | inserted first count =>
      have starts (range : AddedRange) : (range.grow first count).start = range.start := by
        unfold AddedRange.grow
        split <;> rfl
      simp only [grown, moved, List.map_map]
      congr 2
      apply List.map_congr_left
      intro range _
      simp [AddedRange.follow, starts, RowShift.lost]

end Tracker

namespace Draft

variable {draft next : List Passage} {shift : RowShift}

theorem ghosts_eq_of_map {first second : List Ghost}
    (rows : first.map Ghost.row = second.map Ghost.row)
    (texts : first.map Ghost.text = second.map Ghost.text) : first = second := by
  induction first generalizing second with
  | nil =>
      rw [List.map_nil] at rows
      exact (List.map_eq_nil_iff.mp rows.symm).symm
  | cons ghost rest ih =>
      cases second with
      | nil => simp at rows
      | cons other later =>
          rcases List.cons.inj rows with ⟨row, rows⟩
          rcases List.cons.inj texts with ⟨text, texts⟩
          rw [ih rows texts]
          congr 1
          cases ghost
          cases other
          simp_all

theorem flatMap_keeps {β : Type} {pieces : Block → List β}
    (empty : ∀ block : Block, block.keeps = false → pieces block = []) (blocks : List Block) :
    (blocks.filter Block.keeps).flatMap pieces = blocks.flatMap pieces := by
  induction blocks with
  | nil => rfl
  | cons block rest ih =>
      rw [List.flatMap_cons, List.filter_cons, ← ih]
      split
      · rfl
      · rename_i lost
        rw [empty block (by simpa using lost), List.nil_append]

/-- The tracked rows follow an edit that takes the blocks of one draft to those of another. -/
theorem tracker_follow (rigid : ∀ block ∈ blocks 0 draft, block.Rigid shift)
    (follows : ((blocks 0 draft).map (Block.follow shift)).filter Block.keeps = blocks 0 next)
    (texts : (ghosts 0 draft).map Ghost.text = (ghosts 0 next).map Ghost.text) :
    ((tracker draft).grown shift).moved shift = tracker next := by
  have added : ((tracker draft).added.map (AddedRange.follow shift)).filter
      (fun range => range.count != 0) = (tracker next).added := by
    have pieces : ((blocks 0 draft).flatMap fun block =>
        (block.addedRanges.map (AddedRange.follow shift)).filter fun range => range.count != 0) =
          (blocks 0 draft).flatMap fun block => (block.follow shift).addedRanges :=
      List.flatMap_congr fun block member => Block.addedRanges_follow (rigid block member)
    simp only [tracker]
    rw [List.map_flatMap, List.filter_flatMap, pieces, ← follows, flatMap_keeps, List.flatMap_map]
    intro block lost
    -- A block that keeps no row has no added row left either.
    simp only [Block.keeps, decide_eq_false_iff_not] at lost
    exact if_pos (by omega)
  have rows : ((tracker draft).ghosts.map fun ghost =>
      { ghost with row := shift.move ghost.row }) = (tracker next).ghosts := by
    apply ghosts_eq_of_map
    · have pieces : ((blocks 0 draft).flatMap fun block => block.ghostRows.map shift.move) =
          (blocks 0 draft).flatMap fun block => (block.follow shift).ghostRows :=
        List.flatMap_congr fun block member => Block.ghostRows_follow (rigid block member)
      have rows : ((ghosts 0 draft).map Ghost.row).map shift.move =
          (ghosts 0 next).map Ghost.row := by
        rw [map_row_ghosts, map_row_ghosts, List.map_flatMap, pieces, ← follows, flatMap_keeps,
          List.flatMap_map]
        intro block lost
        simp only [Block.keeps, decide_eq_false_iff_not] at lost
        have none : block.red = 0 := by omega
        simp [Block.ghostRows, none]
      rwa [List.map_map] at rows ⊢
    · rw [List.map_map]
      exact texts
  rw [Tracker.moved_grown, added, rows]

end Draft

namespace Registry

variable {registry : Registry} {shift : RowShift}

theorem keeps_inserted {block : Block} {row count : Nat} (filled : 0 < block.red + block.green) :
    (block.follow (.inserted row count)).keeps = true := by
  have grows : block.green ≤ (AddedRange.follow (.inserted row count)
      ⟨block.start + block.red, block.green⟩).count :=
    AddedRange.le_follow ⟨block.start + block.red, block.green⟩ row count
  have whole : 0 < block.red + (AddedRange.follow (.inserted row count)
      ⟨block.start + block.red, block.green⟩).count :=
    Nat.lt_of_lt_of_le filled (Nat.add_le_add_left grows _)
  exact decide_eq_true whole

theorem survives_inserted {block : Block} {row count : Nat} (filled : 0 < block.red + block.green)
    (fits : block.span.stop < rowLimit) : survives (.inserted row count) block = .ok true := by
  rw [survives]
  split
  · rfl
  · rw [Block.stop_eq fits, ok_bind]
    simp only [RowShift.deletedWithin, ok_bind]
    rw [decide_eq_true (by omega)]
    rfl

theorem survives_deleted {block : Block} {rows : List Nat} (fits : block.span.stop < rowLimit)
    (order : RowShift.deletedBefore rows block.start ≤
      RowShift.deletedBefore rows block.span.stop) :
    survives (.deleted rows) block = .ok (block.follow (.deleted rows)).keeps := by
  rw [survives]
  split
  · rename_i red
    have kept : (block.follow (.deleted rows)).keeps = true :=
      decide_eq_true (Nat.lt_of_lt_of_le red (Nat.le_add_right _ _))
    rw [kept]
  · rename_i plain
    have none : block.red = 0 := by omega
    rw [Block.stop_eq fits, ok_bind]
    simp only [RowShift.deletedWithin, Row.sub_eq order, ok_bind]
    simp only [Block.keeps, Block.follow, AddedRange.follow, RowShift.lost, AddedRange.stop,
      Block.span, Span.stop, none, Nat.add_zero, Nat.zero_add, Nat.sub_pos_iff_lt]
    rfl

theorem survivors_eq {blocks : List Block} {kept : Block → Bool}
    (known : ∀ block ∈ blocks, survives shift block = .ok (kept block)) :
    survivors shift blocks = .ok (blocks.filter kept) := by
  induction blocks with
  | nil => rfl
  | cons block rest ih =>
      have first := known block List.mem_cons_self
      have later := ih fun other member => known other (List.mem_cons_of_mem block member)
      rw [survivors, first, ok_bind, later, ok_bind, List.filter_cons]
      rfl

/-- Blocks that keep a row go where their first rows go. -/
theorem remap_eq (known : ∀ block ∈ registry.blocks,
      survives shift block = .ok (block.follow shift).keeps)
    (applies : ∀ block ∈ registry.blocks, (block.follow shift).keeps = true →
      shift.apply block.start = .ok (shift.move block.start)) :
    registry.remap shift = .ok { registry with
      blocks := (registry.blocks.filter fun block => (block.follow shift).keeps).map
        fun block => { block with start := shift.move block.start } } := by
  have moved : ((registry.blocks.filter fun block => (block.follow shift).keeps).mapM
      fun block => do return { block with start := ← shift.apply block.start } :
        Except Fault (List Block)) =
      .ok ((registry.blocks.filter fun block => (block.follow shift).keeps).map
        fun block => { block with start := shift.move block.start }) := by
    apply mapM_ok
    intro block member
    rcases List.mem_filter.mp member with ⟨present, kept⟩
    rw [applies block present kept]
    rfl
  rw [remap, survivors_eq known, ok_bind, moved]
  rfl

end Registry

end Redline
