import Redline.Proofs.Draft
import Redline.Proofs.Sync

namespace Redline

namespace Row

variable {α : Type} {place : α → Nat} {put : α → Nat → α}
variable {line low high : Nat} {offset : Int} {front back : List α}

/-- Moves the elements at or below `line`, which are `back` and stand from row `low` on, so that
row `low` becomes row `high`. -/
theorem mapM_moveFrom (same : ∀ element, put element (place element) = element)
    (distance : (low : Int) + offset = high) (reach : line ≤ low)
    (above : ∀ element ∈ front, place element < line)
    (below : ∀ element ∈ back, low ≤ place element) {moved : List α} :
    ((front ++ back).mapM fun element => do
      return put element (← moveFrom line offset (place element)) : Except Fault (List α)) =
        .ok moved ↔
      moved = front ++ back.map (fun element => put element (place element - low + high)) ∧
        ∀ element ∈ back, place element - low + high < rowLimit := by
  have stays : ∀ element ∈ front, moveFrom line offset (place element) = .ok (place element) := by
    intro element member
    have order := above element member
    rw [moveFrom, if_neg (by omega)]
  have moves : ∀ element ∈ back,
      moveFrom line offset (place element) = move (place element) offset := by
    intro element member
    have order := below element member
    rw [moveFrom, if_pos (by omega)]
  have frontMoved : (front.mapM fun element => do
      return put element (← moveFrom line offset (place element)) : Except Fault (List α)) =
        .ok (front.map id) := by
    apply mapM_ok
    intro element member
    rw [stays element member, ok_bind, same]
    rfl
  rw [List.mapM_append, frontMoved, ok_bind, bind_eq_ok, List.map_id]
  constructor
  · rintro ⟨others, shifted, joined⟩
    have joined : front ++ others = moved := Except.ok.inj joined
    have values : others = back.map fun element => put element (place element - low + high) := by
      refine eq_map_of_mapM ?_ shifted
      intro element member value landed
      rw [moves element member] at landed
      rcases bind_eq_ok.mp landed with ⟨row, arrives, last⟩
      have order := below element member
      have goal := eq_of_move arrives
      have row_eq : row = place element - low + high := by omega
      rw [← row_eq]
      exact (Except.ok.inj last).symm
    refine ⟨by rw [← joined, values], ?_⟩
    intro element member
    have results := eq_of_mapM shifted
    have shown : (do return put element (← moveFrom line offset (place element)) :
        Except Fault α) ∈ others.map .ok := by
      rw [← results]
      exact List.mem_map_of_mem member
    rcases List.mem_map.mp shown with ⟨value, _, landed⟩
    rw [moves element member] at landed
    rcases bind_eq_ok.mp landed.symm with ⟨row, arrives, _⟩
    have order := below element member
    have goal := eq_of_move arrives
    omega
  · rintro ⟨rfl, fits⟩
    refine ⟨back.map fun element => put element (place element - low + high), ?_, rfl⟩
    apply mapM_ok
    intro element member
    have order := below element member
    rw [moves element member, move_eq (by omega) (fits element member)]
    rfl

end Row

namespace Draft

variable {front back draft : List Passage}

theorem ghosts_add (row distance : Nat) (draft : List Passage) :
    ghosts (row + distance) draft =
      (ghosts row draft).map fun ghost => { ghost with row := ghost.row + distance } := by
  have rows (row : Nat) (texts : List String) : Tracker.ghostRows (row + distance) texts =
      (Tracker.ghostRows row texts).map fun ghost =>
        { ghost with row := ghost.row + distance } := by
    induction texts generalizing row with
    | nil => rfl
    | cons text rest ih => simp [Tracker.ghostRows, ← ih, Nat.add_right_comm]
  induction draft generalizing row with
  | nil => rfl
  | cons passage rest ih =>
      cases passage with
      | kept text => simpa [ghosts, Nat.add_right_comm] using ih (row + 1)
      | change id removed added =>
          simp [ghosts, rows, Nat.add_right_comm row distance, ih]

theorem blocks_add (row distance : Nat) (draft : List Passage) :
    blocks (row + distance) draft =
      (blocks row draft).map fun block => { block with start := block.start + distance } := by
  induction draft generalizing row with
  | nil => rfl
  | cons passage rest ih =>
      cases passage with
      | kept text => simpa [blocks, Nat.add_right_comm] using ih (row + 1)
      | change id removed added => simp [blocks, Nat.add_right_comm row distance, ih]

def gapped (front : List Passage) (low : Nat) (back : List Passage) : Tracker :=
  ⟨(blocks 0 front ++ blocks low back).flatMap Block.addedRanges, ghosts 0 front ++ ghosts low back⟩

theorem tracker_append (front back : List Passage) :
    tracker (front ++ back) = gapped front (size front) back := by
  simp [tracker, gapped, blocks_append, ghosts_append]

theorem gapped_eq {low : Nat} (texts : List String) (width : size front + texts.length = low) :
    gapped front low back = tracker (front ++ (texts.map .kept ++ back)) := by
  simp [tracker, gapped, blocks_append, ghosts_append, width]

theorem blocks_kept_between {low : Nat} (texts : List String)
    (width : size front + texts.length = low) :
    blocks 0 (front ++ (texts.map .kept ++ back)) = blocks 0 front ++ blocks low back := by
  simp [blocks_append, width]

theorem tiled_gapped {low : Nat} (room : size front ≤ low) :
    Tiled (gapped front low back) (blocks 0 front ++ blocks low back) := by
  have width : size front + (List.replicate (low - size front) "").length = low := by
    rw [List.length_replicate]
    omega
  rw [gapped_eq _ width, ← blocks_kept_between _ width]
  exact tiled _

theorem fits_iff_mem {tracker : Tracker} :
    tracker.fits = true ↔ (∀ range ∈ tracker.added, range.stop < rowLimit) ∧
      ∀ ghost ∈ tracker.ghosts, ghost.row + 1 < rowLimit := by
  rw [Tracker.fits, List.all_eq_true, Tracker.units, List.forall_mem_append, List.forall_mem_map,
    List.forall_mem_map]
  simp only [decide_eq_true_eq]

def ranges (row : Nat) (draft : List Passage) : List AddedRange :=
  (blocks row draft).flatMap Block.addedRanges

theorem ranges_add (row distance : Nat) (draft : List Passage) :
    ranges (row + distance) draft =
      (ranges row draft).map fun range => { range with start := range.start + distance } := by
  rw [ranges, blocks_add, ranges, List.map_flatMap, List.flatMap_map]
  congr 1
  funext block
  simp only [Block.addedRanges]
  split <;> simp [Nat.add_right_comm]

theorem mem_ranges {row : Nat} {range : AddedRange} (member : range ∈ ranges row draft) :
    row ≤ range.start ∧ range.stop ≤ row + size draft ∧ 0 < range.count := by
  rcases List.mem_flatMap.mp member with ⟨block, present, inside⟩
  have bounds := mem_blocks present
  unfold Block.addedRanges at inside
  split at inside
  · simp at inside
  · rw [List.mem_singleton.mp inside]
    simp only [Block.span, Span.stop, AddedRange.stop] at bounds ⊢
    omega

theorem gapped_added (front back : List Passage) (low : Nat) :
    (gapped front low back).added = ranges 0 front ++ ranges low back := by
  simp [gapped, ranges]

theorem ranges_moved (low high : Nat) (draft : List Passage) :
    (ranges low draft).map (fun range => { range with start := range.start - low + high }) =
      ranges high draft := by
  have base := ranges_add 0 low draft
  have target := ranges_add 0 high draft
  rw [Nat.zero_add] at base target
  rw [base, target, List.map_map]
  congr 1
  funext range
  simp

theorem ghosts_moved (low high : Nat) (draft : List Passage) :
    (ghosts low draft).map (fun ghost => { ghost with row := ghost.row - low + high }) =
      ghosts high draft := by
  have base := ghosts_add 0 low draft
  have target := ghosts_add 0 high draft
  rw [Nat.zero_add] at base target
  rw [base, target, List.map_map]
  congr 1
  funext ghost
  simp

theorem blocks_moved (low high : Nat) (draft : List Passage) :
    (blocks low draft).map (fun block => { block with start := block.start - low + high }) =
      blocks high draft := by
  have base := blocks_add 0 low draft
  have target := blocks_add 0 high draft
  rw [Nat.zero_add] at base target
  rw [base, target, List.map_map]
  congr 1
  funext block
  simp

theorem checked_gapped {low : Nat} {tracker : Tracker} (room : size front ≤ low) :
    (gapped front low back).checked = .ok tracker ↔
      tracker = gapped front low back ∧ (gapped front low back).fits = true := by
  rw [(tiled_gapped room).checked_eq]
  split
  · rename_i fits
    simp [fits, eq_comm]
  · rename_i overflow
    simp [overflow]

theorem added_shifted {line low high : Nat} {offset : Int} {added : List AddedRange}
    (divided : size front ≤ line) (reach : line ≤ low) (distance : (low : Int) + offset = high) :
    ((gapped front low back).added.mapM fun range => do
      return { range with start := ← Row.moveFrom line offset range.start } :
        Except Fault (List AddedRange)) = .ok added ↔
      added = (gapped front high back).added ∧
        ∀ range ∈ ranges low back, range.start - low + high < rowLimit := by
  have above : ∀ range ∈ ranges 0 front, range.start < line := by
    intro range member
    have bounds := mem_ranges member
    simp only [AddedRange.stop] at bounds
    omega
  rw [gapped_added, gapped_added, ← ranges_moved low high]
  exact Row.mapM_moveFrom (fun _ => rfl) distance reach above fun range member =>
    (mem_ranges member).1

theorem ghosts_shifted {line low high : Nat} {offset : Int} {moved : List Ghost}
    (divided : size front ≤ line) (reach : line ≤ low) (distance : (low : Int) + offset = high) :
    ((gapped front low back).ghosts.mapM fun ghost => do
      return { ghost with row := ← Row.moveFrom line offset ghost.row } :
        Except Fault (List Ghost)) = .ok moved ↔
      moved = (gapped front high back).ghosts ∧
        ∀ ghost ∈ ghosts low back, ghost.row - low + high < rowLimit := by
  have above : ∀ ghost ∈ ghosts 0 front, ghost.row < line := by
    intro ghost member
    have bounds := mem_ghosts member
    omega
  simp only [gapped]
  rw [← ghosts_moved low high]
  exact Row.mapM_moveFrom (fun _ => rfl) distance reach above fun ghost member =>
    (mem_ghosts member).1

/-- Moving the rows below a gap makes the gap wider or narrower. -/
theorem shiftFrom_gapped {line low high : Nat} {offset : Int} {moved : Tracker}
    (divided : size front ≤ line) (reach : line ≤ low) (room : size front ≤ high)
    (distance : (low : Int) + offset = high) (fits : (gapped front low back).fits = true) :
    (gapped front low back).shiftFrom line offset = .ok moved ↔
      moved = gapped front high back ∧ (gapped front high back).fits = true := by
  rw [Tracker.shiftFrom]
  split
  · have still : low = high := by omega
    subst still
    simp [fits, eq_comm]
  · simp only [bind_eq_ok, added_shifted divided reach distance,
      ghosts_shifted divided reach distance]
    constructor
    · rintro ⟨added, ⟨rfl, _⟩, ghosts, ⟨rfl, _⟩, checked⟩
      exact (checked_gapped room).mp checked
    · rintro ⟨rfl, landed⟩
      have bounds := fits_iff_mem.mp landed
      refine ⟨_, ⟨rfl, ?_⟩, _, ⟨rfl, ?_⟩, (checked_gapped room).mpr ⟨rfl, landed⟩⟩
      · intro range member
        have moved := List.mem_map_of_mem
          (f := fun range : AddedRange => { range with start := range.start - low + high }) member
        rw [ranges_moved] at moved
        have small := bounds.1 _ (by rw [gapped_added]; exact List.mem_append_right _ moved)
        simp only [AddedRange.stop] at small
        omega
      · intro ghost member
        have moved := List.mem_map_of_mem
          (f := fun ghost : Ghost => { ghost with row := ghost.row - low + high }) member
        rw [ghosts_moved] at moved
        have small := bounds.2 _ (List.mem_append_right _ moved)
        simp only at small
        omega

theorem shiftFrom_blocks {registry : Registry} {line low high : Nat} {offset : Int}
    (known : registry.blocks = blocks 0 front ++ blocks low back)
    (divided : size front = line) (reach : line ≤ low) (distance : (low : Int) + offset = high)
    (fits : ∀ block ∈ blocks high back, block.start < rowLimit)
    (filled : Filled front) :
    registry.shiftFrom line offset =
      .ok { registry with blocks := blocks 0 front ++ blocks high back } := by
  have above : ∀ block ∈ blocks 0 front, block.start < line := by
    intro block member
    have bounds := mem_blocks member
    have whole := filled.blocks 0 block member
    simp only [Block.span, Span.stop] at bounds
    omega
  have shifted : (registry.blocks.mapM fun block => do
      return { block with start := ← Row.moveFrom line offset block.start } :
        Except Fault (List Block)) = .ok (blocks 0 front ++ blocks high back) := by
    rw [known, ← blocks_moved low high]
    refine (Row.mapM_moveFrom (fun _ => rfl) distance reach above fun block member =>
      (mem_blocks member).1).mpr ⟨rfl, ?_⟩
    intro block member
    have moved := List.mem_map_of_mem
      (f := fun block : Block => { block with start := block.start - low + high }) member
    rw [blocks_moved] at moved
    exact fits _ moved
  rw [Registry.shiftFrom, shifted]
  rfl

end Draft
end Redline
