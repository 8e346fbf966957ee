import Mathlib.Data.List.Nodup
import Mathlib.Data.List.Perm.Basic
import Redline.Registry

/-! Blocks that tile the tracked rows: every ghost and every added range belongs to one block.
Such a tracker is in order, and its spans are the blocks, joined where ghosts of one meet the
rows of the next. -/

namespace Redline

namespace Block

def ghostRows (block : Block) : List Nat := List.range' block.start block.red

def addedRanges (block : Block) : List AddedRange :=
  if block.green = 0 then [] else [⟨block.start + block.red, block.green⟩]

def pieces (block : Block) : List Tracker.Piece :=
  block.ghostRows.map .ghost ++ block.addedRanges.map fun range => .range range.start range.count

end Block

structure Tiled (tracker : Tracker) (blocks : List Block) : Prop where
  ghosts : tracker.ghosts.map Ghost.row = blocks.flatMap Block.ghostRows
  added : tracker.added = blocks.flatMap Block.addedRanges
  apart : blocks.Pairwise fun first second => first.span.stop ≤ second.start

namespace Tracker

def Piece.stop : Piece → Nat
  | ghost row => row + 1
  | range start count => start + count

def Piece.unit (piece : Piece) : Nat × Nat := (piece.start, piece.stop)

def Apart (pieces : List Piece) : Prop :=
  pieces.Pairwise (fun first second => first.stop ≤ second.start) ∧
    ∀ piece ∈ pieces, piece.start < piece.stop

end Tracker

open Tracker (Piece)

namespace Block

theorem mem_pieces {block : Block} {piece : Piece} (member : piece ∈ block.pieces) :
    block.start ≤ piece.start ∧ piece.stop ≤ block.span.stop ∧ piece.start < piece.stop := by
  rcases List.mem_append.mp member with ghost | range
  · rcases List.mem_map.mp ghost with ⟨row, inside, rfl⟩
    have bounds := List.mem_range'_1.mp inside
    simp only [Piece.start, Piece.stop, span, Span.stop]
    omega
  · rcases List.mem_map.mp range with ⟨range, inside, rfl⟩
    unfold addedRanges at inside
    split at inside
    · simp at inside
    · rw [List.mem_singleton.mp inside]
      simp only [Piece.start, Piece.stop, span, Span.stop]
      omega

theorem pieces_apart (block : Block) :
    block.pieces.Pairwise fun first second => first.stop ≤ second.start := by
  refine List.pairwise_append.mpr ⟨?_, ?_, ?_⟩
  · rw [List.pairwise_map]
    exact (List.pairwise_lt_range' (s := block.start) (n := block.red)).imp fun below => below
  · unfold addedRanges
    split <;> simp
  · intro first ghost second range
    rcases List.mem_map.mp ghost with ⟨row, inside, rfl⟩
    rcases List.mem_map.mp range with ⟨range, member, rfl⟩
    have bounds := List.mem_range'_1.mp inside
    unfold addedRanges at member
    split at member
    · simp at member
    · rw [List.mem_singleton.mp member]
      simp only [Piece.start, Piece.stop]
      omega

end Block

theorem pieces_flatMap_apart {blocks : List Block}
    (apart : blocks.Pairwise fun first second => first.span.stop ≤ second.start) :
    Tracker.Apart (blocks.flatMap Block.pieces) := by
  constructor
  · rw [List.pairwise_flatMap]
    refine ⟨fun block _ => block.pieces_apart, apart.imp ?_⟩
    intro first second below low inFirst high inSecond
    have reached := (Block.mem_pieces inFirst).2.1
    have started := (Block.mem_pieces inSecond).1
    omega
  · intro piece member
    rcases List.mem_flatMap.mp member with ⟨block, _, inside⟩
    exact (Block.mem_pieces inside).2.2

theorem Tracker.Apart.starts {pieces : List Piece} (apart : Tracker.Apart pieces) :
    (pieces.map Piece.start).Pairwise (· < ·) := by
  rw [List.pairwise_map]
  refine apart.1.imp_of_mem ?_
  intro first second member _ below
  exact Nat.lt_of_lt_of_le (apart.2 first member) below

namespace Tracker

theorem unitLe_antisymm {first second : Nat × Nat} (below : unitLe first second = true)
    (above : unitLe second first = true) : first = second := by
  simp only [unitLe, decide_eq_true_eq] at below above
  exact Prod.ext (by omega) (by omega)

theorem insertUnit_perm (unit : Nat × Nat) (units : List (Nat × Nat)) :
    (insertUnit unit units).Perm (unit :: units) := by
  induction units with
  | nil => exact List.Perm.refl _
  | cons other rest ih =>
      rw [insertUnit]
      split
      · exact List.Perm.refl _
      · exact (ih.cons other).trans (List.Perm.swap unit other rest)

theorem sortUnits_perm (units : List (Nat × Nat)) : (sortUnits units).Perm units := by
  induction units with
  | nil => exact List.Perm.refl _
  | cons unit rest ih => exact (insertUnit_perm unit _).trans (ih.cons unit)

theorem insertUnit_sorted (unit : Nat × Nat) (units : List (Nat × Nat))
    (sorted : units.Pairwise fun first second => unitLe first second = true) :
    (insertUnit unit units).Pairwise fun first second => unitLe first second = true := by
  induction units with
  | nil => simp [insertUnit]
  | cons other rest ih =>
      rcases List.pairwise_cons.mp sorted with ⟨first, tail⟩
      rw [insertUnit]
      split
      · rename_i below
        refine List.pairwise_cons.mpr ⟨?_, sorted⟩
        intro last member
        rcases List.mem_cons.mp member with rfl | member
        · exact below
        · have later := first last member
          simp only [unitLe, decide_eq_true_eq] at below later ⊢
          omega
      · rename_i above
        refine List.pairwise_cons.mpr ⟨?_, ih tail⟩
        intro last member
        rcases List.mem_cons.mp ((insertUnit_perm unit rest).mem_iff.mp member) with rfl | member
        · simp only [unitLe, decide_eq_true_eq] at above ⊢
          omega
        · exact first last member

theorem sortUnits_sorted (units : List (Nat × Nat)) :
    (sortUnits units).Pairwise fun first second => unitLe first second = true := by
  induction units with
  | nil => exact List.Pairwise.nil
  | cons unit rest ih => exact insertUnit_sorted unit _ ih

theorem overlap?_eq_none {units : List (Nat × Nat)}
    (apart : units.Pairwise fun first second => first.2 ≤ second.1) : overlap? units = none := by
  induction units using overlap?.induct with
  | case1 first second rest reaching =>
      have below := (List.pairwise_cons.mp apart).1 second List.mem_cons_self
      omega
  | case2 first second rest clear ih =>
      rw [overlap?, if_neg clear, ih (List.pairwise_cons.mp apart).2]
  | case3 units short => rw [overlap?]; exact short

theorem ascending_of_pairwise {rows : List Nat} (ordered : rows.Pairwise (· ≤ ·)) :
    ascending rows = true := by
  induction rows using ascending.induct with
  | case1 first second rest ih =>
      rcases List.pairwise_cons.mp ordered with ⟨below, later⟩
      simp [ascending, below second List.mem_cons_self, ih later]
  | case2 rows short => rw [ascending]; exact short

end Tracker

namespace Tiled

variable {tracker : Tracker} {blocks : List Block}

theorem pieces_perm (tiled : Tiled tracker blocks) :
    ((tracker.ghosts.map fun ghost => Piece.ghost ghost.row) ++
      tracker.added.map fun range => Piece.range range.start range.count).Perm
      (blocks.flatMap Block.pieces) := by
  have ghosts : (tracker.ghosts.map fun ghost => Piece.ghost ghost.row) =
      blocks.flatMap fun block => block.ghostRows.map Piece.ghost := by
    rw [← List.map_flatMap, ← tiled.ghosts, List.map_map]
    rfl
  rw [ghosts, tiled.added, List.map_flatMap]
  exact List.flatMap_append_perm blocks _ _

theorem pieces_apart (tiled : Tiled tracker blocks) :
    Tracker.Apart (blocks.flatMap Block.pieces) :=
  pieces_flatMap_apart tiled.apart

theorem ghosts_ascending (tiled : Tiled tracker blocks) :
    (tracker.ghosts.map Ghost.row).Pairwise (· < ·) := by
  rw [tiled.ghosts, List.pairwise_flatMap]
  refine ⟨fun block _ => List.pairwise_lt_range', tiled.apart.imp ?_⟩
  intro first second below low inFirst high inSecond
  have reached := (List.mem_range'_1.mp inFirst).2
  have started := (List.mem_range'_1.mp inSecond).1
  simp only [Block.span, Span.stop] at below
  omega

theorem added_ascending (tiled : Tiled tracker blocks) :
    (tracker.added.map AddedRange.start).Pairwise (· ≤ ·) := by
  rw [tiled.added, List.pairwise_map, List.pairwise_flatMap]
  constructor
  · intro block _
    unfold Block.addedRanges
    split <;> simp
  · refine tiled.apart.imp ?_
    intro first second below low inFirst high inSecond
    unfold Block.addedRanges at inFirst inSecond
    simp only [Block.span, Span.stop] at below
    split at inFirst <;> split at inSecond <;> simp at inFirst inSecond
    rw [inFirst, inSecond]
    simp only
    omega

/-- Ghosts and ranges merge into the pieces of the blocks, one block after the other. -/
theorem pieces_eq (tiled : Tiled tracker blocks) :
    tracker.pieces = blocks.flatMap Block.pieces := by
  have apart := tiled.pieces_apart
  have merged : tracker.pieces.Perm (blocks.flatMap Block.pieces) :=
    (List.merge_perm_append _).trans tiled.pieces_perm
  -- Pieces with different starts are in one order only.
  refine @List.Perm.eq_of_pairwise _ (fun first second => first.start ≤ second.start) _ _
    ?_ ?_ ?_ merged
  · intro first second inMerged inBlocks below above
    have distinct : ((blocks.flatMap Block.pieces).map Piece.start).Nodup :=
      apart.starts.imp fun less => Nat.ne_of_lt less
    exact List.inj_on_of_nodup_map distinct (merged.mem_iff.mp inMerged) inBlocks
      (Nat.le_antisymm below above)
  · have ghosts : (tracker.ghosts.map fun ghost => Piece.ghost ghost.row).Pairwise
        fun first second => decide (first.start ≤ second.start) = true := by
      have ascending := tiled.ghosts_ascending
      rw [List.pairwise_map] at ascending ⊢
      exact ascending.imp fun below => decide_eq_true (Nat.le_of_lt below)
    have ranges : (tracker.added.map fun range => Piece.range range.start range.count).Pairwise
        fun first second => decide (first.start ≤ second.start) = true := by
      have ascending := tiled.added_ascending
      rw [List.pairwise_map] at ascending ⊢
      exact ascending.imp fun below => decide_eq_true below
    refine (List.pairwise_merge ?_ ?_ _ _ ghosts ranges).imp fun below => by simpa using below
    · intro first second third below above
      simp only [decide_eq_true_eq] at below above ⊢
      exact Nat.le_trans below above
    · intro first second
      simpa using Nat.le_total first.start second.start
  · exact List.pairwise_map.mp (apart.starts.imp Nat.le_of_lt)

theorem units_perm (tiled : Tiled tracker blocks) :
    tracker.units.Perm ((blocks.flatMap Block.pieces).map Piece.unit) := by
  have swapped : tracker.units = tracker.added.map (fun range => (range.start, range.stop)) ++
      tracker.ghosts.map fun ghost => (ghost.row, ghost.row + 1) := rfl
  have mapped := tiled.pieces_perm.map Piece.unit
  rw [List.map_append, List.map_map, List.map_map] at mapped
  rw [swapped]
  exact List.perm_append_comm.trans mapped

theorem sortUnits_eq (tiled : Tiled tracker blocks) :
    Tracker.sortUnits tracker.units = (blocks.flatMap Block.pieces).map Piece.unit := by
  refine ((Tracker.sortUnits_perm _).trans tiled.units_perm).eq_of_pairwise
    (fun _ _ _ _ => Tracker.unitLe_antisymm) (Tracker.sortUnits_sorted _) ?_
  have apart := tiled.pieces_apart
  rw [List.pairwise_map]
  refine apart.1.imp_of_mem ?_
  intro first second member _ below
  have filled := apart.2 first member
  have lower : first.start < second.start := by omega
  exact decide_eq_true (.inl lower)

theorem violation?_eq_none (tiled : Tiled tracker blocks) : tracker.violation? = none := by
  have filled : tracker.added.find? (fun range => range.count == 0) = none := by
    rw [List.find?_eq_none, tiled.added]
    intro range member
    rcases List.mem_flatMap.mp member with ⟨block, _, inside⟩
    unfold Block.addedRanges at inside
    split at inside
    · simp at inside
    · rw [List.mem_singleton.mp inside]
      simpa
  have apart : ((blocks.flatMap Block.pieces).map Piece.unit).Pairwise
      fun first second => first.2 ≤ second.1 := by
    rw [List.pairwise_map]
    exact tiled.pieces_apart.1
  rw [Tracker.violation?, filled]
  simp [Tracker.ascending_of_pairwise tiled.added_ascending,
    Tracker.ascending_of_pairwise (tiled.ghosts_ascending.imp Nat.le_of_lt),
    tiled.sortUnits_eq, Tracker.overlap?_eq_none apart]

theorem checked_eq (tiled : Tiled tracker blocks) :
    tracker.checked = if tracker.fits then .ok tracker else .error .additionOverflow := by
  rw [Tracker.checked, tiled.violation?_eq_none]

theorem fits_iff (tiled : Tiled tracker blocks) :
    tracker.fits = true ↔ ∀ piece ∈ blocks.flatMap Block.pieces, piece.stop < rowLimit := by
  rw [Tracker.fits, List.all_eq_true]
  simp only [tiled.units_perm.mem_iff, decide_eq_true_eq, List.forall_mem_map]
  rfl

theorem fits_of_stops (tiled : Tiled tracker blocks)
    (small : ∀ block ∈ blocks, block.span.stop < rowLimit) : tracker.fits = true := by
  rw [tiled.fits_iff]
  intro piece member
  rcases List.mem_flatMap.mp member with ⟨block, present, inside⟩
  exact Nat.lt_of_le_of_lt (Block.mem_pieces inside).2.1 (small block present)

theorem stop_lt (tiled : Tiled tracker blocks) (fits : tracker.fits = true) {block : Block}
    (member : block ∈ blocks) (filled : 0 < block.red + block.green) :
    block.span.stop < rowLimit := by
  have reach : ∃ piece ∈ block.pieces, piece.stop = block.span.stop := by
    by_cases plain : block.green = 0
    · refine ⟨.ghost (block.start + block.red - 1), ?_, ?_⟩
      · simp only [Block.pieces, List.mem_append, List.mem_map]
        exact .inl ⟨_, List.mem_range'_1.mpr (by omega), rfl⟩
      · simp only [Piece.stop, Block.span, Span.stop]
        omega
    · refine ⟨.range (block.start + block.red) block.green, ?_, rfl⟩
      simp [Block.pieces, Block.addedRanges, plain]
  rcases reach with ⟨piece, inside, reached⟩
  rw [← reached]
  exact tiled.fits_iff.mp fits piece (List.mem_flatMap.mpr ⟨block, member, inside⟩)

end Tiled

def Block.join (block : Block) : List Span → List Span
  | [] => [block.span]
  | next :: rest =>
      if block.green = 0 ∧ block.span.stop = next.start then
        ⟨block.start, block.red + next.red, next.green⟩ :: rest
      else block.span :: next :: rest

def joinBlocks (blocks : List Block) : List Span := blocks.foldr Block.join []

namespace Tracker

theorem cover_ghosts_above (span : Span) (rest : List Span) (start count : Nat)
    (meets : span.start = start + count) :
    ((List.range' start count).map Piece.ghost).foldr Piece.cover (span :: rest) =
      ⟨start, count + span.red, span.green⟩ :: rest := by
  induction count generalizing start with
  | zero =>
      cases span
      simp_all
  | succ count ih =>
      rw [List.range'_succ, List.map_cons, List.foldr_cons, ih (start + 1) (by omega)]
      simp only [Piece.cover, if_true]
      congr 2
      omega

theorem cover_ghosts_alone (spans : List Span) (start count : Nat) (filled : 0 < count)
    (clear : ∀ next ∈ spans.head?, next.start ≠ start + count) :
    ((List.range' start count).map Piece.ghost).foldr Piece.cover spans =
      ⟨start, count, 0⟩ :: spans := by
  obtain ⟨before, rfl⟩ : ∃ before, count = before + 1 := ⟨count - 1, by omega⟩
  have last : Piece.cover (.ghost (start + before)) spans = ⟨start + before, 1, 0⟩ :: spans := by
    cases spans with
    | nil => rfl
    | cons next rest =>
        have apart : next.start ≠ start + before + 1 := clear next (by simp)
        simp [Piece.cover, apart]
  rw [List.range'_concat, List.map_append, List.foldr_append]
  simp only [List.map_cons, List.map_nil, List.foldr_cons, List.foldr_nil, Nat.one_mul, last]
  exact cover_ghosts_above _ _ start before rfl

theorem cover_pieces (block : Block) (spans : List Span) (filled : 0 < block.red + block.green) :
    block.pieces.foldr Piece.cover spans = block.join spans := by
  unfold Block.pieces Block.addedRanges
  rw [List.foldr_append]
  by_cases plain : block.green = 0
  · have red : 0 < block.red := by omega
    simp only [plain, if_true, List.map_nil, List.foldr_nil, Block.ghostRows]
    cases spans with
    | nil => simpa [Block.join, Block.span, plain] using cover_ghosts_alone [] block.start _ red
    | cons next rest =>
        by_cases meets : block.start + block.red = next.start
        · rw [cover_ghosts_above _ _ _ _ meets.symm]
          simp [Block.join, Block.span, Span.stop, plain, meets]
        · rw [cover_ghosts_alone _ _ _ red (by simpa using Ne.symm meets)]
          simp [Block.join, Block.span, Span.stop, plain, meets]
  · simp only [plain, if_false, List.map_cons, List.map_nil, List.foldr_cons, List.foldr_nil]
    rw [Piece.cover, Block.ghostRows, cover_ghosts_above _ _ _ _ rfl]
    cases spans <;> simp [Block.join, Block.span, plain]

end Tracker

theorem Tiled.spans_eq {tracker : Tracker} {blocks : List Block} (tiled : Tiled tracker blocks)
    (filled : ∀ block ∈ blocks, 0 < block.red + block.green) :
    tracker.spans = joinBlocks blocks := by
  rw [Tracker.spans, tiled.pieces_eq, joinBlocks]
  clear tiled
  induction blocks with
  | nil => rfl
  | cons block rest ih =>
      rw [List.flatMap_cons, List.foldr_append,
        ih fun later member => filled later (by simp [member]),
        Tracker.cover_pieces _ _ (filled block (by simp)), List.foldr_cons]

end Redline
