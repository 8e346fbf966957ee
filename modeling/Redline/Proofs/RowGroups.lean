import Mathlib.Data.List.Chain
import Mathlib.Data.List.Sort
import Redline.Proofs.Validity

/-! Groups of tracked rows. A tracker that passes its check can be grouped in one way only: every
ghost is red in some span, the green parts are the added ranges, and no run of ghosts is cut in two
or left apart from the range right below it. One pass over the ghosts and the ranges, side by side,
finds this grouping. -/

namespace Redline

namespace Span

def redRows (span : Span) : List Nat := List.range' span.start span.red

def greenRanges (span : Span) : List AddedRange :=
  if span.green = 0 then [] else [⟨span.start + span.red, span.green⟩]

def block (span : Span) : Block := ⟨⟨⟨0⟩, 0⟩, span.start, span.red, span.green⟩

end Span

theorem joinBlocks_apart {blocks : List Block}
    (clear : blocks.IsChain fun first second => first.green = 0 → first.span.stop ≠ second.start) :
    joinBlocks blocks = blocks.map Block.span := by
  induction blocks with
  | nil => rfl
  | cons block rest ih =>
      have tail : joinBlocks (block :: rest) = block.join (joinBlocks rest) := rfl
      rw [tail]
      cases rest with
      | nil => rfl
      | cons next more =>
          rcases List.isChain_cons_cons.mp clear with ⟨first, later⟩
          rw [ih later, List.map_cons, Block.join, if_neg]
          · rfl
          · rintro ⟨plain, meets⟩
            exact first plain meets

namespace Tracker

variable {tracker : Tracker} {spans : List Span} {ghosts : List Ghost} {ranges : List AddedRange}

/-- Spans in order that hold all tracked rows and no others. -/
structure Grouped (tracker : Tracker) (spans : List Span) : Prop where
  apart : spans.Pairwise fun first second => first.stop ≤ second.start
  filled : ∀ span ∈ spans, 0 < span.red + span.green
  reds : ∀ row, row ∈ spans.flatMap Span.redRows ↔ row ∈ tracker.ghosts.map Ghost.row
  greens : (spans.flatMap Span.greenRanges).Perm tracker.added
  /-- No span starts where one without added rows ends. -/
  whole : spans.IsChain fun first second => first.green = 0 → first.stop ≠ second.start

theorem redRows_ascending (apart : spans.Pairwise fun first second => first.stop ≤ second.start) :
    (spans.flatMap Span.redRows).Pairwise (· < ·) := by
  rw [List.pairwise_flatMap]
  refine ⟨fun span _ => List.pairwise_lt_range', apart.imp ?_⟩
  intro first second below low inFirst high inSecond
  have reached := (List.mem_range'_1.mp inFirst).2
  have started := (List.mem_range'_1.mp inSecond).1
  simp only [Span.stop] at below
  omega

theorem greenRanges_ascending
    (apart : spans.Pairwise fun first second => first.stop ≤ second.start) :
    (spans.flatMap Span.greenRanges).Pairwise fun first second => first.start < second.start := by
  rw [List.pairwise_flatMap]
  constructor
  · intro span _
    unfold Span.greenRanges
    split <;> simp
  · refine apart.imp ?_
    intro first second below low inFirst high inSecond
    unfold Span.greenRanges at inFirst inSecond
    simp only [Span.stop] at below
    split at inFirst <;> split at inSecond <;> simp at inFirst inSecond
    rw [inFirst, inSecond]
    simp only
    omega

theorem Valid.starts (valid : tracker.Valid) :
    tracker.added.Pairwise fun first second => first.start < second.start := by
  refine valid.ranges.imp_of_mem ?_
  intro first second member _ below
  have filled := valid.filled first member
  simp only [AddedRange.stop] at below
  omega

theorem Grouped.tiled (valid : tracker.Valid) (grouped : tracker.Grouped spans) :
    Tiled tracker (spans.map Span.block) where
  ghosts := by
    rw [List.flatMap_map]
    refine List.Pairwise.eq_of_mem_iff (List.pairwise_map.mpr valid.ghosts)
      (redRows_ascending grouped.apart) ?_
    intro row
    exact (grouped.reds row).symm
  added := by
    rw [List.flatMap_map]
    refine List.Perm.eq_of_pairwise ?_ valid.starts (greenRanges_ascending grouped.apart)
      grouped.greens.symm
    intro first second _ _ below above
    exact absurd below (Nat.lt_asymm above)
  apart := List.pairwise_map.mpr grouped.apart

/-- The spans of a tracker are the blocks of any tiling, joined where they can be; those of a
grouping cannot. -/
theorem Grouped.eq_spans (valid : tracker.Valid) (grouped : tracker.Grouped spans) :
    spans = tracker.spans := by
  have filled : ∀ block ∈ spans.map Span.block, 0 < block.red + block.green := by
    rw [List.forall_mem_map]
    exact grouped.filled
  have clear : (spans.map Span.block).IsChain
      fun first second => first.green = 0 → first.span.stop ≠ second.start := by
    rw [List.isChain_map]
    exact grouped.whole
  rw [(grouped.tiled valid).spans_eq filled, joinBlocks_apart clear, List.map_map]
  exact (List.map_id spans).symm

def runLength (row : Nat) : List Ghost → Nat
  | [] => 0
  | ghost :: rest => if ghost.row = row then runLength (row + 1) rest + 1 else 0

/-- Takes what comes first: a range that has no ghosts, or a run of ghosts, with the range right
below it if there is one. -/
def gather : List Ghost → List AddedRange → List Span
  | [], ranges => ranges.map fun range => ⟨range.start, 0, range.count⟩
  | ghost :: ghosts, [] =>
      let more := runLength (ghost.row + 1) ghosts
      ⟨ghost.row, more + 1, 0⟩ :: gather (ghosts.drop more) []
  | ghost :: ghosts, range :: ranges =>
      if ghost.row < range.start then
        let more := runLength (ghost.row + 1) ghosts
        if range.start = ghost.row + (more + 1) then
          ⟨ghost.row, more + 1, range.count⟩ :: gather (ghosts.drop more) ranges
        else ⟨ghost.row, more + 1, 0⟩ :: gather (ghosts.drop more) (range :: ranges)
      else ⟨range.start, 0, range.count⟩ :: gather (ghost :: ghosts) ranges
termination_by ghosts ranges => ghosts.length + ranges.length

theorem rows_runLength (row : Nat) (ghosts : List Ghost) :
    (ghosts.take (runLength row ghosts)).map Ghost.row =
      List.range' row (runLength row ghosts) := by
  induction ghosts generalizing row with
  | nil => rfl
  | cons ghost rest ih =>
      rw [runLength]
      split
      · rename_i here
        rw [List.take_succ_cons, List.map_cons, ih, List.range'_succ, here]
      · rfl

theorem lt_row_of_mem_drop (ascending : Ascending ghosts) {row : Nat}
    (above : ∀ ghost ∈ ghosts, row ≤ ghost.row) :
    ∀ ghost ∈ ghosts.drop (runLength row ghosts), row + runLength row ghosts < ghost.row := by
  induction ghosts generalizing row with
  | nil => simp
  | cons ghost rest ih =>
      rcases List.pairwise_cons.mp ascending with ⟨first, later⟩
      have here := above ghost List.mem_cons_self
      rw [runLength]
      split
      · rename_i same
        intro last member
        have beyond := ih later (fun other present => by
          have order := first other present
          omega) last member
        omega
      · rename_i other
        intro last member
        rcases List.mem_cons.mp member with rfl | present
        · omega
        · have order := first last present
          omega

theorem rows_divided (ghost : Ghost) (rest : List Ghost) :
    List.range' ghost.row (runLength (ghost.row + 1) rest + 1) ++
      (rest.drop (runLength (ghost.row + 1) rest)).map Ghost.row =
        (ghost :: rest).map Ghost.row := by
  rw [List.range'_succ, ← rows_runLength, List.cons_append, ← List.map_append,
    List.take_append_drop, List.map_cons]

theorem rows_gather (ghosts : List Ghost) (ranges : List AddedRange) :
    (gather ghosts ranges).flatMap Span.redRows = ghosts.map Ghost.row := by
  fun_induction gather ghosts ranges with
  | case1 ranges => simp [List.flatMap_map, Span.redRows]
  | case2 ghost rest more ih => rw [List.flatMap_cons, ih, ← rows_divided]; rfl
  | case3 ghost rest range ranges above more meets ih =>
      rw [List.flatMap_cons, ih, ← rows_divided]; rfl
  | case4 ghost rest range ranges above more apart ih =>
      rw [List.flatMap_cons, ih, ← rows_divided]; rfl
  | case5 ghost rest range ranges below ih => rw [List.flatMap_cons, ih]; rfl

theorem greenRanges_filled {start red count : Nat} (filled : 0 < count) :
    Span.greenRanges ⟨start, red, count⟩ = [⟨start + red, count⟩] :=
  if_neg (Nat.ne_of_gt filled)

theorem ranges_gather (filled : ∀ range ∈ ranges, 0 < range.count) :
    (gather ghosts ranges).flatMap Span.greenRanges = ranges := by
  fun_induction gather ghosts ranges with
  | case1 ranges =>
      rw [List.flatMap_map]
      induction ranges with
      | nil => rfl
      | cons range rest ih =>
          rw [List.flatMap_cons, greenRanges_filled (filled range List.mem_cons_self),
            ih fun later member => filled later (List.mem_cons_of_mem range member)]
          rfl
  | case2 ghost rest more ih =>
      rw [List.flatMap_cons, ih filled]
      rfl
  | case3 ghost rest range ranges above more meets ih =>
      rw [List.flatMap_cons, greenRanges_filled (filled range List.mem_cons_self),
        ih fun later member => filled later (List.mem_cons_of_mem range member), ← meets]
      rfl
  | case4 ghost rest range ranges above more apart ih =>
      rw [List.flatMap_cons, ih filled]
      rfl
  | case5 ghost rest range ranges below ih =>
      rw [List.flatMap_cons, greenRanges_filled (filled range List.mem_cons_self),
        ih fun later member => filled later (List.mem_cons_of_mem range member)]
      rfl

theorem filled_gather (filled : ∀ range ∈ ranges, 0 < range.count) :
    ∀ span ∈ gather ghosts ranges, 0 < span.red + span.green := by
  fun_induction gather ghosts ranges with
  | case1 ranges =>
      rw [List.forall_mem_map]
      intro range member
      rw [Nat.zero_add]
      exact filled range member
  | case2 ghost rest more ih => exact List.forall_mem_cons.mpr ⟨by simp, ih filled⟩
  | case3 ghost rest range ranges above more meets ih =>
      exact List.forall_mem_cons.mpr ⟨Nat.add_pos_left (Nat.succ_pos more) _,
        ih fun later member => filled later (List.mem_cons_of_mem range member)⟩
  | case4 ghost rest range ranges above more apart ih =>
      exact List.forall_mem_cons.mpr ⟨Nat.succ_pos more, ih filled⟩
  | case5 ghost rest range ranges below ih =>
      have here := filled range List.mem_cons_self
      exact List.forall_mem_cons.mpr ⟨by rwa [Nat.zero_add],
        ih fun later member => filled later (List.mem_cons_of_mem range member)⟩

theorem le_start_of_mem_gather {bound : Nat} (below : ∀ ghost ∈ ghosts, bound ≤ ghost.row)
    (under : ∀ range ∈ ranges, bound ≤ range.start) :
    ∀ span ∈ gather ghosts ranges, bound ≤ span.start := by
  have later {ghost : Ghost} {rest : List Ghost} (count : Nat)
      (all : ∀ other ∈ ghost :: rest, bound ≤ other.row) :
      ∀ other ∈ rest.drop count, bound ≤ other.row :=
    fun other member => all other (List.mem_cons_of_mem ghost (List.mem_of_mem_drop member))
  fun_induction gather ghosts ranges with
  | case1 ranges => exact List.forall_mem_map.mpr under
  | case2 ghost rest more ih =>
      exact List.forall_mem_cons.mpr ⟨below ghost List.mem_cons_self, ih (later more below) under⟩
  | case3 ghost rest range ranges above more meets ih =>
      exact List.forall_mem_cons.mpr ⟨below ghost List.mem_cons_self, ih (later more below)
        fun other member => under other (List.mem_cons_of_mem range member)⟩
  | case4 ghost rest range ranges above more apart ih =>
      exact List.forall_mem_cons.mpr ⟨below ghost List.mem_cons_self, ih (later more below) under⟩
  | case5 ghost rest range ranges beneath ih =>
      exact List.forall_mem_cons.mpr ⟨under range List.mem_cons_self,
        ih below fun other member => under other (List.mem_cons_of_mem range member)⟩

theorem Valid.sublist {fewerRanges : List AddedRange} {fewerGhosts : List Ghost}
    (valid : Valid ⟨ranges, ghosts⟩) (shortRanges : fewerRanges.Sublist ranges)
    (shortGhosts : fewerGhosts.Sublist ghosts) : Valid ⟨fewerRanges, fewerGhosts⟩ where
  filled := fun range member => valid.filled range (shortRanges.subset member)
  ranges := valid.ranges.sublist shortRanges
  ghosts := List.Pairwise.sublist shortGhosts valid.ghosts
  apart := fun range inside ghost present =>
    valid.apart range (shortRanges.subset inside) ghost (shortGhosts.subset present)

theorem Valid.run_le_start {ghost : Ghost} {range : AddedRange}
    (valid : Valid ⟨range :: ranges, ghost :: ghosts⟩) (above : ghost.row < range.start) :
    ghost.row + (runLength (ghost.row + 1) ghosts + 1) ≤ range.start := by
  by_contra reached
  have inRun : range.start ∈
      List.range' ghost.row (runLength (ghost.row + 1) ghosts + 1) := by
    rw [List.mem_range'_1]
    omega
  have inRows : range.start ∈ (ghost :: ghosts).map Ghost.row := by
    rw [← rows_divided]
    exact List.mem_append_left _ inRun
  rcases List.mem_map.mp inRows with ⟨other, present, same⟩
  have filled := valid.filled range List.mem_cons_self
  apply valid.apart range List.mem_cons_self other present
  rw [AddedRange.Holds, AddedRange.stop, same]
  omega

/-- A ghost that does not stand above a range stands below it. -/
theorem Valid.stop_le_row {ghost : Ghost} {range : AddedRange} (valid : tracker.Valid)
    (inside : range ∈ tracker.added) (present : ghost ∈ tracker.ghosts)
    (below : range.start ≤ ghost.row) : range.stop ≤ ghost.row := by
  by_contra within
  exact valid.apart range inside ghost present ⟨below, by omega⟩

theorem Valid.lt_row_behind {ghost : Ghost} (valid : Valid ⟨ranges, ghost :: ghosts⟩) :
    ∀ other ∈ ghosts.drop (runLength (ghost.row + 1) ghosts),
      ghost.row + (runLength (ghost.row + 1) ghosts + 1) < other.row := by
  rcases List.pairwise_cons.mp valid.ghosts with ⟨first, later⟩
  intro other member
  have above : ∀ next ∈ ghosts, ghost.row + 1 ≤ next.row := first
  have beyond := lt_row_of_mem_drop later above other member
  omega

theorem gather_apart (valid : Valid ⟨ranges, ghosts⟩) :
    (gather ghosts ranges).Pairwise fun first second =>
      first.stop ≤ second.start ∧ (first.green = 0 → first.stop ≠ second.start) := by
  -- The pass goes on behind all rows of the span it has found, where it finds the next one.
  fun_induction gather ghosts ranges with
  | case1 ranges =>
      rw [List.pairwise_map]
      refine valid.ranges.imp_of_mem ?_
      intro first second member _ below
      have filled := valid.filled first member
      exact ⟨below, fun plain => absurd plain (Nat.ne_of_gt filled)⟩
  | case2 ghost rest more ih =>
      have remains :=
        valid.sublist (List.Sublist.refl []) ((List.drop_sublist more rest).cons ghost)
      refine List.pairwise_cons.mpr ⟨?_, ih remains⟩
      intro span member
      have start := le_start_of_mem_gather valid.lt_row_behind (by simp) span member
      simp only [Span.stop]
      omega
  | case3 ghost rest range ranges above more meets ih =>
      have remains := valid.sublist (List.sublist_cons_self range ranges)
        ((List.drop_sublist more rest).cons ghost)
      have filled := valid.filled range List.mem_cons_self
      have beyond : ∀ other ∈ rest.drop more, range.stop ≤ other.row := by
        intro other member
        have behind := valid.lt_row_behind other member
        apply valid.stop_le_row List.mem_cons_self
          (List.mem_cons_of_mem ghost (List.mem_of_mem_drop member))
        omega
      refine List.pairwise_cons.mpr ⟨?_, ih remains⟩
      intro span member
      have start := le_start_of_mem_gather beyond (List.pairwise_cons.mp valid.ranges).1 span member
      simp only [Span.stop, AddedRange.stop] at start ⊢
      omega
  | case4 ghost rest range ranges above more apart ih =>
      have remains := valid.sublist (List.Sublist.refl (range :: ranges))
        ((List.drop_sublist more rest).cons ghost)
      have reached := valid.run_le_start above
      have under : ∀ other ∈ range :: ranges, ghost.row + (more + 1) + 1 ≤ other.start := by
        intro other member
        rcases List.mem_cons.mp member with rfl | member
        · omega
        · have order := (List.pairwise_cons.mp valid.starts).1 other member
          omega
      refine List.pairwise_cons.mpr ⟨?_, ih remains⟩
      intro span member
      have start := le_start_of_mem_gather valid.lt_row_behind under span member
      simp only [Span.stop]
      omega
  | case5 ghost rest range ranges below ih =>
      have remains := valid.sublist (List.sublist_cons_self range ranges)
        (List.Sublist.refl (ghost :: rest))
      have filled := valid.filled range List.mem_cons_self
      have beyond : ∀ other ∈ ghost :: rest, range.stop ≤ other.row := by
        intro other member
        apply valid.stop_le_row List.mem_cons_self member
        rcases List.mem_cons.mp member with rfl | member
        · omega
        · have order := (List.pairwise_cons.mp valid.ghosts).1 other member
          omega
      refine List.pairwise_cons.mpr ⟨?_, ih remains⟩
      intro span member
      have start := le_start_of_mem_gather beyond (List.pairwise_cons.mp valid.ranges).1 span member
      simp only [Span.stop, AddedRange.stop] at start ⊢
      omega

theorem Valid.gather_grouped (valid : tracker.Valid) :
    tracker.Grouped (gather tracker.ghosts tracker.added) where
  apart := (gather_apart valid).imp And.left
  filled := filled_gather valid.filled
  reds := fun row => by rw [rows_gather]
  greens := by rw [ranges_gather valid.filled]
  whole := ((gather_apart valid).imp And.right).isChain

theorem Grouped.stop_lt (valid : tracker.Valid) (grouped : tracker.Grouped spans)
    (fits : tracker.fits = true) : ∀ span ∈ spans, span.stop < rowLimit := by
  intro span member
  exact (grouped.tiled valid).stop_lt fits (List.mem_map_of_mem member) (grouped.filled span member)

/-- The spans of a tracker that passes its check are the only grouping of its rows, and one pass
finds them. -/
theorem spans_group_rows (clear : tracker.violation? = none) :
    gather tracker.ghosts tracker.added = tracker.spans ∧
    (∀ spans, tracker.Grouped spans ↔ spans = tracker.spans) ∧
    (tracker.fits = true → ∀ span ∈ tracker.spans, span.stop < rowLimit) := by
  have valid := valid_of_violation? clear
  have found : gather tracker.ghosts tracker.added = tracker.spans :=
    valid.gather_grouped.eq_spans valid
  have grouped : tracker.Grouped tracker.spans := found ▸ valid.gather_grouped
  refine ⟨found, ?_, grouped.stop_lt valid⟩
  intro spans
  constructor
  · exact fun other => other.eq_spans valid
  · rintro rfl
    exact grouped

/-- Two ghosts above a range that touches a third ghost, and a ghost above two ranges that touch. -/
def inContact : Tracker :=
  ⟨[⟨2, 2⟩, ⟨7, 1⟩, ⟨8, 2⟩], [⟨0, "a"⟩, ⟨1, "b"⟩, ⟨4, "c"⟩, ⟨6, "d"⟩]⟩

theorem inContact_grouped : inContact.violation? = none ∧ inContact.fits = true ∧
    gather inContact.ghosts inContact.added = inContact.spans ∧
    inContact.Grouped [⟨0, 2, 2⟩, ⟨4, 1, 0⟩, ⟨6, 1, 1⟩, ⟨8, 0, 2⟩] ∧
    ¬inContact.Grouped [⟨0, 2, 2⟩, ⟨4, 1, 0⟩, ⟨6, 1, 0⟩, ⟨7, 0, 3⟩] ∧
    ∀ span ∈ inContact.spans, span.stop < rowLimit := by
  have clear : inContact.violation? = none := by decide
  have fits : inContact.fits = true := by decide
  have spans : inContact.spans = [⟨0, 2, 2⟩, ⟨4, 1, 0⟩, ⟨6, 1, 1⟩, ⟨8, 0, 2⟩] := by cbv
  obtain ⟨found, only, small⟩ := spans_group_rows clear
  refine ⟨clear, fits, found, (only _).mpr spans.symm, ?_, small fits⟩
  rw [only, spans]
  decide

end Tracker

end Redline
