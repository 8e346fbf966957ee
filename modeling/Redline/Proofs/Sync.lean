import Mathlib.Data.List.Pairwise
import Mathlib.Data.List.Sort
import Redline.Proofs.Bisect
import Redline.Proofs.Rows
import Redline.Proofs.Tiling

/-! Bringing the blocks up to date. The spans of a tiled tracker are cut back into its blocks as
long as the known starts begin blocks and name every place where blocks are joined. -/

namespace Redline

theorem Block.stop_eq {block : Block} (fits : block.span.stop < rowLimit) :
    block.stop = .ok block.span.stop := by
  simp only [Block.span, Span.stop] at fits
  rw [Block.stop, Row.add_eq (by omega), ok_bind, Row.add_eq fits]
  rfl

namespace Registry

variable {registry : Registry}

def Ascending (registry : Registry) : Prop := (registry.blocks.map Block.start).Pairwise (· < ·)

theorem cutsOf_eq (ascending : registry.Ascending) (span : Span) (stop : Nat) :
    registry.cutsOf span stop = (registry.blocks.map Block.start).filter
      fun start => decide (span.start < start) && decide (start < stop) := by
  have low := partitioned_le ascending span.start
  have high := partitioned_lt ((ascending.sublist (List.drop_sublist
    ((registry.blocks.map Block.start).countP fun start => decide (start ≤ span.start)) _))) stop
  unfold cutsOf
  simp only [bisect_eq_countP low]
  rw [high.takeWhile_eq, low.drop_countP, List.filter_filter]
  apply List.filter_congr
  intro start _
  rw [Bool.and_comm, Bool.eq_iff_iff]
  simp

theorem mem_cutsOf (ascending : registry.Ascending) {span : Span} {stop row : Nat} :
    row ∈ registry.cutsOf span stop ↔
      (∃ known ∈ registry.blocks, known.start = row) ∧ span.start < row ∧ row < stop := by
  rw [cutsOf_eq ascending]
  simp

theorem cutsOf_ascending (ascending : registry.Ascending) (span : Span) (stop : Nat) :
    (registry.cutsOf span stop).Pairwise (· < ·) := by
  rw [cutsOf_eq ascending]
  exact ascending.filter _

theorem split_eq {span : Span} (fits : span.stop < rowLimit) :
    registry.split span =
      cut (span.start + span.red) span.start (registry.cutsOf span span.stop ++ [span.stop]) := by
  unfold Span.stop at fits
  rw [split, Row.add_eq (by omega), ok_bind, Row.add_eq fits, ok_bind]
  rfl

theorem cut_cons {ghostStop start stop : Nat} (stops : List Nat) (below : start ≤ stop) :
    cut ghostStop start (stop :: stops) = (do
      let rest ← cut ghostStop stop stops
      return ⟨start, max start (min ghostStop stop) - start,
        stop - max start (min ghostStop stop)⟩ :: rest) := by
  rw [cut, if_neg (by omega)]

def Respects (registry : Registry) (block : Block) : Prop :=
  ∀ known ∈ registry.blocks, known.start ≤ block.start ∨ block.span.stop ≤ known.start

theorem split_block (ascending : registry.Ascending) {block : Block}
    (fits : block.span.stop < rowLimit) (respects : registry.Respects block) :
    registry.split block.span = .ok [block.span] := by
  have none : registry.cutsOf block.span block.span.stop = [] := by
    apply List.eq_nil_iff_forall_not_mem.mpr
    intro row member
    rcases (mem_cutsOf ascending).mp member with ⟨⟨known, present, rfl⟩, inside⟩
    have outside := respects known present
    simp only [Block.span] at inside outside
    omega
  have below : block.span.start ≤ block.span.stop := by
    simp only [Span.stop]
    omega
  rw [split_eq fits, none, List.nil_append, cut_cons [] below]
  simp only [cut, ok_bind, pure, Except.pure, Block.span, Span.stop]
  congr 3 <;> omega

/-- A span that was joined at a known start is cut there first. -/
theorem split_joined (ascending : registry.Ascending) {block : Block} {next : Span}
    (respects : registry.Respects block) (plain : block.green = 0) (filled : 0 < block.red)
    (meets : block.span.stop = next.start)
    (known : ∃ other ∈ registry.blocks, other.start = next.start)
    (nextFilled : next.start < next.stop) (fits : next.stop < rowLimit) :
    registry.split ⟨block.start, block.red + next.red, next.green⟩ = (do
      let parts ← registry.split next
      return block.span :: parts) := by
  have start : block.start + block.red = next.start := by
    simpa [Block.span, Span.stop, plain] using meets
  have stop : Span.stop ⟨block.start, block.red + next.red, next.green⟩ = next.stop := by
    simp only [Span.stop]
    omega
  have cuts : registry.cutsOf ⟨block.start, block.red + next.red, next.green⟩ next.stop =
      next.start :: registry.cutsOf next next.stop := by
    refine List.Pairwise.eq_of_mem_iff (cutsOf_ascending ascending _ _)
      (List.pairwise_cons.mpr ⟨?_, cutsOf_ascending ascending _ _⟩) ?_
    · intro row member
      exact ((mem_cutsOf ascending).mp member).2.1
    · intro row
      rw [List.mem_cons, mem_cutsOf ascending, mem_cutsOf ascending]
      constructor
      · rintro ⟨⟨other, present, rfl⟩, above, below⟩
        have outside := respects other present
        simp only [Block.span, Span.stop, plain] at outside above
        by_cases first : other.start = next.start
        · exact .inl first
        · exact .inr ⟨⟨other, present, rfl⟩, by omega, below⟩
      · rintro (rfl | ⟨present, above, below⟩)
        · exact ⟨known, by simp only; omega, nextFilled⟩
        · exact ⟨present, by simp only; omega, below⟩
  have ghostStop : block.start + (block.red + next.red) = next.start + next.red := by omega
  rw [split_eq (by rwa [stop]), split_eq fits, stop, cuts, List.cons_append,
    cut_cons _ (by simp only; omega)]
  simp only [ghostStop]
  congr 1
  funext parts
  congr 2
  simp only [Block.span, plain, Span.mk.injEq, true_and]
  omega

end Registry

theorem head_joinBlocks {block : Block} {rest : List Block} {span : Span} {spans : List Span}
    (joined : joinBlocks (block :: rest) = span :: spans) : span.start = block.start := by
  unfold joinBlocks at joined
  rw [List.foldr_cons] at joined
  cases below : rest.foldr Block.join [] with
  | nil =>
      rw [below, Block.join] at joined
      exact (congrArg Span.start (List.cons.inj joined).1).symm
  | cons next more =>
      rw [below, Block.join] at joined
      split at joined
      · exact (congrArg Span.start (List.cons.inj joined).1).symm
      · exact (congrArg Span.start (List.cons.inj joined).1).symm

theorem mem_joinBlocks {blocks : List Block}
    (filled : ∀ block ∈ blocks, 0 < block.red + block.green)
    {span : Span} (member : span ∈ joinBlocks blocks) :
    span.start < span.stop ∧ ∃ block ∈ blocks, block.span.stop = span.stop := by
  induction blocks generalizing span with
  | nil => simp [joinBlocks] at member
  | cons block rest ih =>
      have here := filled block (by simp)
      have whole : block.span.start < block.span.stop := by
        simp only [Block.span, Span.stop]
        omega
      have later : ∀ span ∈ joinBlocks rest,
          span.start < span.stop ∧ ∃ other ∈ rest, other.span.stop = span.stop :=
        fun span inside => ih (fun other present => filled other (by simp [present])) inside
      have tail : joinBlocks (block :: rest) = block.join (joinBlocks rest) := rfl
      rw [tail] at member
      cases below : joinBlocks rest with
      | nil =>
          rw [below, Block.join, List.mem_singleton] at member
          exact ⟨member ▸ whole, block, by simp, by rw [member]⟩
      | cons next more =>
          rw [below, Block.join] at member
          split at member
          · rename_i meets
            rcases List.mem_cons.mp member with rfl | member
            · rcases later next (by simp [below]) with ⟨nextWhole, other, present, reached⟩
              have start : block.start + block.red = next.start := by
                simpa [Block.span, Span.stop, meets.1] using meets.2
              simp only [Span.stop] at nextWhole reached ⊢
              exact ⟨by omega, other, by simp [present], by omega⟩
            · rcases later span (by simp [below, member]) with ⟨nonempty, other, present, reached⟩
              exact ⟨nonempty, other, by simp [present], reached⟩
          · rcases List.mem_cons.mp member with rfl | member
            · exact ⟨whole, block, by simp, rfl⟩
            · rcases later span (by rwa [below]) with ⟨nonempty, other, present, reached⟩
              exact ⟨nonempty, other, by simp [present], reached⟩

namespace Registry

variable {registry : Registry} {blocks : List Block}

/-- Every place where a block without added rows meets the next one is a known start. -/
def Separates (registry : Registry) (blocks : List Block) : Prop :=
  ∀ first ∈ blocks, ∀ second ∈ blocks, first.green = 0 → first.span.stop = second.start →
    ∃ known ∈ registry.blocks, known.start = second.start

theorem split_join (ascending : registry.Ascending) {block : Block} {rest : List Block}
    (filled : ∀ other ∈ block :: rest, 0 < other.red + other.green)
    (fits : ∀ other ∈ block :: rest, other.span.stop < rowLimit)
    (respects : registry.Respects block) (separates : registry.Separates (block :: rest))
    {next : Span} {more : List Span} (below : joinBlocks rest = next :: more)
    (plain : block.green = 0) (meets : block.span.stop = next.start) :
    registry.split ⟨block.start, block.red + next.red, next.green⟩ = (do
      let parts ← registry.split next
      return block.span :: parts) := by
  cases rest with
  | nil => simp [joinBlocks] at below
  | cons second others =>
      have start := head_joinBlocks below
      have later : ∀ other ∈ second :: others, 0 < other.red + other.green :=
        fun other member => filled other (List.mem_cons_of_mem block member)
      have first : next ∈ joinBlocks (second :: others) := by
        rw [below]
        exact List.mem_cons_self
      rcases mem_joinBlocks later first with ⟨nonempty, last, present, reached⟩
      have known := separates block List.mem_cons_self second (by simp) plain (by rw [meets, start])
      have red : 0 < block.red := by
        have here := filled block List.mem_cons_self
        omega
      apply split_joined ascending respects plain red meets
      · rwa [start]
      · exact nonempty
      · rw [← reached]
        exact fits last (List.mem_cons_of_mem block present)

theorem split_joinBlocks (ascending : registry.Ascending)
    (filled : ∀ block ∈ blocks, 0 < block.red + block.green)
    (fits : ∀ block ∈ blocks, block.span.stop < rowLimit)
    (respects : ∀ block ∈ blocks, registry.Respects block)
    (separates : registry.Separates blocks) :
    ∃ parts, (joinBlocks blocks).mapM registry.split = .ok parts ∧
      parts.flatten = blocks.map Block.span := by
  -- The topmost block is cut off a joined span, and what remains of the span starts the rest.
  induction blocks with
  | nil => exact ⟨[], rfl, rfl⟩
  | cons block rest ih =>
      obtain ⟨parts, cutUp, flat⟩ := ih
        (fun later member => filled later (by simp [member]))
        (fun later member => fits later (by simp [member]))
        (fun later member => respects later (by simp [member]))
        (fun first inFirst second inSecond =>
          separates first (by simp [inFirst]) second (by simp [inSecond]))
      have single := split_block ascending (fits block (by simp)) (respects block (by simp))
      have tail : joinBlocks (block :: rest) = block.join (joinBlocks rest) := rfl
      rw [tail]
      cases below : joinBlocks rest with
      | nil =>
          rw [below] at cutUp
          have empty : parts = [] := (Except.ok.inj cutUp).symm
          refine ⟨[[block.span]], ?_, ?_⟩
          · rw [Block.join, List.mapM_cons, single]
            rfl
          · simpa [empty] using flat
      | cons next more =>
          rw [below, List.mapM_cons] at cutUp
          rcases bind_eq_ok.mp cutUp with ⟨first, splitNext, cutUp⟩
          rcases bind_eq_ok.mp cutUp with ⟨others, splitMore, same⟩
          have same : first :: others = parts := Except.ok.inj same
          rw [Block.join]
          split
          · rename_i meets
            have splitHere := split_join ascending filled fits (respects block (by simp)) separates
              below meets.1 meets.2
            refine ⟨(block.span :: first) :: others, ?_, ?_⟩
            · rw [List.mapM_cons, splitHere, splitNext, splitMore]
              rfl
            · rw [← same] at flat
              simpa using flat
          · refine ⟨[block.span] :: first :: others, ?_, ?_⟩
            · rw [List.mapM_cons, List.mapM_cons, single, splitNext, splitMore]
              rfl
            · rw [same, List.flatten_cons, flat]
              rfl

theorem partitioned_starts (ascending : registry.Ascending) (start : Nat) :
    Partitioned (fun block : Block => decide (block.start ≤ start)) registry.blocks :=
  List.pairwise_map.mp (partitioned_le ascending start)

theorem idAt?_of_mem (ascending : registry.Ascending) {block : Block}
    (known : block ∈ registry.blocks) : registry.idAt? block.start = some block.id := by
  rcases List.append_of_mem known with ⟨front, back, split⟩
  have ordered := List.pairwise_map.mp ascending
  rw [split, List.pairwise_append, List.pairwise_cons] at ordered
  have before : front.countP (fun other => decide (other.start ≤ block.start)) = front.length := by
    apply List.countP_eq_length.mpr
    intro other member
    have below := ordered.2.2 other member block List.mem_cons_self
    simpa using Nat.le_of_lt below
  have behind : back.countP (fun other => decide (other.start ≤ block.start)) = 0 := by
    apply List.countP_eq_zero.mpr
    intro other member
    simpa using ordered.2.1.1 other member
  have found : bisect (fun other : Block => decide (other.start ≤ block.start)) registry.blocks =
      front.length + 1 := by
    rw [bisect_eq_countP (partitioned_starts ascending block.start), split, List.countP_append,
      List.countP_cons, before, behind]
    simp
  rw [idAt?, found, split]
  simp

theorem idAt?_eq_none {start : Nat} (fresh : ∀ known ∈ registry.blocks, known.start ≠ start) :
    registry.idAt? start = none := by
  unfold idAt?
  split
  · rfl
  · split
    · rename_i known found
      rw [if_neg (fresh known (List.mem_of_getElem? found))]
    · rfl

theorem adopt_append (minted : Nat) (first second : List Span) :
    registry.adopt minted (first ++ second) =
      ((registry.adopt (registry.adopt minted first).1 second).1,
        (registry.adopt minted first).2 ++
          (registry.adopt (registry.adopt minted first).1 second).2) := by
  induction first generalizing minted with
  | nil => rfl
  | cons span rest ih =>
      rw [List.cons_append]
      simp only [adopt]
      split
      · rw [ih minted]
        rfl
      · rw [ih (minted + 1)]
        rfl

/-- Blocks whose starts are known keep their ids. -/
theorem adopt_known {minted : Nat}
    (known : ∀ block ∈ blocks, registry.idAt? block.start = some block.id) :
    registry.adopt minted (blocks.map Block.span) = (minted, blocks) := by
  induction blocks with
  | nil => rfl
  | cons block rest ih =>
      have first : registry.idAt? block.span.start = some block.id := known block (by simp)
      simp only [List.map_cons, adopt, first, ih fun later member => known later (by simp [member])]
      rfl

theorem checkOrder_eq (apart : blocks.Pairwise fun first second => first.span.stop ≤ second.start)
    (fits : ∀ block ∈ blocks, block.span.stop < rowLimit) : checkOrder blocks = .ok () := by
  induction blocks using checkOrder.induct with
  | case1 first second rest ih =>
      have below := (List.pairwise_cons.mp apart).1 second (by simp)
      have small := fits first (by simp)
      rw [checkOrder, Block.stop_eq small, ok_bind, if_neg (by omega)]
      exact ih (List.pairwise_cons.mp apart).2 fun later member => fits later (by simp [member])
  | case2 blocks short => rw [checkOrder]; exact short

theorem check_eq (filled : ∀ block ∈ registry.blocks, 0 < block.red + block.green)
    (apart : registry.blocks.Pairwise fun first second => first.span.stop ≤ second.start)
    (fits : ∀ block ∈ registry.blocks, block.span.stop < rowLimit) : registry.check = .ok () := by
  have whole : registry.blocks.find? (fun block => block.red + block.green == 0) = none := by
    rw [List.find?_eq_none]
    intro block member
    have here := filled block member
    rw [beq_iff_eq]
    omega
  rw [check, whole]
  exact checkOrder_eq apart fits

theorem sync_eq {tracker : Tracker} {minted : Nat} (tiled : Tiled tracker blocks)
    (filled : ∀ block ∈ blocks, 0 < block.red + block.green) (fits : tracker.fits = true)
    (ascending : registry.Ascending) (respects : ∀ block ∈ blocks, registry.Respects block)
    (separates : registry.Separates blocks)
    (adopted : registry.adopt registry.minted (blocks.map Block.span) = (minted, blocks)) :
    registry.sync tracker.spans =
      .ok (minted - registry.minted, { registry with minted, blocks }) := by
  have small : ∀ block ∈ blocks, block.span.stop < rowLimit :=
    fun block member => tiled.stop_lt fits member (filled block member)
  rcases split_joinBlocks ascending filled small respects separates with ⟨parts, cutUp, flat⟩
  have valid : check { registry with minted, blocks } = .ok () := check_eq filled tiled.apart small
  rw [sync, tiled.spans_eq filled, cutUp, ok_bind, flat, adopted]
  simp only [valid, ok_bind]
  rfl

theorem starts_ascending (filled : ∀ block ∈ blocks, 0 < block.red + block.green)
    (apart : blocks.Pairwise fun first second => first.span.stop ≤ second.start) :
    (blocks.map Block.start).Pairwise (· < ·) := by
  rw [List.pairwise_map]
  refine apart.imp_of_mem ?_
  intro first second member _ below
  have here := filled first member
  simp only [Block.span, Span.stop] at below
  omega

theorem respects_of_starts
    (apart : blocks.Pairwise fun first second => first.span.stop ≤ second.start)
    (starts : ∀ known ∈ registry.blocks, ∃ block ∈ blocks, block.start = known.start) :
    ∀ block ∈ blocks, registry.Respects block := by
  intro block member known present
  rcases starts known present with ⟨other, inside, start⟩
  have both : blocks.Pairwise fun first second =>
      first.span.stop ≤ second.start ∨ second.span.stop ≤ first.start := apart.imp Or.inl
  by_cases same : block = other
  · exact .inl (by rw [same, start])
  · have symmetric : Std.Symm fun first second : Block =>
        first.span.stop ≤ second.start ∨ second.span.stop ≤ first.start := ⟨fun _ _ => Or.symm⟩
    rw [← start]
    rcases both.forall member inside same with below | above
    · exact .inr below
    · refine .inl (Nat.le_trans ?_ above)
      simp only [Block.span, Span.stop]
      omega

/-- Blocks that start where the known ones do take their places and their ids. -/
theorem sync_known {tracker : Tracker} (tiled : Tiled tracker blocks)
    (filled : ∀ block ∈ blocks, 0 < block.red + block.green) (fits : tracker.fits = true)
    (known : registry.blocks.map (fun block => (block.id, block.start)) =
      blocks.map fun block => (block.id, block.start)) :
    registry.sync tracker.spans = .ok (0, { registry with blocks }) := by
  have starts : registry.blocks.map Block.start = blocks.map Block.start := by
    have second := congrArg (List.map Prod.snd) known
    rwa [List.map_map, List.map_map] at second
  have ascending : registry.Ascending := by
    rw [Ascending, starts]
    exact starts_ascending filled tiled.apart
  have respects : ∀ block ∈ blocks, registry.Respects block := by
    apply respects_of_starts tiled.apart
    intro other present
    have start : other.start ∈ blocks.map Block.start := by
      rw [← starts]
      exact List.mem_map_of_mem present
    exact List.mem_map.mp start
  have namesake : ∀ block ∈ blocks, ∃ other ∈ registry.blocks,
      other.id = block.id ∧ other.start = block.start := by
    intro block member
    have pair : (block.id, block.start) ∈
        registry.blocks.map fun block => (block.id, block.start) := by
      rw [known]
      exact List.mem_map_of_mem member
    rcases List.mem_map.mp pair with ⟨other, present, same⟩
    exact ⟨other, present, Prod.mk.inj same⟩
  have separates : registry.Separates blocks := by
    intro _ _ second inSecond _ _
    rcases namesake second inSecond with ⟨other, present, _, start⟩
    exact ⟨other, present, start⟩
  have adopted : registry.adopt registry.minted (blocks.map Block.span) =
      (registry.minted, blocks) := by
    apply adopt_known
    intro block member
    rcases namesake block member with ⟨other, present, id, start⟩
    rw [← start, ← id]
    exact idAt?_of_mem ascending present
  rw [sync_eq tiled filled fits ascending respects separates adopted, Nat.sub_self]

theorem sync_new {tracker : Tracker} {block : Block}
    (tiled : Tiled tracker (registry.blocks ++ [block]))
    (filled : ∀ known ∈ registry.blocks ++ [block], 0 < known.red + known.green)
    (fits : tracker.fits = true)
    (clear : ∀ known ∈ registry.blocks, known.span.stop < block.start)
    (fresh : block.id = ⟨registry.stream, registry.minted⟩) :
    registry.sync tracker.spans =
      .ok (1, { registry with
        minted := registry.minted + 1, blocks := registry.blocks ++ [block] }) := by
  have ordered := starts_ascending filled tiled.apart
  rw [List.map_append, List.pairwise_append] at ordered
  have ascending : registry.Ascending := ordered.1
  have respects : ∀ known ∈ registry.blocks ++ [block], registry.Respects known :=
    respects_of_starts tiled.apart fun known present => ⟨known, by simp [present], rfl⟩
  have separates : registry.Separates (registry.blocks ++ [block]) := by
    intro first inFirst second inSecond _ meets
    rcases List.mem_append.mp inSecond with present | last
    · exact ⟨second, present, rfl⟩
    · rw [List.mem_singleton.mp last] at meets
      rcases List.mem_append.mp inFirst with present | last
      · have above := clear first present
        omega
      · have whole := filled block (by simp)
        rw [List.mem_singleton.mp last] at meets
        simp only [Block.span, Span.stop] at meets
        omega
  have adopted : registry.adopt registry.minted ((registry.blocks ++ [block]).map Block.span) =
      (registry.minted + 1, registry.blocks ++ [block]) := by
    have unknown : registry.idAt? block.span.start = none := by
      apply idAt?_eq_none
      intro known present
      have below := ordered.2.2 known.start (List.mem_map_of_mem present) block.start (by simp)
      exact Nat.ne_of_lt below
    rw [List.map_append, adopt_append,
      adopt_known fun known present => idAt?_of_mem ascending present]
    simp only [List.map_cons, List.map_nil, adopt, unknown, ← fresh]
    rfl
  rw [sync_eq tiled filled fits ascending respects separates adopted, Nat.add_sub_cancel_left]

end Registry
end Redline
