import Redline.Proofs.Reachability

namespace Redline

theorem Tiled.eq_of_row {blocks : List Block} {first second : Block} {row : Nat}
    (apart : blocks.Pairwise fun first second => first.span.stop ≤ second.start)
    (inFirst : first ∈ blocks) (inSecond : second ∈ blocks)
    (insideFirst : first.start ≤ row ∧ row < first.span.stop)
    (insideSecond : second.start ≤ row ∧ row < second.span.stop) : first = second := by
  have both : blocks.Pairwise fun first second =>
      first.span.stop ≤ second.start ∨ second.span.stop ≤ first.start := apart.imp Or.inl
  have symmetric : Std.Symm fun first second : Block =>
      first.span.stop ≤ second.start ∨ second.span.stop ≤ first.start := ⟨fun _ _ => Or.symm⟩
  by_contra other
  rcases both.forall inFirst inSecond other with below | above <;> omega

/-- An edit does not delete so many lines that a list of them would fill half of the address
space. -/
def Operation.Short : Operation → Prop
  | .edit _ delta => -(Tracker.rowListLimit : Int) < delta
  | _ => True

namespace Tracker

structure Exact (tracker : Tracker) : Prop where
  removed : ∀ row, tracker.removedBefore row ≤ row
  anchored : ∀ (index : Nat) (ghost : Ghost),
    tracker.ghosts[index]? = some ghost → index ≤ ghost.row
  moved : ∀ line count row,
    RowShift.deletedBefore ((List.range' line count).map tracker.viewRow) row ≤ row
  lost : ∀ line count, ∀ range ∈ tracker.added,
    let rows := (List.range' line count).map tracker.viewRow
    RowShift.deletedBefore rows range.start ≤ RowShift.deletedBefore rows range.stop ∧
      RowShift.deletedBefore rows range.stop ≤
        RowShift.deletedBefore rows range.start + range.count

theorem index_le_row {ghosts : List Ghost} (ascending : Ascending ghosts) {low index : Nat}
    (above : ∀ ghost ∈ ghosts, low ≤ ghost.row) {ghost : Ghost}
    (found : ghosts[index]? = some ghost) : low + index ≤ ghost.row := by
  induction ghosts generalizing low index with
  | nil => simp at found
  | cons first rest ih =>
      rcases List.pairwise_cons.mp ascending with ⟨order, later⟩
      have here := above first List.mem_cons_self
      cases index with
      | zero =>
          rw [List.getElem?_cons_zero, Option.some.injEq] at found
          rw [← found]
          exact here
      | succ index =>
          rw [List.getElem?_cons_succ] at found
          have next : ∀ other ∈ rest, low + 1 ≤ other.row := by
            intro other member
            have below := order other member
            omega
          have place := ih later next found
          omega

end Tracker

namespace Session

variable {session : Session} {draft : List Passage} {buffer : Buffer}

/-- The tracked rows and the blocks are valid and fit together: the rows of a block are its ghosts
followed by one added range, and every tracked row belongs to one block. -/
structure Sound (session : Session) : Prop where
  tracker : session.tracker.checked = .ok session.tracker
  registry : session.registry.check = .ok ()
  starts : (session.registry.blocks.map Block.start).Pairwise (· < ·)
  ids : (session.registry.blocks.map Block.id).Nodup
  ghosts : session.tracker.ghosts.map Ghost.row =
    session.registry.blocks.flatMap fun block => List.range' block.start block.red
  added : session.tracker.added = session.registry.blocks.flatMap fun block =>
    if block.green = 0 then [] else [⟨block.start + block.red, block.green⟩]
  ghostOwner : ∀ ghost ∈ session.tracker.ghosts, ∃! block, block ∈ session.registry.blocks ∧
    block.start ≤ ghost.row ∧ ghost.row < block.start + block.red
  rangeOwner : ∀ range ∈ session.tracker.added, ∃! block, block ∈ session.registry.blocks ∧
    range = ⟨block.start + block.red, block.green⟩
  arithmetic : session.tracker.Exact

theorem Tracks.tiled (tracks : session.Tracks draft) :
    Tiled session.tracker session.registry.blocks := by
  rw [tracks.tracker, tracks.blocks]
  exact Draft.tiled draft

theorem Tracks.exact (tracks : session.Tracks draft) : session.tracker.Exact := by
  have found := tracks.ghosts
  have ascending := Draft.ascending_of_eq found
  have passed (line count row : Nat) :=
    @Draft.deletedBefore_rows session.tracker draft line count found row
  refine ⟨Tracker.removedBefore_le ascending, ?_, ?_, ?_⟩
  · intro index ghost place
    have order := @Tracker.index_le_row _ ascending 0 index (by simp) _ place
    omega
  · intro line count row
    have below : session.tracker.bufferLine row ≤ row := Nat.sub_le _ _
    rw [passed, Draft.gone]
    omega
  · intro line count range member
    rw [tracks.tracker] at member
    rcases List.mem_flatMap.mp member with ⟨block, present, inside⟩
    rcases Draft.mem_blocks_divided present with ⟨front, id, removed, added, back, rfl, rfl⟩
    unfold Block.addedRanges at inside
    split at inside
    · simp at inside
    · rw [List.mem_singleton.mp inside]
      have middle := Draft.bufferLine_ghost found (Nat.le_refl removed.length)
      have stop := Draft.bufferLine_green found (Nat.le_refl added.length)
      rw [← Nat.add_assoc] at stop
      simp only [AddedRange.stop, Nat.zero_add, passed, middle, stop, Draft.gone]
      omega

theorem Tracks.sound (tracks : session.Tracks draft) : session.Sound := by
  have tiled := tracks.tiled
  have filled : ∀ block ∈ session.registry.blocks, 0 < block.red + block.green := by
    rw [tracks.blocks]
    exact tracks.filled.blocks 0
  have fits : ∀ block ∈ session.registry.blocks, block.span.stop < rowLimit :=
    fun block member => tiled.stop_lt tracks.fits member (filled block member)
  refine ⟨?_, ?_, ?_, ?_, tiled.ghosts, tiled.added, ?_, ?_, tracks.exact⟩
  · rw [tiled.checked_eq, if_pos tracks.fits]
  · exact Registry.check_eq filled tiled.apart fits
  · exact Registry.starts_ascending filled tiled.apart
  · rw [tracks.blocks, Draft.map_id_blocks]
    exact tracks.distinct
  · intro ghost member
    have tracked : ghost.row ∈ session.registry.blocks.flatMap Block.ghostRows := by
      rw [← tiled.ghosts]
      exact List.mem_map_of_mem member
    rcases List.mem_flatMap.mp tracked with ⟨block, present, inside⟩
    have bounds := List.mem_range'_1.mp inside
    refine ⟨block, ⟨present, bounds⟩, ?_⟩
    -- Blocks are apart, so a row is a ghost of one of them only.
    rintro other ⟨known, low, high⟩
    apply Tiled.eq_of_row tiled.apart known present
    · simp only [Block.span, Span.stop]
      exact ⟨low, Nat.lt_of_lt_of_le high (Nat.le_add_right _ _)⟩
    · simp only [Block.span, Span.stop]
      exact ⟨bounds.1, Nat.lt_of_lt_of_le bounds.2 (Nat.le_add_right _ _)⟩
  · intro range member
    rw [tiled.added] at member
    rcases List.mem_flatMap.mp member with ⟨block, present, inside⟩
    unfold Block.addedRanges at inside
    split at inside
    · simp at inside
    · rename_i green
      have same := List.mem_singleton.mp inside
      refine ⟨block, ⟨present, same⟩, ?_⟩
      rintro other ⟨known, again⟩
      rw [same, AddedRange.mk.injEq] at again
      have row : block.start + block.red < block.span.stop := by
        simp only [Block.span, Span.stop]
        omega
      apply Tiled.eq_of_row tiled.apart known present _ ⟨Nat.le_add_right _ _, row⟩
      simp only [Block.span, Span.stop]
      omega

/-- The row numbers that an operation computes are below the limit. For an edit these are the row
where lines go in, the rows that show deleted lines, and all tracked rows after it. -/
def RowsFit (session : Session) : Operation → Prop
  | .line _ => session.running = true → session.state = .streaming → session.cursor + 1 < rowLimit
  | .edit line delta => session.listening = true →
      (0 < delta → session.tracker.anchorRow line < rowLimit ∧
        let shift := RowShift.inserted (session.tracker.anchorRow line) delta.toNat
        ((session.tracker.grown shift).moved shift).fits = true) ∧
      (delta < 0 → line + delta.natAbs < rowLimit ∧
        ∀ deleted ∈ List.range' line delta.natAbs, session.tracker.viewRow deleted < rowLimit)
  | _ => True

theorem Streams.applyLine_ok (streams : session.Streams draft) (line : DiffLine)
    (small : session.cursor + 1 < rowLimit) : ∃ turn, session.applyLine buffer line = .ok turn := by
  have fits (removed added : List String) (single : removed.length + added.length = 1) :
      (Draft.tracker (Draft.extend session.fresh removed added draft)).fits = true := by
    apply Draft.fits_of_size
    rw [Draft.size_extend, streams.width, single]
    exact small
  unfold Session.applyLine
  split
  · simp only
    split
    · by_cases present : session.tracker.bufferLine session.cursor < buffer.lineCount
      · exact ⟨_, streams.applySame present line.text ""⟩
      · exact ⟨_, by rw [Session.applySame, if_neg present]⟩
    · by_cases present : session.tracker.bufferLine session.cursor < buffer.lineCount
      · have found := List.getElem?_eq_getElem present
        exact ⟨_, (streams.applyRemoved found).mpr ⟨fits _ [] rfl, rfl⟩⟩
      · exact ⟨_, by rw [Session.applyRemoved, if_neg present]⟩
    · by_cases place : session.tracker.bufferLine session.cursor ≤ buffer.lineCount
      · exact ⟨_, (streams.applyAdded place line.text).mpr ⟨fits [] [line.text] rfl, rfl⟩⟩
      · exact ⟨_, by rw [Session.applyAdded, Buffer.insert, if_neg place]⟩
  · exact ⟨_, rfl⟩

theorem Tracks.applyEdit_ok (tracks : session.Tracks draft) {line : Nat} {delta : Int}
    (small : session.RowsFit (.edit line delta)) (short : (Operation.edit line delta).Short) :
    ∃ turn, session.applyEdit buffer line delta = .ok turn := by
  by_cases listens : session.listening = true
  · rcases small listens with ⟨inserts, deletes⟩
    have width : (List.replicate delta.toNat "").length = delta.toNat := List.length_replicate
    rcases Int.lt_trichotomy delta 0 with negative | still | positive
    · rcases deletes negative with ⟨stop, shown⟩
      refine ⟨_, (tracks.applyEdit listens (Int.ne_of_lt negative) width).mpr
        ⟨⟨_, (Tracker.shiftOf_deleted negative).mpr ⟨⟨stop, ?_, shown⟩, rfl⟩⟩, ?_, rfl⟩⟩
      · simp only [Operation.Short] at short
        omega
      · rw [Draft.edited, if_neg (by omega)]
        exact tracks.fits_deleted line delta.natAbs
    · exact ⟨_, applyEdit_still listens still⟩
    · rcases inserts positive with ⟨place, fits⟩
      have shifted := (Tracker.shiftOf_inserted positive).mpr ⟨place, rfl⟩
      have moved := (tracks.shifted (Int.ne_of_gt positive) width shifted).1
      simp only [moved] at fits
      exact ⟨_, (tracks.applyEdit listens (Int.ne_of_gt positive) width).mpr
        ⟨⟨_, shifted⟩, fits, rfl⟩⟩
  · exact ⟨_, by rw [Session.applyEdit, if_neg listens]⟩

theorem Coherent.performs (coherent : session.Coherent) {operation : Operation}
    (small : session.RowsFit operation) (short : operation.Short) :
    ∃ next after, session.perform buffer operation = .ok (next, after) := by
  rcases coherent.tracks with ⟨draft, tracks⟩
  cases operation with
  | begin =>
      simp only [Session.perform]
      split <;> exact ⟨_, _, rfl⟩
  | line line =>
      have applies : ∃ turn, session.applyLine buffer line = .ok turn := by
        by_cases active : session.running = true ∧ session.state = .streaming
        · rcases coherent.under_way active.2 with ⟨_, streams, _⟩
          exact streams.applyLine_ok line (small active.1 active.2)
        · exact ⟨_, by rw [applyLine, if_neg active]⟩
      rcases applies with ⟨turn, applied⟩
      exact ⟨turn.session, turn.buffer, by simp only [Session.perform, applied]; rfl⟩
  | finish => exact ⟨_, _, rfl⟩
  | take => exact ⟨_, _, rfl⟩
  | resolve id accept =>
      rcases coherent.resolves buffer id accept with ⟨turn, resolved, _⟩
      exact ⟨turn.session, turn.buffer, by simp only [Session.perform, resolved]; rfl⟩
  | clear accept =>
      have clears : ∃ turn, session.clear buffer accept = .ok turn := by
        cases accept with
        | true => exact ⟨_, clear_accept session buffer⟩
        | false =>
            rcases tracks.clear_reject buffer with ⟨error, refused⟩ | closed
            · exact ⟨_, refused⟩
            · exact ⟨_, closed⟩
      rcases clears with ⟨turn, cleared⟩
      exact ⟨turn.session, turn.buffer, by simp only [Session.perform, cleared]; rfl⟩
  | discard => exact ⟨_, _, rfl⟩
  | edit line delta =>
      obtain ⟨turn, applied⟩ :=
        @Tracks.applyEdit_ok session draft buffer tracks line delta small short
      exact ⟨turn.session, turn.buffer, by simp only [Session.perform, applied]; rfl⟩

/-- A report of 2^60 deleted lines is abandoned, though all rows it computes are far below the
limit. -/
theorem oneChange_capacity : ¬∀ session buffer, Reachable session buffer → ∀ operation,
    session.RowsFit operation →
      ∃ next after, session.perform buffer operation = .ok (next, after) := by
  intro never
  have small : oneChange.RowsFit (.edit 0 (-1152921504606846976)) := by
    intro _
    refine ⟨fun positive => by omega, fun _ => ⟨by decide, ?_⟩⟩
    intro deleted member
    have bounds := List.mem_range'_1.mp member
    have reach := Tracker.stepOver_le deleted oneChange.tracker.ghosts
    simp only [oneChange, List.length_singleton] at reach
    simp only [Tracker.viewRow, oneChange, rowLimit]
    omega
  rcases never oneChange ⟨["x", "b"]⟩ oneChange_reachable _ small with ⟨next, after, performed⟩
  have abandoned : oneChange.perform ⟨["x", "b"]⟩ (.edit 0 (-1152921504606846976)) =
      .error .capacityOverflow := by
    rfl
  rw [abandoned] at performed
  simp at performed

/-- No sequence of operations corrupts a session, and none is abandoned while row numbers stay
below the limit. -/
theorem Reachable.stays_sound (reachable : Reachable session buffer) :
    session.Sound ∧ ∀ operation, session.RowsFit operation → operation.Short →
      ∃ next after, session.perform buffer operation = .ok (next, after) ∧ next.Sound := by
  have coherent := reachable.coherent
  rcases coherent.tracks with ⟨draft, tracks⟩
  refine ⟨tracks.sound, ?_⟩
  intro operation small short
  rcases coherent.performs small short with ⟨next, after, performed⟩
  rcases (coherent.perform performed).tracks with ⟨later, tracks⟩
  exact ⟨next, after, performed, tracks.sound⟩

/-- The host deleted the added line, which leaves the block its ghost. -/
theorem oneChange_stays_sound : oneChange.Sound ∧ ∃ next after,
    oneChange.perform ⟨["b"]⟩ (.edit 0 (-1)) = .ok (next, after) ∧ next.Sound := by
  have reachable : Reachable oneChange ⟨["b"]⟩ := oneChange_reachable.host ⟨["b"]⟩
  rcases reachable.stays_sound with ⟨sound, continues⟩
  refine ⟨sound, continues (.edit 0 (-1)) ?_ (by simp [Operation.Short, Tracker.rowListLimit])⟩
  intro _
  exact ⟨fun positive => by omega, fun _ => ⟨by decide, by decide⟩⟩

end Session

end Redline
