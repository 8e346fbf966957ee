import Redline.Proofs.Identity
import Redline.Proofs.Refinement

/-! Insertions that are taken back. Lines go in at the anchor of an edit and are deleted at the rows
that show them, which are two different walks over the ghosts; both name the same rows, so that
nothing is left of an insertion once the same lines were deleted. -/

namespace Redline

namespace RowShift

variable {first count : Nat}

theorem deletedBefore_range' (first count row : Nat) :
    deletedBefore (List.range' first count) row = min (first + count) row - min first row := by
  rw [deletedBefore_eq_countP List.pairwise_lt_range', Tracker.countP_lt_range']

theorem move_move (first count row : Nat) :
    (deleted (List.range' first count)).move ((inserted first count).move row) = row := by
  simp only [RowShift.move, deletedBefore_range']
  split <;> omega

end RowShift

theorem AddedRange.follow_follow {range : AddedRange} (filled : 0 < range.count)
    (first count : Nat) :
    (range.follow (.inserted first count)).follow (.deleted (List.range' first count)) = range := by
  have start : ((range.follow (.inserted first count)).follow
      (.deleted (List.range' first count))).start = range.start := by
    rw [start_follow, start_follow, RowShift.move_move]
  have stop : ((range.follow (.inserted first count)).follow
      (.deleted (List.range' first count))).stop = range.stop := by
    rw [stop_follow_deleted List.pairwise_lt_range', stop_follow_inserted filled, RowShift.move,
      RowShift.deletedBefore_range']
    split <;> omega
  have width := Nat.add_left_cancel (stop.trans (congrArg (· + range.count) start.symm))
  rw [AddedRange.mk.injEq]
  exact ⟨start, width⟩

namespace Tracker

variable {tracker : Tracker} {line count : Nat}

/-- The rows that an insertion computes, and those of its lines, are below the limit. -/
structure InsertFits (tracker : Tracker) (line count : Nat) : Prop where
  lines : line + count < rowLimit
  rows : tracker.anchorRow line + count ≤ rowLimit
  after : (tracker.followed (.inserted (tracker.anchorRow line) count)).fits = true

theorem InsertFits.inserts (fits : tracker.InsertFits line count) (some : 0 < count) :
    tracker.EditFits line count := by
  have rows := fits.rows
  refine ⟨fun _ => ⟨by omega, fits.after⟩, ?_⟩
  intro negative
  omega

theorem InsertFits.deletes (fits : tracker.InsertFits line count) (valid : tracker.Valid) :
    (tracker.followed (.inserted (tracker.anchorRow line) count)).EditFits line (-count) := by
  have rows := fits.rows
  refine ⟨by omega, fun _ => ?_⟩
  rw [Int.natAbs_neg, Int.natAbs_natCast]
  refine ⟨fits.lines, ?_⟩
  intro deleted member
  have bounds := List.mem_range'_1.mp member
  rcases Nat.exists_eq_add_of_le bounds.1 with ⟨index, rfl⟩
  rw [viewRow_fresh valid (by omega)]
  omega

theorem editShift_insert (some : 0 < count) :
    tracker.editShift line count = .inserted (tracker.anchorRow line) count := by
  rw [editShift, if_pos (by omega), Int.toNat_natCast]

/-- The inserted lines are deleted where they went in. -/
theorem editShift_delete (valid : tracker.Valid) (some : 0 < count) :
    (tracker.followed (.inserted (tracker.anchorRow line) count)).editShift line (-count) =
      .deleted (List.range' (tracker.anchorRow line) count) := by
  rw [editShift, if_neg (by omega), deletedRows, Int.neg_neg, Int.toNat_natCast]
  congr 1
  rw [List.range'_eq_map_range, List.range'_eq_map_range, List.map_map]
  apply List.map_congr_left
  intro index member
  exact viewRow_fresh valid (List.mem_range.mp member)

theorem added_inserted (valid : tracker.Valid) (first count : Nat) :
    (tracker.followed (.inserted first count)).added =
      tracker.added.map (AddedRange.follow (.inserted first count)) := by
  rw [followed, moved_grown, List.filter_eq_self]
  intro other member
  rcases List.mem_map.mp member with ⟨range, present, rfl⟩
  have filled := valid.filled range present
  have grows := range.le_follow first count
  rw [bne_iff_ne]
  omega

theorem followed_followed (valid : tracker.Valid) (first count : Nat) :
    (tracker.followed (.inserted first count)).followed (.deleted (List.range' first count)) =
      tracker := by
  have added : ((tracker.followed (.inserted first count)).followed
      (.deleted (List.range' first count))).added = tracker.added := by
    have same : tracker.added.map (AddedRange.follow (.deleted (List.range' first count)) ∘
        AddedRange.follow (.inserted first count)) = tracker.added := by
      rw [List.map_congr_left (g := id), List.map_id]
      intro range member
      exact AddedRange.follow_follow (valid.filled range member) first count
    rw [followed, moved_grown, added_inserted valid, List.map_map, same, List.filter_eq_self]
    intro range member
    exact bne_iff_ne.mpr (Nat.ne_of_gt (valid.filled range member))
  have ghosts : ((tracker.followed (.inserted first count)).followed
      (.deleted (List.range' first count))).ghosts = tracker.ghosts := by
    rw [ghosts_followed, ghosts_followed, List.map_map, List.map_congr_left (g := id), List.map_id]
    intro ghost _
    simp only [Function.comp_apply, RowShift.move_move, id]
  rw [Tracker.mk.injEq]
  exact ⟨added, ghosts⟩

/-- The second shift takes every row back to where it was before the first. -/
theorem insert_delete (checked : tracker.checked = .ok tracker) (some : 0 < count)
    (fits : tracker.InsertFits line count) (short : count < rowListLimit) :
    ∃ first middle second, tracker.applyEdit line count = .ok (first, middle) ∧
      middle.applyEdit line (-count) = .ok (second, tracker) ∧
        ∀ row < rowLimit, first.apply row = Row.fit (first.move row) ∧
          second.apply (first.move row) = .ok row := by
  have valid := (checked_eq_ok.mp checked).2
  have first := applyEdit_eq checked (fits.inserts some) (by omega) (by omega)
  have passed : (tracker.followed (.inserted (tracker.anchorRow line) count)).checked =
      .ok (tracker.followed (.inserted (tracker.anchorRow line) count)) :=
    checked_eq_ok.mpr ⟨fits.after, valid_inserted valid _ count⟩
  have second := applyEdit_eq passed (fits.deletes valid) (by omega) (by omega)
  rw [editShift_insert some] at first
  rw [editShift_delete valid some, followed_followed valid] at second
  refine ⟨_, _, _, first, second, ?_⟩
  intro row small
  constructor
  · have applies := apply_editShift tracker line count small
    rwa [editShift_insert some] at applies
  · have within := RowShift.deletedBefore_le (List.pairwise_lt_range' (s := tracker.anchorRow line)
      (n := count)) ((RowShift.inserted (tracker.anchorRow line) count).move row)
    have back := RowShift.move_move (tracker.anchorRow line) count row
    rw [RowShift.apply, Row.sub_eq within]
    exact congrArg Except.ok back

end Tracker

namespace Draft

variable {draft : List Passage} {texts : List String} {line : Nat}

theorem deleteLines_self (filled : Filled draft) (line : Nat) :
    deleteLines line line draft = draft := by
  induction draft generalizing line with
  | nil => rfl
  | cons passage rest ih =>
      rcases List.forall_mem_cons.mp filled with ⟨first, later⟩
      cases passage with
      | kept text => rw [deleteLines, if_neg (by omega), ih later]
      | change id removed added =>
          have whole : removed.length + added.length ≠ 0 := Nat.ne_of_gt first
          simp only [deleteLines, List.take_append_drop, ih later, if_neg whole]

theorem deleteLines_kept (texts : List String) (filled : Filled draft) :
    deleteLines 0 texts.length (texts.map .kept ++ draft) = draft := by
  induction texts with
  | nil => exact deleteLines_self filled 0
  | cons text rest ih =>
      rw [List.map_cons, List.cons_append, List.length_cons, deleteLines,
        if_pos ⟨rfl, Nat.succ_pos _⟩]
      exact ih

/-- Deleting inserted lines leaves the draft as it was, if it reaches down to them. -/
theorem deleteLines_insertAt (filled : Filled draft) (reach : line ≤ (lines draft).length) :
    deleteLines line (line + texts.length) (insertAt texts line draft) = draft := by
  -- The deletion meets the passages in the order in which the insertion passed them.
  induction line, draft using insertAt.induct with
  | case1 draft =>
      rw [insertAt, Nat.zero_add]
      exact deleteLines_kept texts filled
  | case2 line => simp at reach
  | case3 line text rest ih =>
      rcases List.forall_mem_cons.mp filled with ⟨_, later⟩
      have inside : line ≤ (lines rest).length := by
        simpa [Passage.lines] using reach
      have below : line + 1 + texts.length - 1 = line + texts.length := by omega
      rw [insertAt, Nat.succ_eq_add_one, deleteLines, if_neg (by omega), Nat.add_sub_cancel, below,
        ih later inside]
  | case4 line id removed added rest inside =>
      rcases List.forall_mem_cons.mp filled with ⟨_, later⟩
      have front : (added.take (line + 1)).length = line + 1 := by
        rw [List.length_take]
        omega
      have width : (added.take (line + 1) ++ texts ++ added.drop (line + 1)).length =
          added.length + texts.length := by
        simp only [List.length_append, List.length_take, List.length_drop]
        omega
      have left : (added.take (line + 1) ++ texts ++ added.drop (line + 1)).take (line + 1) ++
          (added.take (line + 1) ++ texts ++ added.drop (line + 1)).drop
            (line + 1 + texts.length) = added := by
        have both : (added.take (line + 1) ++ texts).length = line + 1 + texts.length := by
          rw [List.length_append, front]
        rw [List.drop_left' both, List.append_assoc, List.take_left' front,
          List.take_append_drop]
      have whole : removed.length + added.length ≠ 0 := by omega
      have low : line + 1 - (added.length + texts.length) = 0 := by omega
      have high : line + 1 + texts.length - (added.length + texts.length) = 0 := by omega
      rw [insertAt, if_pos inside]
      simp only [deleteLines, left, width, low, high, deleteLines_self later, if_neg whole]
  | case5 line id removed added rest outside ih =>
      rcases List.forall_mem_cons.mp filled with ⟨first, later⟩
      have whole : removed.length + added.length ≠ 0 := Nat.ne_of_gt first
      have inside : line + 1 - added.length ≤ (lines rest).length := by
        simp only [lines_cons, Passage.lines, List.length_append] at reach
        omega
      have below : line + 1 + texts.length - added.length =
          line + 1 - added.length + texts.length := by omega
      have left : added.take (line + 1) ++ added.drop (line + 1 + texts.length) = added := by
        rw [List.take_of_length_le (by omega), List.drop_eq_nil_of_le (by omega), List.append_nil]
      rw [insertAt, if_neg outside]
      simp only [deleteLines, left, below, ih later inside, if_neg whole]

end Draft

namespace Session

variable {session : Session} {draft : List Passage} {buffer : Buffer} {line : Nat}
  {texts : List String}

theorem Tracks.perform_edit (tracks : session.Tracks draft) (listens : session.listening = true)
    (buffer : Buffer) {delta : Int} (edited : delta ≠ 0)
    (fits : session.tracker.EditFits line delta) (short : -(Tracker.rowListLimit : Int) < delta)
    (width : texts.length = delta.toNat)
    (busy : Draft.ids (Draft.edited line delta texts draft) ≠ []) :
    let next := session.redraft (Draft.edited line delta texts draft)
    next.Tracks (Draft.edited line delta texts draft) ∧
      session.perform buffer (.edit line delta) = .ok (next, buffer) := by
  rcases tracks.edits listens buffer edited fits short width with ⟨later, applied⟩
  refine ⟨later, ?_⟩
  rw [perform, applied, ok_bind, later.concluded_busy busy]
  rfl

theorem Tracks.insert_delete (tracks : session.Tracks draft) (listens : session.listening = true)
    (busy : Draft.ids draft ≠ []) (reach : line ≤ (Draft.lines draft).length)
    (inside : line ≤ buffer.lineCount) (some : texts ≠ [])
    (fits : session.tracker.InsertFits line texts.length)
    (short : texts.length < Tracker.rowListLimit) :
    session.reviseAll buffer [.insert line texts, .delete line texts.length] =
      .ok (session, buffer) := by
  have positive : 0 < texts.length := List.length_pos_iff.mpr some
  have valid := (Tracker.checked_eq_ok.mp tracks.sound.tracker).2
  rcases Buffer.delete_insert texts inside with ⟨middle, inserted, deleted⟩
  have grown : Draft.edited line texts.length texts draft = Draft.insertAt texts line draft :=
    if_pos (by omega)
  rcases tracks.perform_edit listens middle (by omega) (fits.inserts positive) (by omega)
    (Int.toNat_natCast _).symm (by rwa [grown, Draft.ids_insertAt]) with ⟨later, first⟩
  rw [grown] at later first
  have moved : (session.redraft (Draft.insertAt texts line draft)).tracker =
      session.tracker.followed (.inserted (session.tracker.anchorRow line) texts.length) :=
    (tracks.insert line texts).1.symm
  have back : Draft.edited line (-texts.length) [] (Draft.insertAt texts line draft) = draft := by
    rw [Draft.edited, if_neg (by omega), Int.natAbs_neg, Int.natAbs_natCast]
    exact Draft.deleteLines_insertAt tracks.filled reach
  have deletes : (session.redraft (Draft.insertAt texts line draft)).tracker.EditFits line
      (-texts.length) := by
    rw [moved]
    exact fits.deletes valid
  have none : ([] : List String).length = (-(texts.length : Int)).toNat := by simp
  rcases later.perform_edit listens buffer (by omega) deletes (by omega) none (by rwa [back]) with
    ⟨_, second⟩
  rw [back] at second
  simp only [reviseAll, revise, inserted, deleted, first, second, ok_bind]
  exact congrArg (fun same => Except.ok (same, buffer)) tracks.redraft_eq

theorem Reachable.insert_delete (reachable : Reachable session buffer)
    (state : session.state = .reviewing) (inside : line ≤ buffer.lineCount) (some : texts ≠ [])
    (fits : session.tracker.InsertFits line texts.length)
    (short : texts.length < Tracker.rowListLimit) :
    session.reviseAll buffer [.insert line texts, .delete line texts.length] =
      .ok (session, buffer) := by
  rcases reachable.coherent.under_review state with ⟨draft, tracks, listens, busy⟩
  -- The draft may end above the line, but what follows it is kept in any case.
  have longer := tracks.extend_kept (List.replicate line "")
  refine longer.insert_delete listens ?_ ?_ inside some fits short
  · rwa [Draft.ids_append, Draft.ids_kept, List.append_nil]
  · rw [Draft.lines_append, Draft.lines_kept, List.length_append, List.length_replicate]
    exact Nat.le_add_left _ _

/-- Lines that are inserted and then deleted leave nothing behind, neither in a session under review
nor in any other tracker. -/
theorem insertion_undone :
    (∀ session buffer, Reachable session buffer → session.state = .reviewing →
      ∀ (line : Nat) (texts : List String), line ≤ buffer.lineCount → texts ≠ [] →
        session.tracker.InsertFits line texts.length → texts.length < Tracker.rowListLimit →
          session.reviseAll buffer [.insert line texts, .delete line texts.length] =
            .ok (session, buffer)) ∧
    ∀ (tracker : Tracker) (line count : Nat), tracker.checked = .ok tracker → 0 < count →
      tracker.InsertFits line count → count < Tracker.rowListLimit →
        ∃ first middle second, tracker.applyEdit line count = .ok (first, middle) ∧
          middle.applyEdit line (-count) = .ok (second, tracker) ∧
            ∀ row < rowLimit, first.apply row = Row.fit (first.move row) ∧
              second.apply (first.move row) = .ok row :=
  ⟨fun _ _ reachable state _ _ inside some fits short =>
      reachable.insert_delete state inside some fits short,
    fun _ _ _ checked some fits short => Tracker.insert_delete checked some fits short⟩

/-- Two lines come and go above a ghost, and two between the lines of a range. -/
theorem twoChanges_insertion_undone :
    twoChanges.reviseAll ⟨["x", "a", "y"]⟩ [.insert 2 ["p", "q"], .delete 2 2] =
        .ok (twoChanges, ⟨["x", "a", "y"]⟩) ∧
      ∃ first middle second, Tracker.twoReplaced.applyEdit 2 2 = .ok (first, middle) ∧
        middle.added = [⟨3, 4⟩] ∧
          middle.applyEdit 2 (-2) = .ok (second, Tracker.twoReplaced) := by
  constructor
  · exact insertion_undone.1 twoChanges _ twoChanges_reachable rfl 2 ["p", "q"] (by decide)
      (by decide) ⟨by decide, by decide, by decide⟩ (by decide)
  · rcases insertion_undone.2 Tracker.twoReplaced 2 2 (by decide) (by decide)
      ⟨by decide, by decide, by decide⟩ (by decide) with
      ⟨first, middle, second, inserted, deleted, _⟩
    have grown : Tracker.twoReplaced.applyEdit 2 2 =
        .ok (.inserted 4 2, ⟨[⟨3, 4⟩], Tracker.twoReplaced.ghosts⟩) := rfl
    have same := (Prod.mk.inj (Except.ok.inj (grown.symm.trans inserted))).2
    subst same
    exact ⟨first, _, second, inserted, rfl, deleted⟩

/-- Of 2^60 lines that were reported as inserted, the deletion is abandoned. -/
theorem twoReplaced_undone_capacity : ¬∀ (tracker : Tracker) (line count : Nat),
    tracker.checked = .ok tracker → 0 < count → tracker.InsertFits line count →
      ∃ first middle second, tracker.applyEdit line count = .ok (first, middle) ∧
        middle.applyEdit line (-count) = .ok (second, tracker) := by
  intro always
  rcases always Tracker.twoReplaced 0 1152921504606846976 (by decide) (by decide)
    ⟨by decide, by decide, by decide⟩ with ⟨first, middle, second, inserted, deleted⟩
  have abandoned : middle.applyEdit 0 (-1152921504606846976) = .error .capacityOverflow := rfl
  have deleted : middle.applyEdit 0 (-1152921504606846976) =
    .ok (second, Tracker.twoReplaced) := deleted
  rw [abandoned] at deleted
  simp at deleted

end Session

end Redline
