import Redline.Proofs.Following
import Redline.Proofs.Settling

namespace Redline

def Passage.removed : Passage → List String
  | kept _ => []
  | change _ removed _ => removed

namespace Draft

variable {tracker : Tracker} {draft front back : List Passage} {id : BlockId}
  {removed added texts : List String} {line count : Nat}

/-- Inserts lines right below the first `line` lines. A change takes them in if they come between
two of its added lines. -/
def insertAt (texts : List String) : Nat → List Passage → List Passage
  | 0, draft => texts.map .kept ++ draft
  | _ + 1, [] => texts.map .kept
  | line + 1, .kept text :: rest => .kept text :: insertAt texts line rest
  | line + 1, .change id removed added :: rest =>
      if line + 1 < added.length then
        .change id removed (added.take (line + 1) ++ texts ++ added.drop (line + 1)) :: rest
      else .change id removed added :: insertAt texts (line + 1 - added.length) rest

/-- Deletes lines `low..high`. A change is dropped with the last line it removed or added. -/
def deleteLines : Nat → Nat → List Passage → List Passage
  | _, _, [] => []
  | low, high, .kept text :: rest =>
      if low = 0 ∧ 0 < high then deleteLines 0 (high - 1) rest
      else .kept text :: deleteLines (low - 1) (high - 1) rest
  | low, high, .change id removed added :: rest =>
      let left := added.take low ++ added.drop high
      let later := deleteLines (low - added.length) (high - added.length) rest
      if removed.length + left.length = 0 then later else .change id removed left :: later

/-- The draft after a reported edit at line `line`, where `texts` are the inserted lines. -/
def edited (line : Nat) (delta : Int) (texts : List String) (draft : List Passage) :
    List Passage :=
  if 0 < delta then insertAt texts line draft
  else deleteLines line (line + delta.natAbs) draft

/-! ## Places inside a change -/

theorem mem_blocks_divided {row : Nat} {block : Block} (member : block ∈ blocks row draft) :
    ∃ front id removed added back, draft = front ++ .change id removed added :: back ∧
      block = ⟨id, row + size front, removed.length, added.length⟩ := by
  induction draft generalizing row with
  | nil => simp [blocks] at member
  | cons passage rest ih =>
      cases passage with
      | kept text =>
          rcases ih member with ⟨front, id, removed, added, back, rfl, same⟩
          refine ⟨.kept text :: front, id, removed, added, back, rfl, ?_⟩
          rw [same, size_cons, Passage.size, Nat.add_assoc]
      | change id removed added =>
          rcases List.mem_cons.mp member with first | member
          · exact ⟨[], id, removed, added, rest, rfl, first⟩
          · rcases ih member with ⟨front, other, taken, put, back, rfl, same⟩
            refine ⟨.change id removed added :: front, other, taken, put, back, rfl, ?_⟩
            rw [same, size_cons, Passage.size, Nat.add_assoc]

theorem ghosts_removed_removed (row : Nat) (id : BlockId) (taken removed added : List String) :
    ghosts row (front ++ .change id (taken ++ removed) added :: back) =
      ghosts row ((front ++ [.change id taken []]) ++ .change id removed added :: back) := by
  simp [ghosts_append, ghosts, ghostRows_append, Nat.add_assoc]

theorem ghosts_added_added (row : Nat) (id : BlockId) (put added : List String) :
    ghosts row (front ++ .change id removed (put ++ added) :: back) =
      ghosts row ((front ++ [.change id removed put]) ++ .change id [] added :: back) := by
  simp [ghosts_append, ghosts, Tracker.ghostRows, Nat.add_assoc]

theorem bufferLine_ghost
    (found : tracker.ghosts = ghosts 0 (front ++ .change id removed added :: back))
    {index : Nat} (inside : index ≤ removed.length) :
    tracker.bufferLine (size front + index) = (lines front).length := by
  rw [← List.take_append_drop index removed, ghosts_removed_removed] at found
  have place := bufferLine_divided found
  simpa [Passage.size, Passage.lines, inside] using place

theorem bufferLine_green
    (found : tracker.ghosts = ghosts 0 (front ++ .change id removed added :: back))
    {index : Nat} (inside : index ≤ added.length) :
    tracker.bufferLine (size front + (removed.length + index)) = (lines front).length + index := by
  rw [← List.take_append_drop index added, ghosts_added_added] at found
  have place := bufferLine_divided found
  simpa [Passage.size, Passage.lines, inside] using place

theorem ascending_of_eq (found : tracker.ghosts = ghosts 0 draft) :
    Tracker.Ascending tracker.ghosts := by
  rw [found]
  exact ghosts_ascending draft

/-! ## Insertions -/

theorem move_inserted (found : tracker.ghosts = ghosts 0 draft) (row : Nat) :
    (RowShift.inserted (tracker.anchorRow line) count).move row =
      if line ≤ tracker.bufferLine row then row + count else row := by
  simp only [RowShift.move, Tracker.anchorRow_le_iff (ascending_of_eq found)]

theorem follow_inserted
    (found : tracker.ghosts = ghosts 0 (front ++ .change id removed added :: back)) :
    Block.follow (.inserted (tracker.anchorRow line) count)
        ⟨id, size front, removed.length, added.length⟩ =
      ⟨id, if line ≤ (lines front).length then size front + count else size front, removed.length,
        if (lines front).length < line ∧ line < (lines front).length + added.length then
          added.length + count else added.length⟩ := by
  have ascending := ascending_of_eq found
  have start := bufferLine_divided found
  have middle := bufferLine_ghost found (Nat.le_refl removed.length)
  have grows : (size front + removed.length < tracker.anchorRow line ∧
      tracker.anchorRow line < size front + removed.length + added.length) ↔
        ((lines front).length < line ∧ line < (lines front).length + added.length) := by
    have low := Tracker.anchorRow_le_iff ascending line (size front + removed.length)
    rw [middle] at low
    by_cases none : added.length = 0
    · omega
    · have last := bufferLine_green found (show added.length - 1 ≤ added.length by omega)
      have high := Tracker.anchorRow_le_iff ascending line
        (size front + (removed.length + (added.length - 1)))
      rw [last] at high
      omega
  have green := AddedRange.count_grow ⟨size front + removed.length, added.length⟩
    (tracker.anchorRow line) count
  simp only [AddedRange.stop] at green
  simp only [Block.follow, AddedRange.follow, green, move_inserted found, start, grows]

theorem rigid_inserted (found : tracker.ghosts = ghosts 0 draft) :
    ∀ block ∈ blocks 0 draft, block.Rigid (.inserted (tracker.anchorRow line) count) := by
  intro block member index inside
  rcases mem_blocks_divided member with ⟨front, id, removed, added, back, rfl, rfl⟩
  have first := bufferLine_ghost found (Nat.zero_le removed.length)
  have place := bufferLine_ghost found inside
  simp only [Nat.zero_add, Nat.add_zero] at first ⊢
  rw [move_inserted found, move_inserted found, first, place]
  split <;> omega

theorem blocks_behind (found : tracker.ghosts = ghosts 0 (front ++ back))
    (behind : line ≤ (lines front).length) :
    (blocks (size front) back).map (Block.follow (.inserted (tracker.anchorRow line) count)) =
      blocks (size front + count) back := by
  rw [blocks_add]
  apply List.map_congr_left
  intro block member
  rcases mem_blocks_divided member with ⟨above, id, removed, added, below, rfl, rfl⟩
  rw [← List.append_assoc] at found
  have followed := @follow_inserted _ _ _ id removed added line count found
  rw [size_append] at followed
  rw [followed, lines_append, List.length_append, if_pos (by omega), if_neg (by omega)]

theorem blocks_insertAt (found : tracker.ghosts = ghosts 0 (front ++ back))
    (above : (lines front).length ≤ line) :
    (blocks (size front) back).map
        (Block.follow (.inserted (tracker.anchorRow line) texts.length)) =
      blocks (size front) (insertAt texts (line - (lines front).length) back) := by
  -- The edit has passed `front`, to which each step adds one passage.
  induction back generalizing front with
  | nil =>
      cases line - (lines front).length <;> simp [insertAt, blocks]
  | cons passage rest ih =>
      have divided : front ++ passage :: rest = (front ++ [passage]) ++ rest := by simp
      cases ahead : line - (lines front).length with
      | zero =>
          have reached : line ≤ (lines front).length := by omega
          rw [blocks_behind found reached, insertAt, blocks_append, blocks_kept, size_kept]
          rfl
      | succ more =>
          cases passage with
          | kept text =>
              have later := ih (by rwa [← divided]) (by simp [Passage.lines]; omega)
              have fewer : line - (lines (front ++ [.kept text])).length = more := by
                simp [Passage.lines]
                omega
              rw [fewer] at later
              simpa [insertAt, blocks, Passage.size] using later
          | change id removed added =>
              have followed := @follow_inserted _ _ _ id removed added line texts.length found
              rw [if_neg (by omega)] at followed
              rw [blocks, List.map_cons, followed, insertAt]
              split
              · rename_i inside
                have behind := @blocks_behind _ (front ++ [.change id removed added]) rest line
                  texts.length (by rwa [← divided]) (by simp [Passage.lines]; omega)
                rw [size_append, size_cons, size_nil, Nat.add_zero, Passage.size] at behind
                have grown : (added.take (more + 1) ++ texts ++ added.drop (more + 1)).length =
                    added.length + texts.length := by
                  simp only [List.length_append, List.length_take, List.length_drop]
                  omega
                have place : size front + (removed.length + added.length) + texts.length =
                    size front + (removed.length + (added.length + texts.length)) := by omega
                rw [behind, if_pos (by omega), blocks, grown, place]
              · rename_i outside
                have later := @ih (front ++ [.change id removed added]) (by rwa [← divided])
                  (by simp [Passage.lines]; omega)
                have fewer : line - (lines (front ++ [.change id removed added])).length =
                    more + 1 - added.length := by
                  simp [Passage.lines]
                  omega
                rw [fewer, size_append, size_cons, size_nil, Nat.add_zero, Passage.size] at later
                rw [later, if_neg (by omega), blocks]

/-! ## Deletions -/

def gone (low high bound : Nat) : Nat := min high bound - min low bound

theorem deletedBefore_rows (found : tracker.ghosts = ghosts 0 draft) (row : Nat) :
    RowShift.deletedBefore ((List.range' line count).map tracker.viewRow) row =
      gone line (line + count) (tracker.bufferLine row) :=
  Tracker.deletedBefore_eq (ascending_of_eq found) line count row

theorem follow_deleted
    (found : tracker.ghosts = ghosts 0 (front ++ .change id removed added :: back)) :
    Block.follow (.deleted ((List.range' line count).map tracker.viewRow))
        ⟨id, size front, removed.length, added.length⟩ =
      ⟨id, size front - gone line (line + count) (lines front).length, removed.length,
        added.length - (gone line (line + count) ((lines front).length + added.length) -
          gone line (line + count) (lines front).length)⟩ := by
  have start := bufferLine_divided found
  have middle := bufferLine_ghost found (Nat.le_refl removed.length)
  have stop := bufferLine_green found (Nat.le_refl added.length)
  rw [← Nat.add_assoc] at stop
  simp only [Block.follow, AddedRange.follow, RowShift.move, RowShift.lost, AddedRange.stop,
    deletedBefore_rows found, start, middle, stop]

theorem rigid_deleted (found : tracker.ghosts = ghosts 0 draft) :
    ∀ block ∈ blocks 0 draft,
      block.Rigid (.deleted ((List.range' line count).map tracker.viewRow)) := by
  intro block member index inside
  rcases mem_blocks_divided member with ⟨front, id, removed, added, back, rfl, rfl⟩
  have first := bufferLine_ghost found (Nat.zero_le removed.length)
  have place := bufferLine_ghost found inside
  have total := length_lines_add 0 front
  simp only [Nat.zero_add, Nat.add_zero] at first ⊢
  simp only [RowShift.move, deletedBefore_rows found, first, place, gone]
  omega

theorem length_take_drop (added : List String) {low high : Nat} (order : low ≤ high) :
    (added.take low ++ added.drop high).length =
      added.length - (gone low high added.length) := by
  simp only [List.length_append, List.length_take, List.length_drop, gone]
  omega

theorem gone_le (low high bound : Nat) : gone low high bound ≤ bound :=
  Nat.le_trans (Nat.sub_le _ _) (Nat.min_le_right _ _)

theorem min_add_right (line bound count : Nat) :
    min line (bound + count) = min line bound + min (line - bound) count := by
  omega

theorem gone_add {low high : Nat} (order : low ≤ high) (bound count : Nat) :
    gone low high (bound + count) =
      gone low high bound + gone (low - bound) (high - bound) count := by
  have first : min low bound ≤ min high bound := by omega
  have second : min (low - bound) count ≤ min (high - bound) count := by omega
  rw [gone, gone, gone, min_add_right, min_add_right]
  generalize min high bound = stop at first ⊢
  generalize min (high - bound) count = later at second ⊢
  omega

theorem gone_one {low high : Nat} :
    gone low high 1 = if low = 0 ∧ 0 < high then 1 else 0 := by
  unfold gone
  split <;> omega

theorem blocks_deleteLines (found : tracker.ghosts = ghosts 0 (front ++ back)) :
    ((blocks (size front) back).map
        (Block.follow (.deleted ((List.range' line count).map tracker.viewRow)))).filter
          Block.keeps =
      blocks (size front - gone line (line + count) (lines front).length)
        (deleteLines (line - (lines front).length) (line + count - (lines front).length) back) := by
  have total := length_lines_add 0 front
  have above := gone_le line (line + count) (lines front).length
  -- The edit has passed `front`, and `gone` counts the lines that it has deleted there.
  induction back generalizing front with
  | nil => rfl
  | cons passage rest ih =>
      have divided : front ++ passage :: rest = (front ++ [passage]) ++ rest := by simp
      have later := @ih (front ++ [passage]) (by rwa [← divided]) (length_lines_add 0 _)
        (gone_le line (line + count) _)
      rw [size_append, size_cons, size_nil, Nat.add_zero, lines_append, List.length_append,
        lines_cons, lines_nil, List.append_nil, gone_add (Nat.le_add_right line count),
        Nat.sub_add_eq line, Nat.sub_add_eq (line + count)] at later
      cases passage with
      | kept text =>
          simp only [Passage.size, Passage.lines, List.length_singleton, gone_one] at later
          rw [blocks, later, deleteLines]
          split
          · rename_i deleted
            have row : size front + 1 - (gone line (line + count) (lines front).length + 1) =
                size front - gone line (line + count) (lines front).length := by
              omega
            rw [row, deleted.1]
          · have row : size front + 1 - (gone line (line + count) (lines front).length + 0) =
                size front - gone line (line + count) (lines front).length + 1 := by
              omega
            rw [row, blocks]
      | change id removed added =>
          simp only [Passage.size, Passage.lines] at later
          have order := Nat.sub_le_sub_right (Nat.le_add_right line count) (lines front).length
          have width := length_take_drop added order
          have within := gone_le (line - (lines front).length)
            (line + count - (lines front).length) added.length
          have followed := @follow_deleted _ _ _ id removed added line count found
          rw [gone_add (Nat.le_add_right line count), Nat.add_sub_cancel_left, ← width] at followed
          have row : size front + (removed.length + added.length) -
              (gone line (line + count) (lines front).length +
                gone (line - (lines front).length) (line + count - (lines front).length)
                  added.length) =
                size front - gone line (line + count) (lines front).length +
                  (removed.length + (added.take (line - (lines front).length) ++
                    added.drop (line + count - (lines front).length)).length) := by
            rw [width]
            omega
          rw [blocks, List.map_cons, followed, List.filter_cons, later, deleteLines, row]
          simp only [Block.keeps]
          by_cases empty : removed.length + (added.take (line - (lines front).length) ++
              added.drop (line + count - (lines front).length)).length = 0
          · simp only [empty, Nat.lt_irrefl, decide_false, Bool.false_eq_true, if_false, if_true,
              Nat.add_zero]
          · simp only [Nat.pos_of_ne_zero empty, decide_true, if_true, empty, if_false, blocks]

/-! ## What an edit leaves alone -/

theorem map_text_ghosts (row : Nat) (draft : List Passage) :
    (ghosts row draft).map Ghost.text = draft.flatMap Passage.removed := by
  induction draft generalizing row with
  | nil => rfl
  | cons passage rest ih =>
      cases passage with
      | kept text => exact ih (row + 1)
      | change id removed added => simp [ghosts, ih, map_text_ghostRows, Passage.removed]

theorem removed_kept (texts : List String) :
    (texts.map Passage.kept).flatMap Passage.removed = [] := by
  simp [Passage.removed]

theorem removed_insertAt (texts : List String) (line : Nat) (draft : List Passage) :
    (insertAt texts line draft).flatMap Passage.removed = draft.flatMap Passage.removed := by
  induction line, draft using insertAt.induct with
  | case1 draft => rw [insertAt, List.flatMap_append, removed_kept, List.nil_append]
  | case2 line => exact removed_kept texts
  | case3 line text rest ih => simpa [insertAt] using ih
  | case4 line id removed added rest inside => simp [insertAt, inside, Passage.removed]
  | case5 line id removed added rest outside ih => simp [insertAt, outside, ih]

theorem removed_deleteLines (low high : Nat) (draft : List Passage) :
    (deleteLines low high draft).flatMap Passage.removed = draft.flatMap Passage.removed := by
  induction draft generalizing low high with
  | nil => rfl
  | cons passage rest ih =>
      cases passage with
      | kept text =>
          rw [deleteLines]
          split <;> simp [ih, Passage.removed]
      | change id removed added =>
          simp only [deleteLines]
          split
          · rename_i empty
            have none : removed = [] := List.eq_nil_of_length_eq_zero (by omega)
            simp [ih, none, Passage.removed]
          · simp [ih, Passage.removed]

theorem ids_insertAt (texts : List String) (line : Nat) (draft : List Passage) :
    ids (insertAt texts line draft) = ids draft := by
  induction line, draft using insertAt.induct with
  | case1 draft => simp [insertAt]
  | case2 line => simp [insertAt]
  | case3 line text rest ih => simpa [insertAt] using ih
  | case4 line id removed added rest inside => simp [insertAt, inside]
  | case5 line id removed added rest outside ih => simpa [insertAt, outside] using ih

theorem ids_deleteLines (low high : Nat) (draft : List Passage) :
    (ids (deleteLines low high draft)).Sublist (ids draft) := by
  induction draft generalizing low high with
  | nil => exact List.Sublist.refl _
  | cons passage rest ih =>
      cases passage with
      | kept text =>
          rw [deleteLines]
          split
          · exact ih 0 (high - 1)
          · exact ih (low - 1) (high - 1)
      | change id removed added =>
          have later := ih (low - added.length) (high - added.length)
          simp only [deleteLines]
          split
          · exact later.cons id
          · exact later.cons_cons id

theorem ids_edited (line : Nat) (delta : Int) (texts : List String) (draft : List Passage) :
    (ids (edited line delta texts draft)).Sublist (ids draft) := by
  unfold edited
  split
  · rw [ids_insertAt]
  · exact ids_deleteLines line _ draft

theorem Filled.insertAt (filled : Filled draft) (texts : List String) (line : Nat) :
    Filled (Draft.insertAt texts line draft) := by
  induction line, draft using insertAt.induct with
  | case1 draft =>
      rw [Draft.insertAt]
      exact List.forall_mem_append.mpr ⟨filled_kept texts, filled⟩
  | case2 line => exact filled_kept texts
  | case3 line text rest ih =>
      rcases List.forall_mem_cons.mp filled with ⟨first, later⟩
      exact List.forall_mem_cons.mpr ⟨first, ih later⟩
  | case4 line id removed added rest inside =>
      rcases List.forall_mem_cons.mp filled with ⟨_, later⟩
      rw [Draft.insertAt, if_pos inside]
      refine List.forall_mem_cons.mpr ⟨?_, later⟩
      simp only [Passage.size, List.length_append, List.length_take, List.length_drop]
      omega
  | case5 line id removed added rest outside ih =>
      rcases List.forall_mem_cons.mp filled with ⟨first, later⟩
      rw [Draft.insertAt, if_neg outside]
      exact List.forall_mem_cons.mpr ⟨first, ih later⟩

theorem Filled.deleteLines (filled : Filled draft) (low high : Nat) :
    Filled (Draft.deleteLines low high draft) := by
  induction draft generalizing low high with
  | nil => exact filled
  | cons passage rest ih =>
      rcases List.forall_mem_cons.mp filled with ⟨first, later⟩
      cases passage with
      | kept text =>
          rw [Draft.deleteLines]
          split
          · exact ih later 0 (high - 1)
          · exact List.forall_mem_cons.mpr ⟨first, ih later _ _⟩
      | change id removed added =>
          simp only [Draft.deleteLines]
          split
          · exact ih later _ _
          · rename_i whole
            exact List.forall_mem_cons.mpr ⟨Nat.pos_of_ne_zero whole, ih later _ _⟩

theorem Filled.edited (filled : Filled draft) (line : Nat) (delta : Int) (texts : List String) :
    Filled (Draft.edited line delta texts draft) := by
  unfold Draft.edited
  split
  · exact filled.insertAt texts line
  · exact filled.deleteLines line _

end Draft

/-! ## The tracked rows -/

namespace Tracker

variable {tracker : Tracker} {line : Nat} {delta : Int} {shift : RowShift}

theorem shiftOf_inserted (positive : 0 < delta) : tracker.shiftOf line delta = .ok shift ↔
    tracker.anchorRow line < rowLimit ∧
      shift = .inserted (tracker.anchorRow line) delta.toNat := by
  rw [shiftOf, if_neg (by omega), if_pos positive, editAnchor, Row.fit]
  split
  · rename_i small
    simp only [ok_bind, small, true_and]
    exact ⟨fun same => (Except.ok.inj same).symm, fun same => by rw [same]; rfl⟩
  · rename_i large
    simp [large, bind, Except.bind]

theorem mapM_toViewLine {lines rows : List Nat} : lines.mapM tracker.toViewLine = .ok rows ↔
    (∀ line ∈ lines, tracker.viewRow line < rowLimit) ∧ rows = lines.map tracker.viewRow := by
  constructor
  · intro shown
    have shows : ∀ line ∈ lines, ∀ row, tracker.toViewLine line = .ok row →
        row = tracker.viewRow line := by
      intro line _ row shows
      rw [toViewLine, Row.fit] at shows
      split at shows
      · exact (Except.ok.inj shows).symm
      · simp at shows
    refine ⟨?_, eq_map_of_mapM shows shown⟩
    intro line member
    have results := eq_of_mapM shown
    have present : tracker.toViewLine line ∈ rows.map .ok := by
      rw [← results]
      exact List.mem_map_of_mem member
    rcases List.mem_map.mp present with ⟨row, _, shows⟩
    rw [toViewLine, Row.fit] at shows
    split at shows
    · assumption
    · simp at shows
  · rintro ⟨small, rfl⟩
    apply mapM_ok
    intro line member
    exact if_pos (small line member)

theorem shiftOf_deleted (negative : delta < 0) : tracker.shiftOf line delta = .ok shift ↔
    (line + delta.natAbs < rowLimit ∧ delta.natAbs < rowListLimit ∧
      ∀ deleted ∈ List.range' line delta.natAbs, tracker.viewRow deleted < rowLimit) ∧
      shift = .deleted ((List.range' line delta.natAbs).map tracker.viewRow) := by
  rw [shiftOf, if_neg (by omega), if_neg (by omega)]
  by_cases stop : line + delta.natAbs < rowLimit
  · rw [Row.add_eq stop, ok_bind, Nat.add_sub_cancel_left]
    by_cases short : delta.natAbs < rowListLimit
    · rw [if_neg (by omega)]
      simp only [bind_eq_ok, mapM_toViewLine, stop, short, true_and]
      constructor
      · rintro ⟨rows, ⟨small, rfl⟩, last⟩
        exact ⟨small, (Except.ok.inj last).symm⟩
      · rintro ⟨small, rfl⟩
        exact ⟨_, ⟨small, rfl⟩, rfl⟩
    · rw [if_pos (by omega)]
      simp [short, bind, Except.bind, throw, throwThe, MonadExceptOf.throw]
  · rw [Row.add, Row.fit, if_neg stop]
    simp [stop, bind, Except.bind]

end Tracker

namespace Session

variable {session : Session} {draft next : List Passage} {shift : RowShift}

theorem Tracks.stop_lt (tracks : session.Tracks draft) {block : Block}
    (member : block ∈ Draft.blocks 0 draft) : block.span.stop < rowLimit := by
  have fits := tracks.fits
  rw [tracks.tracker] at fits
  exact (Draft.tiled draft).stop_lt fits member (tracks.filled.blocks 0 block member)

theorem Tracks.follow (tracks : session.Tracks draft)
    (follows : ((Draft.blocks 0 draft).map (Block.follow shift)).filter Block.keeps =
      Draft.blocks 0 next)
    (known : ∀ block ∈ Draft.blocks 0 draft,
      Registry.survives shift block = .ok (block.follow shift).keeps)
    (applies : ∀ block ∈ Draft.blocks 0 draft, (block.follow shift).keeps = true →
      shift.apply block.start = .ok (shift.move block.start))
    (fits : (Draft.tracker next).fits = true) :
    ∃ registry, session.registry.remap shift = .ok registry ∧
      Session.sync { session with tracker := Draft.tracker next, registry } =
        .ok (session.redraft next) := by
  have whole : ∀ block ∈ Draft.blocks 0 next, 0 < block.red + block.green := by
    intro block member
    rw [← follows] at member
    exact of_decide_eq_true (List.mem_filter.mp member).2
  have remapped := @Registry.remap_eq session.registry shift (by rwa [tracks.blocks])
    (by rwa [tracks.blocks])
  refine ⟨_, remapped, ?_⟩
  have starts : ((session.registry.blocks.filter fun block => (block.follow shift).keeps).map
      fun block => { block with start := shift.move block.start }).map
        (fun block => (block.id, block.start)) =
      (Draft.blocks 0 next).map fun block => (block.id, block.start) := by
    rw [← follows, tracks.blocks, List.filter_map, List.map_map, List.map_map]
    rfl
  rw [Session.sync, Registry.sync_known (Draft.tiled next) whole fits starts]
  rfl

theorem Tracks.insert (tracks : session.Tracks draft) (line : Nat) (texts : List String) :
    let shift := RowShift.inserted (session.tracker.anchorRow line) texts.length
    let next := Draft.insertAt texts line draft
    (session.tracker.grown shift).moved shift = Draft.tracker next ∧
      ((Draft.tracker next).fits = true → ∃ registry, session.registry.remap shift = .ok registry ∧
        Session.sync { session with tracker := Draft.tracker next, registry } =
          .ok (session.redraft next)) := by
  have found := tracks.ghosts
  have mapped := @Draft.blocks_insertAt _ [] draft texts line found (Nat.zero_le line)
  have kept : ∀ block ∈ Draft.blocks 0 draft, (block.follow (.inserted
      (session.tracker.anchorRow line) texts.length)).keeps = true := by
    intro block member
    exact Registry.keeps_inserted (tracks.filled.blocks 0 block member)
  have follows : ((Draft.blocks 0 draft).map (Block.follow (.inserted
      (session.tracker.anchorRow line) texts.length))).filter Block.keeps =
        Draft.blocks 0 (Draft.insertAt texts line draft) := by
    rw [List.filter_eq_self.mpr]
    · exact mapped
    · intro other member
      rcases List.mem_map.mp member with ⟨block, present, rfl⟩
      exact kept block present
  refine ⟨?_, fun fits => tracks.follow follows ?_ ?_ fits⟩
  · rw [tracks.tracker] at found follows ⊢
    apply Draft.tracker_follow (Draft.rigid_inserted found) follows
    rw [Draft.map_text_ghosts, Draft.map_text_ghosts, Draft.removed_insertAt]
  · intro block member
    rw [kept block member]
    exact Registry.survives_inserted (tracks.filled.blocks 0 block member) (tracks.stop_lt member)
  · intro block member _
    have present : block.follow (.inserted (session.tracker.anchorRow line) texts.length) ∈
        Draft.blocks 0 (Draft.insertAt texts line draft) := by
      rw [← follows]
      exact List.mem_filter.mpr ⟨List.mem_map_of_mem member, kept block member⟩
    have small := (Draft.tiled _).stop_lt fits present
      (of_decide_eq_true (kept block member))
    simp only [Block.span, Span.stop, Block.follow, RowShift.move] at small
    simp only [RowShift.apply, RowShift.move]
    split at small
    · rename_i below
      rw [if_pos below, if_pos below, Row.add_eq (by omega)]
    · rename_i above
      rw [if_neg above, if_neg above]

theorem Tracks.delete (tracks : session.Tracks draft) (line count : Nat) :
    let shift := RowShift.deleted ((List.range' line count).map session.tracker.viewRow)
    let next := Draft.deleteLines line (line + count) draft
    (session.tracker.grown shift).moved shift = Draft.tracker next ∧
      ((Draft.tracker next).fits = true → ∃ registry, session.registry.remap shift = .ok registry ∧
        Session.sync { session with tracker := Draft.tracker next, registry } =
          .ok (session.redraft next)) := by
  have found := tracks.ghosts
  have follows := @Draft.blocks_deleteLines _ [] draft line count found
  simp only [Draft.size_nil, Draft.lines_nil, List.length_nil, Nat.zero_sub,
    Nat.sub_zero] at follows
  refine ⟨?_, fun fits => tracks.follow follows ?_ ?_ fits⟩
  · rw [tracks.tracker] at found follows ⊢
    apply Draft.tracker_follow (Draft.rigid_deleted found) follows
    rw [Draft.map_text_ghosts, Draft.map_text_ghosts, Draft.removed_deleteLines]
  · intro block member
    apply Registry.survives_deleted (tracks.stop_lt member)
    rcases Draft.mem_blocks_divided member with ⟨front, id, removed, added, back, rfl, rfl⟩
    have start := Draft.bufferLine_divided found
    have stop := Draft.bufferLine_green found (Nat.le_refl added.length)
    rw [← Nat.add_assoc] at stop
    simp only [Block.span, Span.stop, Nat.zero_add, Draft.deletedBefore_rows found, start, stop,
      Draft.gone]
    omega
  · intro block _ _
    have below : session.tracker.bufferLine block.start ≤ block.start := Nat.sub_le _ _
    apply Row.sub_eq
    rw [Draft.deletedBefore_rows found, Draft.gone]
    omega

theorem Tracks.fits_deleted (tracks : session.Tracks draft) (line count : Nat) :
    (Draft.tracker (Draft.deleteLines line (line + count) draft)).fits = true := by
  have found := tracks.ghosts
  have follows := @Draft.blocks_deleteLines _ [] draft line count found
  simp only [Draft.size_nil, Draft.lines_nil, List.length_nil, Nat.zero_sub,
    Nat.sub_zero] at follows
  apply (Draft.tiled _).fits_of_stops
  intro block member
  rw [← follows] at member
  rcases List.mem_map.mp (List.mem_filter.mp member).1 with ⟨old, present, rfl⟩
  have small := tracks.stop_lt present
  rcases Draft.mem_blocks_divided present with ⟨front, id, removed, added, back, rfl, rfl⟩
  rw [Nat.zero_add] at small ⊢
  rw [Draft.follow_deleted found]
  simp only [Block.span, Span.stop] at small ⊢
  omega

/-! ## Requests -/

/-- What the rows and the blocks become under the shift of a reported edit. -/
theorem Tracks.shifted (tracks : session.Tracks draft) {line : Nat} {delta : Int}
    (edited : delta ≠ 0) {texts : List String} (width : texts.length = delta.toNat)
    (shifted : session.tracker.shiftOf line delta = .ok shift) :
    (session.tracker.grown shift).moved shift =
        Draft.tracker (Draft.edited line delta texts draft) ∧
      ((Draft.tracker (Draft.edited line delta texts draft)).fits = true →
        ∃ registry, session.registry.remap shift = .ok registry ∧
          Session.sync { session with
            tracker := Draft.tracker (Draft.edited line delta texts draft), registry } =
              .ok (session.redraft (Draft.edited line delta texts draft))) := by
  unfold Draft.edited
  rcases Int.lt_or_gt_of_ne edited with negative | positive
  · rw [if_neg (by omega), ((Tracker.shiftOf_deleted negative).mp shifted).2]
    exact tracks.delete line delta.natAbs
  · rw [if_pos positive, ((Tracker.shiftOf_inserted positive).mp shifted).2, ← width]
    exact tracks.insert line texts

theorem concluded_eq (session : Session) (buffer : Buffer) :
    (if session.registry.blocks.isEmpty then session.close buffer
      else (session, session.announce buffer .done)) = session.concluded buffer := by
  cases left : session.registry.blocks <;> simp [concluded, left]

theorem applyEdit_eq_ok (listening : session.listening = true)
    {buffer : Buffer} {line : Nat} {delta : Int} (edited : delta ≠ 0)
    (shifted : session.tracker.shiftOf line delta = .ok shift)
    (moved : (session.tracker.grown shift).moved shift = Draft.tracker next)
    (synced : (Draft.tracker next).fits = true → ∃ registry,
      session.registry.remap shift = .ok registry ∧
        Session.sync { session with tracker := Draft.tracker next, registry } =
          .ok (session.redraft next)) {turn : Turn Bool} :
    session.applyEdit buffer line delta = .ok turn ↔ (Draft.tracker next).fits = true ∧
      turn = ⟨((session.redraft next).concluded buffer).1, buffer,
        ((session.redraft next).concluded buffer).2, .ok true⟩ := by
  have moves : shift ≠ .unmoved := by
    rcases Int.lt_or_gt_of_ne edited with negative | positive
    · rw [((Tracker.shiftOf_deleted negative).mp shifted).2]
      exact RowShift.noConfusion
    · rw [((Tracker.shiftOf_inserted positive).mp shifted).2]
      exact RowShift.noConfusion
  rw [Session.applyEdit, if_pos listening, Tracker.applyEdit, shifted, ok_bind, if_neg edited,
    moved, (Draft.tiled next).checked_eq]
  split
  · rename_i fits
    rcases synced fits with ⟨registry, remapped, synced⟩
    simp only [fits, true_and, pure_bind, ok_bind, if_neg moves]
    rw [remapped, ok_bind, synced, ok_bind]
    simp only [concluded_eq]
    exact ⟨fun same => (Except.ok.inj same).symm, fun same => by rw [same]; rfl⟩
  · rename_i overflow
    simp [overflow, bind, Except.bind]

theorem applyEdit_still {buffer : Buffer} {line : Nat} {delta : Int}
    (listening : session.listening = true) (still : delta = 0) :
    session.applyEdit buffer line delta = .ok ⟨session, buffer, [], .ok true⟩ := by
  rw [Session.applyEdit, if_pos listening, Tracker.applyEdit, Tracker.shiftOf, if_pos still]
  simp only [ok_bind, if_pos still]
  rfl

theorem Tracks.applyEdit (tracks : session.Tracks draft) (listening : session.listening = true)
    {buffer : Buffer} {line : Nat} {delta : Int} (edited : delta ≠ 0) {texts : List String}
    (width : texts.length = delta.toNat) {turn : Turn Bool} :
    session.applyEdit buffer line delta = .ok turn ↔
      (∃ shift, session.tracker.shiftOf line delta = .ok shift) ∧
        (Draft.tracker (Draft.edited line delta texts draft)).fits = true ∧
        let next := session.redraft (Draft.edited line delta texts draft)
        turn = ⟨(next.concluded buffer).1, buffer, (next.concluded buffer).2, .ok true⟩ := by
  constructor
  · intro applied
    have shifted : ∃ shift, session.tracker.shiftOf line delta = .ok shift := by
      rw [Session.applyEdit, if_pos listening, Tracker.applyEdit] at applied
      rcases bind_eq_ok.mp applied with ⟨_, followed, _⟩
      rcases bind_eq_ok.mp followed with ⟨shift, shifted, _⟩
      exact ⟨shift, shifted⟩
    refine ⟨shifted, ?_⟩
    rcases shifted with ⟨shift, shifted⟩
    rcases tracks.shifted edited width shifted with ⟨moved, synced⟩
    exact (applyEdit_eq_ok listening edited shifted moved synced).mp applied
  · rintro ⟨⟨shift, shifted⟩, landed⟩
    rcases tracks.shifted edited width shifted with ⟨moved, synced⟩
    exact (applyEdit_eq_ok listening edited shifted moved synced).mpr landed

theorem Tracks.edited (tracks : session.Tracks draft) {line : Nat} {delta : Int}
    {texts : List String}
    (fits : (Draft.tracker (Draft.edited line delta texts draft)).fits = true) :
    (session.redraft (Draft.edited line delta texts draft)).Tracks
      (Draft.edited line delta texts draft) := by
  apply tracks.redraft fits
  · exact tracks.filled.edited line delta texts
  · exact Draft.ids_edited line delta texts draft

end Session

end Redline
