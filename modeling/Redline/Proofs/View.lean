import Redline.Proofs.Markup

namespace Redline

def weave (row : Nat) : List Ghost → List String → List String
  | [], lines => lines
  | ghost :: rest, lines =>
      lines.take (ghost.row - row) ++
        ghost.text :: weave (ghost.row + 1) rest (lines.drop (ghost.row - row))

def markOf (blocks : List Block) (row : Nat) : Mark :=
  match blocks.find? fun block => decide (block.start ≤ row ∧ row < block.span.stop) with
  | none => .context
  | some block => if row < block.start + block.red then .ghost block.id else .green block.id

/-- Each row with the mark of the block that it belongs to. -/
def Session.markup (session : Session) (buffer : Buffer) : List MarkedRow :=
  (weave 0 session.tracker.ghosts buffer.lines).mapIdx fun row text =>
    ⟨text, markOf session.registry.blocks row⟩

/-- The buffer has the lines that the blocks stand for. -/
def Session.Within (session : Session) (buffer : Buffer) : Prop :=
  ∀ block ∈ session.registry.blocks,
    session.tracker.bufferLine block.start + block.green ≤ buffer.lineCount

open Markup (marked)

theorem weave_lines {row : Nat} {texts : List String} {ghosts : List Ghost}
    (below : ∀ ghost ∈ ghosts, row + texts.length ≤ ghost.row) (lines : List String) :
    weave row ghosts (texts ++ lines) = texts ++ weave (row + texts.length) ghosts lines := by
  cases ghosts with
  | nil => rfl
  | cons ghost rest =>
      have place := below ghost List.mem_cons_self
      have rows : ghost.row - row = texts.length + (ghost.row - (row + texts.length)) := by omega
      rw [weave, weave, rows, List.take_length_add_append, List.drop_length_add_append,
        List.append_assoc]

theorem weave_ghosts (row : Nat) (texts : List String) (ghosts : List Ghost)
    (lines : List String) : weave row (Tracker.ghostRows row texts ++ ghosts) lines =
      texts ++ weave (row + texts.length) ghosts lines := by
  induction texts generalizing row with
  | nil => rfl
  | cons text rest ih =>
      have place : row + 1 + rest.length = row + (rest.length + 1) := by omega
      simp only [Tracker.ghostRows, List.cons_append, weave, Nat.sub_self, List.take_zero,
        List.drop_zero, List.nil_append, ih, place, List.length_cons]

theorem markOf_cons_of_stop {block : Block} {row : Nat} (passed : block.span.stop ≤ row)
    (rest : List Block) : markOf (block :: rest) row = markOf rest row := by
  rw [markOf, List.find?_cons_of_neg, ← markOf]
  rw [decide_eq_true_eq]
  omega

theorem markOf_cons_of_mem {block : Block} {row : Nat}
    (inside : block.start ≤ row ∧ row < block.span.stop) (rest : List Block) :
    markOf (block :: rest) row =
      if row < block.start + block.red then .ghost block.id else .green block.id := by
  rw [markOf, List.find?_cons_of_pos]
  rw [decide_eq_true_eq]
  exact inside

namespace Draft

variable {draft : List Passage} {id : BlockId}

theorem map_text_marked (mark : Mark) (texts : List String) :
    (marked mark texts).map MarkedRow.text = texts := by
  rw [marked, List.map_map]
  exact List.map_id texts

theorem map_mark_marked (mark : Mark) (texts : List String) :
    (marked mark texts).map MarkedRow.mark = List.replicate texts.length mark := by
  rw [marked, List.map_map]
  exact List.map_const'

theorem weave_eq (row : Nat) (draft : List Passage) :
    weave row (ghosts row draft) (lines draft) = (rows draft).map MarkedRow.text := by
  induction draft generalizing row with
  | nil => rfl
  | cons passage rest ih =>
      cases passage with
      | kept text =>
          have below : ∀ ghost ∈ ghosts (row + 1) rest, row + [text].length ≤ ghost.row :=
            fun ghost member => (mem_ghosts member).1
          calc weave row (ghosts (row + 1) rest) ([text] ++ lines rest)
              = [text] ++ weave (row + 1) (ghosts (row + 1) rest) (lines rest) :=
                weave_lines below _
            _ = [text] ++ (rows rest).map MarkedRow.text := by rw [ih]
      | change id removed added =>
          have below : ∀ ghost ∈ ghosts (row + (removed.length + added.length)) rest,
              row + removed.length + added.length ≤ ghost.row := by
            intro ghost member
            have place := (mem_ghosts member).1
            omega
          have later := ih (row + (removed.length + added.length))
          calc weave row (ghosts row (.change id removed added :: rest)) (added ++ lines rest)
              = removed ++ weave (row + removed.length)
                  (ghosts (row + (removed.length + added.length)) rest) (added ++ lines rest) := by
                rw [ghosts, weave_ghosts]
            _ = removed ++ (added ++ (rows rest).map MarkedRow.text) := by
                rw [weave_lines below, Nat.add_assoc, later]
            _ = (rows (.change id removed added :: rest)).map MarkedRow.text := by
                rw [rows_change_cons, List.map_append, List.map_append, map_text_marked,
                  map_text_marked]

theorem markOf_above (row : Nat) (draft : List Passage) :
    markOf (blocks (row + 1) draft) row = .context := by
  have none : (blocks (row + 1) draft).find? (fun block =>
      decide (block.start ≤ row ∧ row < block.span.stop)) = none := by
    rw [List.find?_eq_none]
    intro block member
    have place := (mem_blocks member).1
    rw [decide_eq_true_eq]
    omega
  rw [markOf, none]

theorem map_markOf_change (row : Nat) (id : BlockId) (removed added : List String)
    (rest : List Passage) :
    (List.range' row (size (.change id removed added :: rest))).map
        (markOf (blocks row (.change id removed added :: rest))) =
      List.replicate removed.length (.ghost id) ++ (List.replicate added.length (.green id) ++
        (List.range' (row + (removed.length + added.length)) (size rest)).map
          (markOf (blocks (row + (removed.length + added.length)) rest))) := by
  have removedMarks : ∀ place ∈ List.range' row removed.length,
      markOf (blocks row (.change id removed added :: rest)) place = .ghost id := by
    intro place member
    have bounds := List.mem_range'_1.mp member
    rw [blocks, markOf_cons_of_mem]
    · exact if_pos bounds.2
    · simp only [Block.span, Span.stop]
      omega
  have addedMarks : ∀ place ∈ List.range' (row + removed.length) added.length,
      markOf (blocks row (.change id removed added :: rest)) place = .green id := by
    intro place member
    have bounds := List.mem_range'_1.mp member
    rw [blocks, markOf_cons_of_mem]
    · apply if_neg
      simp only
      omega
    · simp only [Block.span, Span.stop]
      omega
  have otherMarks : ∀ place ∈ List.range' (row + (removed.length + added.length)) (size rest),
      markOf (blocks row (.change id removed added :: rest)) place =
        markOf (blocks (row + (removed.length + added.length)) rest) place := by
    intro place member
    have bounds := List.mem_range'_1.mp member
    rw [blocks, markOf_cons_of_stop]
    simp only [Block.span, Span.stop]
    omega
  have divided : List.range' row (size (.change id removed added :: rest)) =
      List.range' row removed.length ++ (List.range' (row + removed.length) added.length ++
        List.range' (row + (removed.length + added.length)) (size rest)) := by
    rw [size_cons, Passage.size, ← Nat.add_assoc row, List.range'_append_1, List.range'_append_1,
      Nat.add_assoc]
  rw [divided, List.map_append, List.map_append, List.map_congr_left removedMarks,
    List.map_congr_left addedMarks, List.map_congr_left otherMarks, List.map_const',
    List.map_const', List.length_range', List.length_range']

theorem marks_eq (row : Nat) (draft : List Passage) :
    (rows draft).map MarkedRow.mark =
      (List.range' row (size draft)).map (markOf (blocks row draft)) := by
  induction draft generalizing row with
  | nil => rfl
  | cons passage rest ih =>
      cases passage with
      | kept text =>
          rw [rows_kept_cons, size_cons, Passage.size, Nat.add_comm, List.range'_succ,
            List.map_cons, List.map_cons, blocks, ih (row + 1), markOf_above]
      | change id removed added =>
          rw [map_markOf_change, rows_change_cons, List.map_append, List.map_append,
            map_mark_marked, map_mark_marked, ih]

/-- A draft with the lines of the buffer is what its session shows. -/
theorem rows_eq_weave (draft : List Passage) :
    (weave 0 (ghosts 0 draft) (lines draft)).mapIdx
      (fun row text => (⟨text, markOf (blocks 0 draft) row⟩ : MarkedRow)) = rows draft := by
  have texts := weave_eq 0 draft
  have marks := marks_eq 0 draft
  rw [texts]
  apply List.ext_getElem?
  intro index
  rw [List.getElem?_mapIdx, List.getElem?_map]
  cases found : (rows draft)[index]? with
  | none => rfl
  | some row =>
      have bound : index < size draft := by
        rw [← length_rows]
        exact (List.getElem?_eq_some_iff.mp found).1
      have same := congrArg (fun marks : List Mark => marks[index]?) marks
      simp only [List.getElem?_map, found, Option.map_some, List.getElem?_range' bound,
        Nat.zero_add, Nat.one_mul, Option.some.injEq] at same
      rw [Option.map_some, Option.map_some, ← same]

def relabel : List Passage → List String → List Passage
  | [], lines => lines.map .kept
  | .kept _ :: rest, lines => (lines.take 1).map .kept ++ relabel rest (lines.drop 1)
  | .change id removed added :: rest, lines =>
      .change id removed (lines.take added.length) :: relabel rest (lines.drop added.length)

def Reaches (draft : List Passage) (count : Nat) : Prop :=
  ∀ front id removed added back, draft = front ++ .change id removed added :: back →
    (lines front).length + added.length ≤ count

theorem lines_relabel (draft : List Passage) (texts : List String) :
    lines (relabel draft texts) = texts := by
  induction draft generalizing texts with
  | nil => exact lines_kept texts
  | cons passage rest ih =>
      cases passage with
      | kept text =>
          rw [relabel, lines_append, lines_kept, ih, List.take_append_drop]
      | change id removed added =>
          rw [relabel, lines_cons, ih, Passage.lines, List.take_append_drop]

theorem ids_relabel (draft : List Passage) (texts : List String) :
    ids (relabel draft texts) = ids draft := by
  induction draft generalizing texts with
  | nil => exact ids_kept texts
  | cons passage rest ih =>
      cases passage with
      | kept text =>
          rw [relabel, ids_append, ids_kept, ih]
          rfl
      | change id removed added => rw [relabel, ids_change_cons, ih, ids_change_cons]

theorem Reaches.tail {passage : Passage} {rest : List Passage} {count : Nat}
    (reaches : Reaches (passage :: rest) count) : Reaches rest (count - passage.lines.length) := by
  intro front id removed added back divided
  have reach := reaches (passage :: front) id removed added back (by rw [divided]; rfl)
  rw [lines_cons, List.length_append] at reach
  omega

theorem ghosts_plain (plain : ids draft = []) (row : Nat) : ghosts row draft = [] := by
  have rows := map_row_ghosts row draft
  rw [blocks_plain plain] at rows
  exact List.map_eq_nil_iff.mp rows

/-- The lines of a buffer that has enough of them do not move a row. -/
theorem relabel_rows {texts : List String} (reaches : Reaches draft texts.length) (row : Nat) :
    blocks row (relabel draft texts) = blocks row draft ∧
      ghosts row (relabel draft texts) = ghosts row draft := by
  induction draft generalizing texts row with
  | nil => exact ⟨blocks_kept row texts, ghosts_kept row texts⟩
  | cons passage rest ih =>
      have later := reaches.tail
      cases passage with
      | kept text =>
          rw [Passage.lines, List.length_singleton, ← List.length_drop] at later
          cases texts with
          | cons first others => exact ih later (row + 1)
          | nil =>
              -- The buffer ends above this line, so no change can follow it.
              have plain : ids (.kept text :: rest) = [] := by
                by_contra busy
                rcases List.exists_mem_of_ne_nil _ busy with ⟨id, member⟩
                rcases mem_ids.mp member with ⟨front, removed, added, back, divided⟩
                have reach := reaches front id removed added back divided
                cases front with
                | nil => simp at divided
                | cons first others =>
                    have same := (List.cons.inj divided).1
                    rw [← same, lines_cons, List.length_append] at reach
                    simp [Passage.lines] at reach
              have none : ids (relabel (.kept text :: rest) []) = [] := by
                rw [ids_relabel, plain]
              rw [blocks_plain plain, blocks_plain none, ghosts_plain plain, ghosts_plain none]
              exact ⟨rfl, rfl⟩
      | change id removed added =>
          rw [Passage.lines, ← List.length_drop] at later
          have enough := reaches [] id removed added rest rfl
          rw [lines_nil, List.length_nil, Nat.zero_add] at enough
          have width : (texts.take added.length).length = added.length := by
            rw [List.length_take, Nat.min_eq_left enough]
          rcases ih later (row + (removed.length + added.length)) with ⟨sameBlocks, sameGhosts⟩
          constructor
          · rw [relabel, blocks, blocks, width, sameBlocks]
          · rw [relabel, ghosts, ghosts, width, sameGhosts]

theorem filled_of_blocks {row : Nat}
    (whole : ∀ block ∈ blocks row draft, 0 < block.red + block.green) : Filled draft := by
  induction draft generalizing row with
  | nil => exact List.forall_mem_nil _
  | cons passage rest ih =>
      cases passage with
      | kept text => exact List.forall_mem_cons.mpr ⟨Nat.one_pos, ih whole⟩
      | change id removed added =>
          rcases List.forall_mem_cons.mp whole with ⟨first, later⟩
          exact List.forall_mem_cons.mpr ⟨first, ih later⟩

end Draft

namespace Session

variable {session : Session} {buffer : Buffer} {draft : List Passage}

theorem Tracks.reaches (tracks : session.Tracks draft) (within : session.Within buffer) :
    Draft.Reaches draft buffer.lines.length := by
  rintro front id removed added back rfl
  have line := tracks.bufferLine
  have member : (⟨id, Draft.size front, removed.length, added.length⟩ : Block) ∈
      session.registry.blocks := by
    rw [tracks.blocks, Draft.blocks_append, Nat.zero_add]
    exact List.mem_append_right _ List.mem_cons_self
  have bound := within _ member
  rw [line] at bound
  exact bound

theorem Tracks.relabel (tracks : session.Tracks draft) (within : session.Within buffer) :
    session.Tracks (Draft.relabel draft buffer.lines) := by
  rcases Draft.relabel_rows (tracks.reaches within) 0 with ⟨blocks, ghosts⟩
  constructor
  · rw [tracks.tracker, Draft.tracker, Draft.tracker, blocks, ghosts]
  · rw [tracks.blocks, blocks]
  · exact tracks.fits
  · apply Draft.filled_of_blocks
    rw [blocks]
    exact tracks.filled.blocks 0
  · rw [Draft.ids_relabel]
    exact tracks.distinct
  · rw [Draft.ids_relabel]
    exact tracks.minted

theorem Tracks.markup (tracks : session.Tracks draft) (shown : buffer.lines = Draft.lines draft) :
    session.markup buffer = Draft.rows draft := by
  rw [Session.markup, tracks.tracker, tracks.blocks, shown]
  exact Draft.rows_eq_weave draft

end Session

end Redline
