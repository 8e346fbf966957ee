import Mathlib
import Redline.Proofs.Hosting
import Redline.Proofs.Traffic

/-! Text that a host writes over added lines of a block, and what rejecting the block makes of it.
A report tells only where a change starts and how many lines it adds or takes away. -/

namespace Redline

namespace ExternalEdit

variable {edit : ExternalEdit} {buffer : Buffer}

def typed (edit : ExternalEdit) : List String := (Buffer.ofText edit.text).lines

def replace (edit : ExternalEdit) (buffer : Buffer) : Buffer :=
  buffer.replaced edit.start (edit.stop + 1 - edit.start) edit.typed

/-- A buffer with the lines by which a change is longer, above the line where it starts. -/
def keptAbove (edit : ExternalEdit) (buffer : Buffer) : Buffer :=
  buffer.replaced edit.start 0 (edit.typed.take edit.lineDelta.toNat)

theorem length_typed (edit : ExternalEdit) :
    edit.typed.length = edit.text.toList.count '\n' + 1 :=
  Buffer.lineCount_ofText edit.text

theorem lineDelta_eq (order : edit.start ≤ edit.stop) (inside : edit.stop < buffer.lineCount)
    (before : buffer.lineCount < Tracker.rowListLimit)
    (after : (edit.replace buffer).lineCount < Tracker.rowListLimit) :
    edit.lineDelta = (edit.typed.length : Int) - (edit.stop + 1 - edit.start : Nat) := by
  have total := @Buffer.length_replaced buffer edit.start (edit.stop + 1 - edit.start) (by omega)
    edit.typed
  have typed := edit.length_typed
  rw [replace] at after
  unfold Tracker.rowListLimit at before after
  simp only [lineDelta, signedCount, countLimit, Int.ofNat_eq_natCast]
  omega

end ExternalEdit

namespace Draft

variable {front back : List Passage} {id : BlockId} {removed added texts : List String}
  {line low high : Nat}

theorem insertAt_between (texts : List String) (front back : List Passage) :
    insertAt texts (lines front).length (front ++ back) =
      insertAt texts (lines front).length front ++ back := by
  induction front with
  | nil =>
      rw [lines_nil, List.length_nil, List.nil_append, insertAt, insertAt, List.append_nil]
  | cons passage rest ih =>
      cases passage with
      | kept text =>
          rw [lines_cons, List.length_append, Passage.lines, List.length_singleton, Nat.add_comm,
            List.cons_append, insertAt, insertAt, ih, List.cons_append]
      | change id removed added =>
          rw [lines_cons, List.length_append, Passage.lines, List.cons_append]
          cases total : added.length + (lines rest).length with
          | zero => simp [insertAt]
          | succ line =>
              have rest_length : line + 1 - added.length = (lines rest).length := by omega
              rw [insertAt, insertAt, if_neg (by omega), if_neg (by omega), rest_length, ih,
                List.cons_append]

theorem insertAt_inside (texts : List String) (above : (lines front).length < line)
    (below : line < (lines front).length + added.length) :
    insertAt texts line (front ++ .change id removed added :: back) =
      front ++ .change id removed (added.take (line - (lines front).length) ++ texts ++
        added.drop (line - (lines front).length)) :: back := by
  induction front generalizing line with
  | nil =>
      simp only [lines_nil, List.length_nil, Nat.zero_add, Nat.sub_zero] at above below ⊢
      rcases Nat.exists_eq_succ_of_ne_zero (Nat.ne_of_gt above) with ⟨count, rfl⟩
      rw [List.nil_append, insertAt, if_pos below]
      rfl
  | cons passage rest ih =>
      rw [lines_cons, List.length_append] at above below ⊢
      rcases Nat.exists_eq_succ_of_ne_zero (Nat.ne_of_gt (Nat.zero_lt_of_lt above)) with
        ⟨count, rfl⟩
      cases passage with
      | kept text =>
          simp only [Passage.lines, List.length_singleton] at above below ⊢
          have place : count + 1 - (1 + (lines rest).length) = count - (lines rest).length := by
            omega
          rw [List.cons_append, Nat.succ_eq_add_one, insertAt, ih (by omega) (by omega), place]
          rfl
      | change other taken put =>
          simp only [Passage.lines] at above below ⊢
          have place : count + 1 - (put.length + (lines rest).length) =
              count + 1 - put.length - (lines rest).length := by
            omega
          rw [List.cons_append, Nat.succ_eq_add_one, insertAt, if_neg (by omega),
            ih (by omega) (by omega), place]
          rfl

theorem deleteLines_none {draft : List Passage} (filled : Filled draft) :
    deleteLines 0 0 draft = draft := by
  induction draft with
  | nil => rfl
  | cons passage rest ih =>
      rcases List.forall_mem_cons.mp filled with ⟨first, others⟩
      cases passage with
      | kept text =>
          rw [deleteLines, if_neg (by omega), ih others]
      | change id removed added =>
          have first : 0 < removed.length + added.length := first
          rw [deleteLines]
          simp only [List.take_zero, List.drop_zero, List.nil_append, Nat.zero_sub]
          rw [if_neg (Nat.ne_of_gt first), ih others]

theorem deleteLines_inside (filled : Filled (front ++ .change id removed added :: back))
    (above : (lines front).length ≤ low) (order : low ≤ high)
    (below : high ≤ (lines front).length + added.length) (some : high - low < added.length) :
    deleteLines low high (front ++ .change id removed added :: back) =
      front ++ .change id removed (added.take (low - (lines front).length) ++
        added.drop (high - (lines front).length)) :: back := by
  induction front generalizing low high with
  | nil =>
      simp only [lines_nil, List.length_nil, Nat.zero_add, Nat.sub_zero] at above below ⊢
      have others := (List.forall_mem_cons.mp filled).2
      have left : removed.length + (added.take low ++ added.drop high).length ≠ 0 := by
        rw [List.length_append, List.length_take, List.length_drop]
        omega
      have whole : low - added.length = 0 ∧ high - added.length = 0 := by omega
      rw [List.nil_append, deleteLines]
      simp only [if_neg left, whole, deleteLines_none others]
      rfl
  | cons passage rest ih =>
      rcases List.forall_mem_cons.mp filled with ⟨first, others⟩
      rw [lines_cons, List.length_append] at above below ⊢
      cases passage with
      | kept text =>
          simp only [Passage.lines, List.length_singleton] at above below ⊢
          have places : low - 1 - (lines rest).length = low - (1 + (lines rest).length) ∧
              high - 1 - (lines rest).length = high - (1 + (lines rest).length) := by
            omega
          rw [List.cons_append, deleteLines, if_neg (by omega),
            ih others (by omega) (by omega) (by omega) (by omega), places.1, places.2]
          rfl
      | change other taken put =>
          simp only [Passage.lines] at above below ⊢
          have first : 0 < taken.length + put.length := first
          have kept : put.take low ++ put.drop high = put := by
            rw [List.take_of_length_le (by omega), List.drop_of_length_le (by omega),
              List.append_nil]
          have places : low - put.length - (lines rest).length =
                low - (put.length + (lines rest).length) ∧
              high - put.length - (lines rest).length =
                high - (put.length + (lines rest).length) := by
            omega
          rw [List.cons_append, deleteLines]
          simp only [kept]
          rw [if_neg (Nat.ne_of_gt first),
            ih others (by omega) (by omega) (by omega) (by omega), places.1, places.2]
          rfl

/-- How an edit of so many lines leaves a change: lines that go in above its first added line push
it down, all others make it longer or shorter. -/
def Adjusts (front shifted : List Passage) (added put : List String) (line : Nat) (delta : Int) :
    Prop :=
  if 0 < delta ∧ line = (lines front).length then
    ((lines shifted).length : Int) = line + delta ∧ put.length = added.length
  else (lines shifted).length = (lines front).length ∧ (put.length : Int) = added.length + delta

theorem edited_change {delta : Int}
    (filled : Filled (front ++ .change id removed added :: back)) (still : delta ≠ 0)
    (width : texts.length = delta.toNat) (above : (lines front).length ≤ line)
    (below : line < (lines front).length + added.length)
    (inside : line + (-delta).toNat ≤ (lines front).length + added.length)
    (some : (-delta).toNat < added.length) :
    ∃ shifted put, edited line delta texts (front ++ .change id removed added :: back) =
        shifted ++ .change id removed put :: back ∧
      Adjusts front shifted added put line delta := by
  unfold Adjusts
  rcases Int.lt_or_gt_of_ne still with negative | positive
  · have deleted := @deleteLines_inside front back id removed added line (line + delta.natAbs)
      filled above (Nat.le_add_right _ _) (by omega) (by omega)
    refine ⟨front, _, (if_neg (by omega)).trans deleted, ?_⟩
    rw [if_neg (by omega), List.length_append, List.length_take, List.length_drop]
    exact ⟨rfl, by omega⟩
  · rw [edited, if_pos positive]
    by_cases first : line = (lines front).length
    · rw [first, insertAt_between]
      refine ⟨_, added, rfl, ?_⟩
      rw [if_pos ⟨positive, rfl⟩, length_lines_insertAt]
      exact ⟨by omega, rfl⟩
    · rw [insertAt_inside texts (by omega) below]
      refine ⟨front, _, rfl, ?_⟩
      rw [if_neg fun both => first both.2]
      simp only [List.length_append, List.length_take, List.length_drop]
      exact ⟨trivial, by omega⟩

end Draft

namespace Session

variable {session : Session} {draft front back : List Passage} {id : BlockId}
  {removed added : List String} {buffer : Buffer} {line : Nat} {delta : Int} {block : Block}
  {edit : ExternalEdit}

/-- Rejecting a change whose added lines are in the buffer puts the removed lines in their place,
whatever else the buffer holds. -/
theorem Tracks.reject (tracks : session.Tracks (front ++ .change id removed added :: back))
    (state : session.state = .reviewing)
    (room : (Draft.lines front).length + added.length ≤ buffer.lineCount) :
    ∃ turn resolution, session.resolve buffer id false = .ok turn ∧
      turn.outcome = .ok resolution ∧
      turn.buffer = buffer.replaced (Draft.lines front).length added.length removed := by
  obtain ⟨texts, width⟩ : ∃ texts : List String, texts.length =
      removed.length + added.length - min added.length countLimit :=
    ⟨List.replicate _ "", List.length_replicate⟩
  have restored := tracks.restore room width
  have narrow : texts.length ≤ removed.length + added.length := by omega
  have later := tracks.settled narrow
  exact ⟨_, _, resolve_eq state tracks.get? restored later.sync, rfl, rfl⟩

theorem Tracks.report (tracks : session.Tracks (front ++ .change id removed added :: back))
    (state : session.state = .reviewing) (listens : session.listening = true)
    (above : (Draft.lines front).length ≤ line)
    (below : line < (Draft.lines front).length + added.length)
    (inside : line + (-delta).toNat ≤ (Draft.lines front).length + added.length)
    (some : (-delta).toNat < added.length)
    (rows : session.RowsFit (.edit line delta)) (short : (Operation.edit line delta).Short) :
    ∃ told shifted put, session.applyEdit buffer line delta = .ok told ∧
      told.buffer = buffer ∧ told.session.state = .reviewing ∧
      told.session.Tracks (shifted ++ .change id removed put :: back) ∧
      Draft.Adjusts front shifted added put line delta := by
  by_cases still : delta = 0
  · refine ⟨_, front, added, applyEdit_still listens still, rfl, state, tracks, ?_⟩
    rw [Draft.Adjusts, if_neg (by omega)]
    exact ⟨rfl, by omega⟩
  · have width : (List.replicate delta.toNat "").length = delta.toNat := List.length_replicate
    rcases @Tracks.applyEdit_ok _ _ buffer tracks line delta rows short with ⟨told, applied⟩
    rcases (tracks.applyEdit listens still width).mp applied with ⟨_, fits, result⟩
    have follows := tracks.edited fits
    rcases Draft.edited_change tracks.filled still width above below inside some with
      ⟨shifted, put, drafted, measured⟩
    simp only [drafted] at follows result
    have busy : Draft.ids (shifted ++ .change id removed put :: back) ≠ [] := by simp
    rw [follows.concluded_busy busy] at result
    subst result
    exact ⟨_, shifted, put, applied, rfl, state, follows, measured⟩

def greenLine (session : Session) (block : Block) : Nat :=
  session.tracker.bufferLine (block.start + block.red)

/-- A change of the host that touches nothing but added lines of a block. -/
structure Overwrites (session : Session) (buffer : Buffer) (block : Block) (edit : ExternalEdit) :
    Prop where
  known : block ∈ session.registry.blocks
  order : edit.start ≤ edit.stop
  inside : edit.stop < buffer.lineCount
  first : session.greenLine block ≤ edit.start
  last : edit.stop < session.greenLine block + block.green

/-- There is room for the lines and the ghosts, before the change and after it. -/
structure Roomy (session : Session) (buffer : Buffer) (edit : ExternalEdit) : Prop where
  before : session.Stored buffer
  after : (edit.replace buffer).lineCount < Tracker.rowListLimit

/-- All added lines of the block are in the buffer, and the rows that the report comes to are
below the limit. -/
structure Located (session : Session) (buffer : Buffer) (block : Block) (edit : ExternalEdit) :
    Prop where
  present : session.greenLine block + block.green ≤ buffer.lineCount
  rows : session.RowsFit (.edit edit.start edit.lineDelta)

theorem Tracks.greenLine (tracks : session.Tracks (front ++ .change id removed added :: back)) :
    session.greenLine ⟨id, 0 + Draft.size front, removed.length, added.length⟩ =
      (Draft.lines front).length := by
  rw [Session.greenLine, Nat.zero_add]
  exact Draft.bufferLine_ghost tracks.ghosts (Nat.le_refl removed.length)

theorem Overwrites.total (overwrites : session.Overwrites buffer block edit) :
    (edit.replace buffer).lineCount + (edit.stop + 1 - edit.start) =
      buffer.lineCount + edit.typed.length := by
  apply Buffer.length_replaced
  have order := overwrites.order
  have inside := overwrites.inside
  omega

theorem Overwrites.lineDelta (overwrites : session.Overwrites buffer block edit)
    (roomy : session.Roomy buffer edit) :
    edit.lineDelta = (edit.typed.length : Int) - (edit.stop + 1 - edit.start : Nat) :=
  ExternalEdit.lineDelta_eq overwrites.order overwrites.inside roomy.before.lines roomy.after

theorem Followed.located (followed : session.Followed buffer) (state : session.state = .reviewing)
    (overwrites : session.Overwrites buffer block edit) (roomy : session.Roomy buffer edit) :
    session.Located buffer block edit := by
  have delta := overwrites.lineDelta roomy
  have total := overwrites.total
  have after := roomy.after
  rcases overwrites with ⟨known, order, inside, _, _⟩
  constructor
  · rcases followed.reachable.coherent.under_review state with ⟨draft, tracks, _, _⟩
    have present := followed.within block known
    rw [tracks.blocks] at known
    rcases Draft.mem_blocks_divided known with ⟨front, id, removed, added, back, rfl, rfl⟩
    have line := tracks.bufferLine
    simp only [Nat.zero_add, line] at present
    rw [tracks.greenLine]
    exact present
  · apply followed.rowsFit state roomy.before
    · omega
    · omega
    · omega

/-- Rejecting a block after a reported change of its added lines leaves what rejecting it would have
left without the change. Only if the change starts with the first added line, the lines by which it
is longer stay above the block. -/
theorem Coherent.reject_overwritten (coherent : session.Coherent)
    (state : session.state = .reviewing) (overwrites : session.Overwrites buffer block edit)
    (located : session.Located buffer block edit) (roomy : session.Roomy buffer edit) :
    ∃ rejected told changed answer reply,
      session.resolve buffer block.id false = .ok rejected ∧ rejected.outcome = .ok answer ∧
      session.applyEdit (edit.replace buffer) edit.start edit.lineDelta = .ok told ∧
      told.buffer = edit.replace buffer ∧ told.session.state = .reviewing ∧
      told.session.resolve told.buffer block.id false = .ok changed ∧
      changed.outcome = .ok reply ∧
      changed.buffer = if 0 < edit.lineDelta ∧ edit.start = session.greenLine block then
          edit.keptAbove rejected.buffer
        else rejected.buffer := by
  rcases coherent.under_review state with ⟨draft, tracks, listens, _⟩
  have delta := overwrites.lineDelta roomy
  have total := overwrites.total
  have bounded := roomy.before.lines
  have nonempty : 0 < edit.typed.length := by
    rw [edit.length_typed]
    exact Nat.succ_pos _
  rcases overwrites with ⟨known, order, inside, first, last⟩
  rcases located with ⟨present, rows⟩
  rw [tracks.blocks] at known
  rcases Draft.mem_blocks_divided known with ⟨front, id, removed, added, back, rfl, rfl⟩
  rw [tracks.greenLine] at present first last ⊢
  simp only at present last
  have short : (Operation.edit edit.start edit.lineDelta).Short := by
    unfold Tracker.rowListLimit at bounded
    simp only [Operation.Short, Tracker.rowListLimit]
    omega
  obtain ⟨rejected, answer, rejects, answered, left⟩ := tracks.reject state present
  obtain ⟨told, shifted, put, reports, same, still, follows, measured⟩ :=
    @Tracks.report session front back id removed added (edit.replace buffer) _ _ tracks state
      listens first (by omega) (by omega) (by omega) rows short
  unfold Draft.Adjusts at measured
  have room : (Draft.lines shifted).length + put.length ≤ (edit.replace buffer).lineCount := by
    split at measured <;> omega
  obtain ⟨changed, reply, resolves, replied, result⟩ := follows.reject still room
  rw [← same] at resolves
  refine ⟨rejected, told, changed, answer, reply, rejects, answered, reports, same, still, resolves,
    replied, ?_⟩
  rw [result, left]
  -- Only lines that come in on top of the block push its rows down.
  by_cases grows : 0 < edit.lineDelta ∧ edit.start = (Draft.lines front).length
  · rw [if_pos grows] at measured ⊢
    have shift : (Draft.lines shifted).length = edit.start + edit.lineDelta.toNat := by omega
    rw [shift, ← grows.2]
    apply Buffer.replaced_below
    · omega
    · omega
    · omega
    · omega
  · rw [if_neg grows] at measured ⊢
    rw [measured.1]
    apply Buffer.replaced_within first
    · omega
    · omega
    · omega

end Session

namespace Manager

variable {manager : Manager} {id : BufferId} {opened : Opened}

theorem opened?_setDocument (manager : Manager) (name : String) (buffer : Buffer) (id : BufferId) :
    (manager.setDocument name buffer).opened? id = manager.opened? id := rfl

theorem serve_resolve (known : manager.opened? id = some opened) {block : BlockId} {accept : Bool}
    {turn : Turn Resolution} {resolution : Resolution}
    (resolved : opened.session.resolve (manager.document opened.document) block accept = .ok turn)
    (outcome : turn.outcome = .ok resolution) :
    ∃ later, manager.serve (.resolve id block accept) =
        .ok (later, turn.events, .resolved resolution) ∧
      later.document opened.document = turn.buffer := by
  have taken : manager.operate opened (fun session buffer =>
      session.resolve buffer block accept) = .ok _ := operate_eq_ok.mpr ⟨turn, resolved, rfl⟩
  have written := document_setDocument
    (manager.setSession { opened with session := turn.session }) opened.document opened.document
    turn.buffer
  rw [if_pos rfl] at written
  rw [serve, Manager.resolve, known]
  simp only [taken, ok_bind, outcome]
  split
  · refine ⟨_, rfl, ?_⟩
    rw [document_removeIfCurrent]
    exact written
  · exact ⟨_, rfl, written⟩

theorem serve_textChange (known : manager.opened? id = some opened)
    (current : manager.current.get? id = some opened.session.stream) {edit : ExternalEdit}
    {turn : Turn Bool}
    (told : opened.session.applyEdit (manager.document opened.document) edit.start
      edit.lineDelta = .ok turn)
    (live : turn.session.state ≠ .idle) (stream : turn.session.stream = opened.session.stream) :
    ∃ later, manager.serve (.textChange id edit) = .ok (later, turn.events, .nothing) ∧
      later.opened? id = some { opened with session := turn.session } ∧
      later.document opened.document = turn.buffer := by
  refine ⟨(manager.setSession { opened with session := turn.session }).setDocument opened.document
    turn.buffer, ?_, ?_, ?_⟩
  · rw [serve, textChange, externalEdit, known]
    simp only [told, ok_bind, if_neg live]
    rfl
  · rw [opened?_setDocument, opened?, current_setSession, current, Option.bind_some,
      get?_setSession, if_pos stream.symm]
  · rw [document_setDocument, if_pos rfl]

end Manager

namespace Traffic

variable {traffic : Traffic} {id : BufferId} {opened : Opened} {block : Block}
  {edit : ExternalEdit}

/-- However the host has written over the added lines of a block, rejecting the block leaves what
rejecting it would have left before. The one exception is a change that starts with the first
added line: as many of its lines as the block would grow by stay above the restored lines. -/
theorem reject_after_text_change (reachable : traffic.Reachable)
    (known : traffic.manager.opened? id = some opened)
    (state : opened.session.state = .reviewing)
    (overwrites : opened.session.Overwrites (traffic.manager.document opened.document) block edit)
    (traced : opened.session.Followed (traffic.manager.document opened.document) ∨
      opened.session.Located (traffic.manager.document opened.document) block edit)
    (roomy : opened.session.Roomy (traffic.manager.document opened.document) edit) :
    let written := traffic.manager.setDocument opened.document
      (edit.replace (traffic.manager.document opened.document))
    ∃ rejected told changed answer reply before events after,
      traffic.manager.serve (.resolve id block.id false) =
          .ok (rejected, before, .resolved answer) ∧
      written.serve (.textChange id edit) = .ok (told, events, .nothing) ∧
      told.serve (.resolve id block.id false) = .ok (changed, after, .resolved reply) ∧
      changed.document opened.document =
        if 0 < edit.lineDelta ∧ edit.start = opened.session.greenLine block then
          edit.keptAbove (rejected.document opened.document)
        else rejected.document opened.document := by
  intro written
  have consistent := reachable.consistent.manager
  rcases consistent.on_table known with ⟨current, found, _, _⟩
  have coherent := (consistent.filed found).2.2.coherent
  have located : opened.session.Located (traffic.manager.document opened.document) block edit := by
    rcases traced with followed | located
    · exact followed.located state overwrites roomy
    · exact located
  obtain ⟨rejected, told, changed, answer, reply, rejects, answered, reports, same, still, resolves,
    replied, result⟩ := coherent.reject_overwritten state overwrites located roomy
  obtain ⟨first, served, left⟩ := Manager.serve_resolve known rejects answered
  have document : written.document opened.document =
      edit.replace (traffic.manager.document opened.document) := by
    rw [Manager.document_setDocument, if_pos rfl]
  have live : told.session.state ≠ .idle := by
    rw [still]
    decide
  rw [← document] at reports
  have stream := (Session.Coherent.edit_reports coherent reports).stream
  obtain ⟨second, passed, opens, holds⟩ :=
    @Manager.serve_textChange written id opened known current edit told reports live stream
  rw [← holds] at resolves
  obtain ⟨third, decided, remains⟩ := Manager.serve_resolve opens resolves replied
  refine ⟨first, second, third, answer, reply, _, _, _, served, passed, decided, ?_⟩
  rw [left]
  exact remains.trans result

def twoAdded : Session where
  bufferId := ⟨"t"⟩
  stream := ⟨1⟩
  state := .reviewing
  range := ⟨0, 0⟩
  initial := ["a"]
  tracker := ⟨[⟨0, 2⟩], []⟩
  registry := ⟨⟨1⟩, 1, [⟨⟨⟨1⟩, 0⟩, 0, 0, 2⟩]⟩
  cursor := 2
  openRun := none
  committed := []
  applied := 2
  running := false
  listening := true
  cancelled := false

theorem twoAdded_followed : twoAdded.Followed ⟨["x", "y", "a"]⟩ := by
  have started := @Session.Followed.start ⟨"t"⟩ ⟨1⟩ ⟨["a"]⟩ ⟨0, 0⟩ _ rfl
  have begun := @Session.Followed.step _ _ _ _ .begin started
    ⟨by decide, by decide⟩ (by simp) (by cbv)
  have first := @Session.Followed.step _ _ _ _ (.line ⟨.added, "x"⟩) begun
    ⟨by decide, by decide⟩ (by simp) (by cbv)
  have second := @Session.Followed.step _ _ _ _ (.line ⟨.added, "y"⟩) first
    ⟨by decide, by decide⟩ (by simp) (by cbv)
  have finished := @Session.Followed.step _ _ _ _ .finish second
    ⟨by decide, by decide⟩ (by simp) (by cbv)
  exact @Session.Followed.step _ _ _ _ .take finished ⟨by decide, by decide⟩ (by simp) (by cbv)

def twoReviewed : Traffic where
  manager :=
    { settings := .standard
      documents := ⟨[("d", ⟨["x", "y", "a"]⟩)]⟩
      sessions := ⟨[(⟨1⟩, ⟨twoAdded, "d"⟩)]⟩
      current := ⟨[(⟨"t"⟩, ⟨1⟩)]⟩
      started := 1 }
  runs := [⟨⟨⟨"t"⟩, ⟨1⟩⟩, [], .ended (.completed ["x", "y"])⟩]
  log := [.status ⟨⟨"t"⟩, ⟨1⟩, .streaming, 1, "x\na"⟩,
    .overlay ⟨"t"⟩ ⟨[⟨⟨⟨1⟩, 0⟩, 0, 0, 1⟩], [⟨0, 1⟩], []⟩,
    .status ⟨⟨"t"⟩, ⟨1⟩, .streaming, 1, "x\ny\na"⟩,
    .overlay ⟨"t"⟩ ⟨[⟨⟨⟨1⟩, 0⟩, 0, 0, 2⟩], [⟨0, 2⟩], []⟩,
    .status ⟨⟨"t"⟩, ⟨1⟩, .done, 1, "x\ny\na"⟩,
    .overlay ⟨"t"⟩ ⟨[⟨⟨⟨1⟩, 0⟩, 0, 0, 2⟩], [⟨0, 2⟩], []⟩]

theorem twoReviewed_reachable : twoReviewed.Reachable := by
  have blank : (ofDocuments .standard ⟨[("d", ⟨["a"]⟩)]⟩).Reachable := .start _ _
  apply @Reachable.run _ _ [.request (.start ⟨"t"⟩ "d" ⟨0, 0⟩), .launch ⟨⟨"t"⟩, ⟨1⟩⟩,
    .move 0 .check, .move 0 (.receive (.line ⟨.added, "x"⟩)),
    .move 0 .check, .move 0 (.receive (.line ⟨.added, "y"⟩)),
    .move 0 .check, .move 0 (.receive .finished)] blank
  cbv

def rejectedText (traffic : Traffic) : Except Fault (List String) := do
  let (manager, _, _) ← traffic.manager.serve (.resolve ⟨"t"⟩ ⟨⟨1⟩, 0⟩ false)
  return (manager.document "d").lines

/-- The last added line gives way to two lines, and rejecting the block takes them all away. -/
theorem twoReviewed_reject_typed : ∃ told changed events after reply,
    (twoReviewed.manager.setDocument "d" ⟨["x", "p", "q", "a"]⟩).serve
        (.textChange ⟨"t"⟩ ⟨1, 1, "p\nq"⟩) = .ok (told, events, .nothing) ∧
      told.serve (.resolve ⟨"t"⟩ ⟨⟨1⟩, 0⟩ false) = .ok (changed, after, .resolved reply) ∧
      changed.document "d" = ⟨["a"]⟩ := by
  have overwrites : twoAdded.Overwrites ⟨["x", "y", "a"]⟩ ⟨⟨⟨1⟩, 0⟩, 0, 0, 2⟩ ⟨1, 1, "p\nq"⟩ := by
    constructor <;> decide
  have roomy : twoAdded.Roomy ⟨["x", "y", "a"]⟩ ⟨1, 1, "p\nq"⟩ := by
    refine ⟨⟨?_, ?_⟩, ?_⟩ <;> decide
  have restored : twoReviewed.rejectedText = .ok ["a"] := by cbv
  have below : ¬(0 < (⟨1, 1, "p\nq"⟩ : ExternalEdit).lineDelta ∧
      1 = twoAdded.greenLine ⟨⟨⟨1⟩, 0⟩, 0, 0, 2⟩) := by
    decide
  obtain ⟨rejected, told, changed, answer, reply, before, events, after, served, reports, resolves,
    result⟩ := @reject_after_text_change twoReviewed ⟨"t"⟩ ⟨twoAdded, "d"⟩ _ _ twoReviewed_reachable
      rfl rfl overwrites (.inl twoAdded_followed) roomy
  rw [rejectedText, served, ok_bind] at restored
  rw [if_neg below] at result
  refine ⟨told, changed, events, after, reply, reports, resolves, result.trans ?_⟩
  exact congrArg Buffer.mk (Except.ok.inj restored)

/-- If the first added line gives way to two lines, the first of them is still there when the block
has been rejected. And if the host takes lines away while they are being added, the report is
ignored, so that nothing is rejected later on and what the host types stays. -/
theorem twoReviewed_keeps_typed :
    (twoReviewed.manager.opened? ⟨"t"⟩ = some ⟨twoAdded, "d"⟩ ∧
      twoAdded.Followed (twoReviewed.manager.document "d") ∧
      twoAdded.Overwrites (twoReviewed.manager.document "d") ⟨⟨⟨1⟩, 0⟩, 0, 0, 2⟩ ⟨0, 0, "p\nq"⟩ ∧
      twoReviewed.rejectedText = .ok ["a"] ∧
      (do rejectedText (← twoReviewed.performAll [.request (.hostDelete "d" 0 1),
          .request (.hostInsert "d" 0 ["p", "q"]),
          .request (.textChange ⟨"t"⟩ ⟨0, 0, "p\nq"⟩)])) = .ok ["p", "a"]) ∧
    ∃ shrunk, (ofDocuments .standard ⟨[("d", ⟨["a"]⟩)]⟩).performAll
          [.request (.start ⟨"t"⟩ "d" ⟨0, 0⟩), .launch ⟨⟨"t"⟩, ⟨1⟩⟩,
            .move 0 .check, .move 0 (.receive (.line ⟨.added, "x"⟩)),
            .move 0 .check, .move 0 (.receive (.line ⟨.added, "y"⟩)),
            .request (.hostDelete "d" 1 2), .request (.externalEdit ⟨"t"⟩ 1 (-2)),
            .move 0 .check, .move 0 (.receive .finished)] = .ok shrunk ∧
        shrunk.manager.opened? ⟨"t"⟩ = some ⟨twoAdded, "d"⟩ ∧
        shrunk.rejectedText = .ok ["x"] ∧
        (do rejectedText (← shrunk.performAll [.request (.hostDelete "d" 0 1),
            .request (.hostInsert "d" 0 ["p"]),
            .request (.textChange ⟨"t"⟩ ⟨0, 0, "p"⟩)])) = .ok ["p"] := by
  constructor
  · refine ⟨rfl, twoAdded_followed, ?_, by cbv, by cbv⟩
    constructor <;> decide
  · refine ⟨{ twoReviewed with
      manager := twoReviewed.manager.setDocument "d" ⟨["x"]⟩
      log := twoReviewed.log.take 4 ++ [.status ⟨⟨"t"⟩, ⟨1⟩, .done, 1, "x"⟩,
        .overlay ⟨"t"⟩ ⟨[⟨⟨⟨1⟩, 0⟩, 0, 0, 2⟩], [⟨0, 2⟩], []⟩] }, ?_, rfl, ?_, ?_⟩
    · cbv
    · cbv
    · cbv

end Traffic

end Redline
