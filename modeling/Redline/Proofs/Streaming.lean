import Redline.Proofs.Settling

/-! Streaming builds a draft line by line. A kept line closes the change under construction, any
other line extends it or opens a new one. -/

namespace Redline

namespace Draft

variable {draft front back above below : List Passage} {id : BlockId}
  {removed added : List String}

def extend (fresh : BlockId) (removed added : List String) (draft : List Passage) : List Passage :=
  match draft.getLast? with
  | some (.change id taken put) =>
      draft.dropLast ++ [.change id (taken ++ removed) (put ++ added)]
  | _ => draft ++ [.change fresh removed added]

def Closed (draft : List Passage) : Prop :=
  ∀ front id removed added, draft ≠ front ++ [.change id removed added]

theorem closed_kept (front : List Passage) (text : String) : Closed (front ++ [.kept text]) := by
  intro other id removed added same
  have last := (List.append_inj' same rfl).2
  simp at last

theorem closed_of_plain (plain : ids draft = []) : Closed draft := by
  intro front id removed added same
  rw [same] at plain
  simp at plain

theorem extend_open (fresh : BlockId) (front : List Passage) (taken put : List String) :
    extend fresh removed added (front ++ [.change id taken put]) =
      front ++ [.change id (taken ++ removed) (put ++ added)] := by
  simp [extend]

theorem extend_closed (fresh : BlockId) (closed : Closed draft) :
    extend fresh removed added draft = draft ++ [.change fresh removed added] := by
  unfold extend
  split
  · rename_i id taken put last
    rcases List.getLast?_eq_some_iff.mp last with ⟨front, same⟩
    exact absurd same (closed front id taken put)
  · rfl

theorem size_extend (fresh : BlockId) (removed added : List String) (draft : List Passage) :
    size (extend fresh removed added draft) = size draft + (removed.length + added.length) := by
  unfold extend
  split
  · rename_i id taken put last
    rcases List.getLast?_eq_some_iff.mp last with ⟨front, rfl⟩
    simp [Passage.size]
    omega
  · simp [Passage.size]

theorem Closed.stop_lt (closed : Closed draft) {row : Nat} {block : Block}
    (member : block ∈ blocks row draft) : block.span.stop < row + size draft := by
  induction draft using List.reverseRecOn with
  | nil => simp [blocks] at member
  | append_singleton front passage =>
      cases passage with
      | kept text =>
          have inside : block ∈ blocks row front := by
            simpa [blocks_append, blocks] using member
          have bounds := mem_blocks inside
          simp only [size_append, size_cons, size_nil, Passage.size]
          omega
      | change id removed added => exact absurd rfl (closed front id removed added)

theorem fits_of_size (small : size draft < rowLimit) : (tracker draft).fits = true := by
  rw [fits_iff_mem]
  constructor
  · intro range member
    change range ∈ ranges 0 draft at member
    have bounds := mem_ranges member
    omega
  · intro ghost member
    change ghost ∈ ghosts 0 draft at member
    have bounds := mem_ghosts member
    omega

/-! ## Recording rows -/

theorem gapped_nil (front : List Passage) (low : Nat) : gapped front low [] = tracker front := by
  simp [gapped, tracker, blocks, ghosts]

theorem addRemoved_gapped (id : BlockId) (texts : List String) :
    (gapped above (size above + texts.length) below).addRemoved (size above) texts =
      (tracker (above ++ .change id texts [] :: below)).checked := by
  have before : ∀ ghost ∈ ghosts 0 above, decide (ghost.row < size above) = true := by
    intro ghost member
    have bounds := mem_ghosts member
    exact decide_eq_true (by omega)
  have behind : ∀ ghost ∈ ghosts (size above + texts.length) below,
      ¬decide (ghost.row < size above) = true := by
    intro ghost member
    have bounds := mem_ghosts member
    simp only [decide_eq_true_eq]
    omega
  have placed : Tracker.insertGhosts (size above)
      (ghosts 0 above ++ ghosts (size above + texts.length) below) texts =
        ghosts 0 (above ++ .change id texts [] :: below) := by
    rw [Tracker.insertGhosts, List.takeWhile_append_of_pos before,
      List.dropWhile_append_of_pos before, ghosts_append, ghosts]
    cases rest : ghosts (size above + texts.length) below with
    | nil => simp [rest]
    | cons ghost later =>
        have first := behind ghost (by rw [rest]; exact List.mem_cons_self)
        simp [first, rest]
  have ranges : (gapped above (size above + texts.length) below).added =
      (tracker (above ++ .change id texts [] :: below)).added := by
    rw [tracker_append]
    simp [gapped, blocks, Block.addedRanges]
  rw [Tracker.addRemoved, ranges]
  simp only [gapped, placed]
  rfl

/-- One more ghost below the ghosts of a change, whose added rows make way. -/
theorem record_removed (id : BlockId) (text : String) {cursor : Nat} {moved : Tracker}
    (fits : (tracker (above ++ below)).fits = true) (stop : size (above ++ below) = cursor) :
    (do
      let tracker ← (tracker (above ++ below)).shiftFrom (cursor + 1) (-1)
      let tracker ← tracker.shiftFrom (size above) 1
      tracker.addRemoved (size above) [text]) = .ok moved ↔
      moved = tracker (above ++ .change id [text] [] :: below) ∧
        (tracker (above ++ .change id [text] [] :: below)).fits = true := by
  -- Nothing is tracked below the cursor.
  have still : (tracker (above ++ below)).shiftFrom (cursor + 1) (-1) =
      .ok (tracker (above ++ below)) := by
    have nothing := @shiftFrom_gapped (above ++ below) [] (cursor + 1) (cursor + 1) cursor (-1)
      (tracker (above ++ below)) (by omega) (Nat.le_refl _) (by omega) (by omega)
    rw [gapped_nil, gapped_nil] at nothing
    exact (nothing fits).mpr ⟨rfl, fits⟩
  rw [still, ok_bind, tracker_append, bind_eq_ok]
  rw [tracker_append] at fits
  simp only [shiftFrom_gapped (Nat.le_refl (size above)) (Nat.le_refl _) (Nat.le_succ _)
    (show ((size above : Nat) : Int) + 1 = (size above + 1 : Nat) by omega) fits]
  have added := @addRemoved_gapped above below id [text]
  rw [List.length_singleton] at added
  have checked := (tiled (above ++ .change id [text] [] :: below)).checked_eq
  constructor
  · rintro ⟨_, ⟨rfl, _⟩, recorded⟩
    rw [added, checked] at recorded
    split at recorded
    · rename_i small
      exact ⟨(Except.ok.inj recorded).symm, small⟩
    · simp at recorded
  · rintro ⟨rfl, small⟩
    refine ⟨_, ⟨rfl, fits_gapped_of_change small⟩, ?_⟩
    rw [added, checked, if_pos small]

theorem insertAdded_append {ranges later : List AddedRange} {start count : Nat}
    (above : ∀ range ∈ ranges, range.start < start ∧ range.stop ≠ start) :
    Tracker.insertAdded start count (ranges ++ later) =
      ranges ++ Tracker.insertAdded start count later := by
  induction ranges with
  | nil => rfl
  | cons range rest ih =>
      have here := above range List.mem_cons_self
      rw [List.cons_append, Tracker.insertAdded, if_neg (by omega), if_neg here.2,
        ih fun other member => above other (List.mem_cons_of_mem range member)]
      rfl

theorem addAdded_closed (closed : Closed draft) (id : BlockId) (text : String) :
    (tracker draft).addAdded (size draft) 1 =
      (tracker (draft ++ [.change id [] [text]])).checked := by
  have above : ∀ range ∈ ranges 0 draft, range.start < size draft ∧ range.stop ≠ size draft := by
    intro range member
    have filled := (mem_ranges member).2.2
    rcases List.mem_flatMap.mp member with ⟨block, present, inside⟩
    have bounds := closed.stop_lt present
    unfold Block.addedRanges at inside
    split at inside
    · simp at inside
    · rw [List.mem_singleton.mp inside] at filled ⊢
      simp only [Block.span, Span.stop, AddedRange.stop] at bounds ⊢
      omega
  have placed := @insertAdded_append _ [] _ 1 above
  rw [List.append_nil] at placed
  have result : { tracker draft with
      added := Tracker.insertAdded (size draft) 1 (ranges 0 draft) } =
        tracker (draft ++ [.change id [] [text]]) := by
    rw [placed]
    simp [tracker, ranges, blocks_append, ghosts_append, blocks, ghosts, Tracker.ghostRows,
      Block.addedRanges, Tracker.insertAdded]
  rw [Tracker.addAdded, if_neg Nat.one_ne_zero, ← result]
  rfl

theorem addAdded_open (filled : 0 < removed.length + added.length) (text : String) :
    (tracker (front ++ [.change id removed added])).addAdded
        (size (front ++ [.change id removed added])) 1 =
      (tracker (front ++ [.change id removed (added ++ [text])])).checked := by
  have width : size (front ++ [.change id removed added]) =
      size front + removed.length + added.length := by
    simp [Passage.size]
    omega
  have above : ∀ range ∈ ranges 0 front,
      range.start < size front + removed.length + added.length ∧
        range.stop ≠ size front + removed.length + added.length := by
    intro range member
    have bounds := mem_ranges member
    simp only [AddedRange.stop] at bounds ⊢
    omega
  have before : (tracker (front ++ [.change id removed added])).added =
      ranges 0 front ++ Block.addedRanges ⟨id, size front, removed.length, added.length⟩ := by
    simp [tracker, ranges, blocks_append, blocks]
  have behind : (tracker (front ++ [.change id removed (added ++ [text])])).added =
      ranges 0 front ++ Block.addedRanges ⟨id, size front, removed.length, added.length + 1⟩ := by
    simp [tracker, ranges, blocks_append, blocks]
  have ghosts : (tracker (front ++ [.change id removed added])).ghosts =
      (tracker (front ++ [.change id removed (added ++ [text])])).ghosts := by
    simp [tracker, ghosts_append, Draft.ghosts]
  have grown : Tracker.insertAdded (size front + removed.length + added.length) 1
      (Block.addedRanges ⟨id, size front, removed.length, added.length⟩) =
        Block.addedRanges ⟨id, size front, removed.length, added.length + 1⟩ := by
    unfold Block.addedRanges
    by_cases none : added.length = 0
    · simp [none, Tracker.insertAdded]
    · simp only [none, if_false, Nat.add_one_ne_zero]
      have meets : AddedRange.stop ⟨size front + removed.length, added.length⟩ =
          size front + removed.length + added.length := rfl
      rw [Tracker.insertAdded, if_neg (by simp only; omega), if_pos meets]
  have result : { tracker (front ++ [.change id removed added]) with
      added := Tracker.insertAdded (size front + removed.length + added.length) 1
        (tracker (front ++ [.change id removed added])).added } =
      tracker (front ++ [.change id removed (added ++ [text])]) := by
    rw [before, insertAdded_append above, grown, ← behind]
    simp only [ghosts]
  rw [Tracker.addAdded, if_neg Nat.one_ne_zero, width, result]

theorem tracker_removed_removed (id other : BlockId) (taken removed added : List String) :
    tracker (front ++ .change id taken [] :: .change other removed added :: back) =
      tracker (front ++ .change other (taken ++ removed) added :: back) := by
  simp [tracker, blocks_append, ghosts_append, blocks, ghosts, ghostRows_append,
    Block.addedRanges, Nat.add_assoc]

theorem tracker_removed_added (id other : BlockId) (removed added : List String) :
    tracker (front ++ .change id removed [] :: .change other [] added :: back) =
      tracker (front ++ .change other removed added :: back) := by
  have joined := @tracker_removed_removed front back id other removed [] added
  rwa [List.append_nil] at joined

theorem tracker_kept (draft : List Passage) (text : String) :
    tracker (draft ++ [.kept text]) = tracker draft := by
  simp [tracker, blocks_append, ghosts_append, blocks, ghosts]

def openRun (draft : List Passage) : Option OpenRun :=
  match draft.getLast? with
  | some (.change _ removed _) => some ⟨size draft.dropLast, removed.length⟩
  | _ => none

theorem closed_or_open (draft : List Passage) : (Closed draft ∧ openRun draft = none) ∨
    ∃ front id removed added, draft = front ++ [.change id removed added] ∧
      openRun draft = some ⟨size front, removed.length⟩ := by
  rcases List.eq_nil_or_concat draft with rfl | ⟨front, passage, rfl⟩
  · exact .inl ⟨closed_of_plain rfl, rfl⟩
  · rw [List.concat_eq_append]
    cases passage with
    | kept text => exact .inl ⟨closed_kept front text, by simp [openRun]⟩
    | change id removed added =>
        exact .inr ⟨front, id, removed, added, rfl, by simp [openRun]⟩

theorem lines_extend (fresh : BlockId) (removed added : List String) (draft : List Passage) :
    lines (extend fresh removed added draft) = lines draft ++ added := by
  rcases closed_or_open draft with ⟨closed, _⟩ | ⟨front, id, taken, put, rfl, _⟩
  · rw [extend_closed _ closed]
    simp [Passage.lines]
  · rw [extend_open]
    simp [Passage.lines]

end Draft

namespace Session

variable {session : Session} {draft : List Passage}

structure Streams (session : Session) (draft : List Passage) : Prop where
  tracks : session.Tracks draft
  width : Draft.size draft = session.cursor
  opened : session.openRun = Draft.openRun draft

theorem Streams.bufferLine_cursor (streams : session.Streams draft) :
    session.tracker.bufferLine session.cursor = (Draft.lines draft).length := by
  rw [← streams.width]
  apply @Draft.bufferLine_divided draft []
  rw [streams.tracks.tracker, List.append_nil]
  rfl

def fresh (session : Session) : BlockId := ⟨session.registry.stream, session.registry.minted⟩

def mints (session : Session) : Nat :=
  if session.openRun.isNone then session.registry.minted + 1 else session.registry.minted

def recorded (session : Session) (draft : List Passage) (minted : Nat)
    (committed : List String) : Session :=
  { session with
    tracker := Draft.tracker draft
    registry := { session.registry with minted, blocks := Draft.blocks 0 draft }
    cursor := session.cursor + 1
    openRun := Draft.openRun draft
    committed
    applied := session.applied + 1 }

theorem advance_eq {buffer : Buffer} {count : Nat} {registry : Registry}
    (synced : session.registry.sync session.tracker.spans = .ok (count, registry)) :
    session.advance buffer =
      let next := { session with
        registry, cursor := session.cursor + 1, applied := session.applied + 1 }
      .ok ⟨next, buffer, next.announce buffer .streaming, .ok ()⟩ := by
  simp only [advance, sync, synced, ok_bind]
  rfl

theorem Streams.sync_extend (streams : session.Streams draft) {removed added : List String}
    (filled : 0 < removed.length + added.length)
    (fits : (Draft.tracker (Draft.extend session.fresh removed added draft)).fits = true) :
    ∃ count, session.registry.sync
        (Draft.tracker (Draft.extend session.fresh removed added draft)).spans =
      .ok (count, { session.registry with
        minted := session.mints
        blocks := Draft.blocks 0 (Draft.extend session.fresh removed added draft) }) := by
  have whole := streams.tracks.filled.blocks 0
  -- A new change is a block below all others; one that is open is known by its start.
  rcases Draft.closed_or_open draft with ⟨closed, none⟩ | ⟨front, id, taken, put, rfl, some⟩
  · rw [Draft.extend_closed _ closed] at fits ⊢
    have blocks : Draft.blocks 0 (draft ++ [.change session.fresh removed added]) =
        session.registry.blocks ++
          [⟨session.fresh, Draft.size draft, removed.length, added.length⟩] := by
      rw [streams.tracks.blocks, Draft.blocks_append]
      simp [Draft.blocks]
    have tiled := Draft.tiled (draft ++ [.change session.fresh removed added])
    have mints : session.mints = session.registry.minted + 1 := by
      rw [mints, streams.opened, none]
      rfl
    rw [blocks] at tiled ⊢
    rw [mints]
    refine ⟨1, Registry.sync_new tiled ?_ fits ?_ rfl⟩
    · intro block member
      rcases List.mem_append.mp member with known | new
      · rw [streams.tracks.blocks] at known
        exact whole block known
      · rw [List.mem_singleton.mp new]
        exact filled
    · intro known member
      rw [streams.tracks.blocks] at member
      have below := closed.stop_lt member
      rwa [Nat.zero_add] at below
  · rw [Draft.extend_open] at fits ⊢
    have mints : session.mints = session.registry.minted := by
      rw [mints, streams.opened, some]
      rfl
    have tiled := Draft.tiled (front ++ [.change id (taken ++ removed) (put ++ added)])
    rw [mints]
    refine ⟨0, Registry.sync_known tiled ?_ fits ?_⟩
    · intro block member
      rw [Draft.blocks_append] at member whole
      rcases List.mem_append.mp member with known | last
      · exact whole block (List.mem_append_left _ known)
      · simp only [Draft.blocks, List.mem_singleton] at last
        rw [last]
        simp only [List.length_append]
        omega
    · rw [streams.tracks.blocks, Draft.blocks_append, Draft.blocks_append]
      simp [Draft.blocks]

theorem Streams.openRun_extend (streams : session.Streams draft) (removed added : List String) :
    Draft.openRun (Draft.extend session.fresh removed added draft) = some { session.currentRun with
      removed := session.currentRun.removed + removed.length } := by
  rcases Draft.closed_or_open draft with ⟨closed, none⟩ | ⟨front, id, taken, put, rfl, some⟩
  · rw [Draft.extend_closed _ closed, currentRun, streams.opened, none, ← streams.width]
    simp [Draft.openRun]
  · rw [Draft.extend_open, currentRun, streams.opened, some]
    simp [Draft.openRun]

theorem Streams.extended (streams : session.Streams draft) {removed added : List String}
    (single : removed.length + added.length = 1)
    (fits : (Draft.tracker (Draft.extend session.fresh removed added draft)).fits = true)
    (committed : List String) :
    (session.recorded (Draft.extend session.fresh removed added draft) session.mints
      committed).Streams (Draft.extend session.fresh removed added draft) := by
  have tracks := streams.tracks
  have width : Draft.size (Draft.extend session.fresh removed added draft) =
      session.cursor + 1 := by
    rw [Draft.size_extend, streams.width, single]
  refine ⟨⟨rfl, rfl, fits, ?_, ?_, ?_⟩, width, rfl⟩
  -- A new change brings the next id with it; one that is open keeps its own.
  all_goals
    rcases Draft.closed_or_open draft with ⟨closed, none⟩ | ⟨front, id, taken, put, rfl, some⟩
  · rw [Draft.extend_closed _ closed]
    intro passage member
    rcases List.mem_append.mp member with known | new
    · exact tracks.filled passage known
    · rw [List.mem_singleton.mp new, Passage.size, single]
      exact Nat.one_pos
  · rw [Draft.extend_open]
    intro passage member
    rcases List.mem_append.mp member with known | new
    · exact tracks.filled passage (List.mem_append_left _ known)
    · rw [List.mem_singleton.mp new]
      simp only [Passage.size, List.length_append]
      omega
  · rw [Draft.extend_closed _ closed, Draft.ids_append, Draft.ids_change_cons, List.nodup_append]
    refine ⟨tracks.distinct, by simp, ?_⟩
    intro known member new last same
    have older := (tracks.minted known member).2
    rw [Draft.ids_nil, List.mem_singleton] at last
    rw [same, last] at older
    exact Nat.lt_irrefl _ older
  · have distinct := tracks.distinct
    simpa [Draft.extend_open] using distinct
  · rw [Draft.extend_closed _ closed]
    have mints : session.mints = session.registry.minted + 1 := by
      rw [mints, streams.opened, none]
      rfl
    intro id member
    simp only [recorded, mints]
    rw [Draft.ids_append, Draft.ids_change_cons, Draft.ids_nil] at member
    rcases List.mem_append.mp member with known | new
    · have older := tracks.minted id known
      exact ⟨older.1, Nat.lt_succ_of_lt older.2⟩
    · rw [List.mem_singleton.mp new]
      exact ⟨rfl, Nat.lt_succ_self _⟩
  · rw [Draft.extend_open]
    have mints : session.mints = session.registry.minted := by
      rw [mints, streams.opened, some]
      rfl
    intro id member
    simp only [recorded, mints]
    apply tracks.minted
    simpa using member

theorem Streams.kept (streams : session.Streams draft) (text : String)
    (committed : List String) :
    (session.recorded (draft ++ [.kept text]) session.registry.minted committed).Streams
      (draft ++ [.kept text]) := by
  have tracks := streams.tracks
  have fits := tracks.fits
  rw [tracks.tracker, ← Draft.tracker_kept draft text] at fits
  refine ⟨⟨rfl, rfl, fits, ?_, ?_, ?_⟩, ?_, rfl⟩
  · intro passage member
    rcases List.mem_append.mp member with known | new
    · exact tracks.filled passage known
    · rw [List.mem_singleton.mp new]
      exact Nat.one_pos
  · simpa using tracks.distinct
  · intro id member
    apply tracks.minted
    simpa using member
  · rw [Draft.size_append, streams.width]
    rfl

/-! ## One line -/

theorem Streams.applySame (streams : session.Streams draft) {buffer : Buffer} {line : Nat}
    (present : line < buffer.lineCount) (text kept : String) :
    session.applySame buffer line text =
      let next := session.recorded (draft ++ [.kept kept]) session.registry.minted
        (session.committed ++ [text])
      .ok ⟨next, buffer, next.announce buffer .streaming, .ok ()⟩ := by
  have tracks := streams.tracks
  have blocks : Draft.blocks 0 (draft ++ [.kept kept]) = session.registry.blocks := by
    rw [tracks.blocks, Draft.blocks_append]
    simp [Draft.blocks]
  have opened : Draft.openRun (draft ++ [.kept kept]) = none := by simp [Draft.openRun]
  have advanced := @advance_eq
    { session with openRun := none, committed := session.committed ++ [text] } buffer _ _
    tracks.sync_registry
  rw [Session.applySame, if_pos present, advanced]
  simp only [recorded, Draft.tracker_kept, ← tracks.tracker, blocks, opened]

theorem Streams.shiftFrom_cursor (streams : session.Streams draft) {line high : Nat} {offset : Int}
    (behind : session.cursor ≤ line) (distance : (line : Int) + offset = high)
    (room : session.cursor ≤ high) :
    session.tracker.shiftFrom line offset = .ok session.tracker := by
  have fits := streams.tracks.fits
  rw [streams.tracks.tracker] at fits ⊢
  have still := @Draft.shiftFrom_gapped draft [] line line high offset (Draft.tracker draft)
  rw [Draft.gapped_nil, Draft.gapped_nil, streams.width] at still
  exact (still behind (Nat.le_refl _) room distance fits).mpr ⟨rfl, fits⟩

theorem Streams.addAdded_cursor (streams : session.Streams draft) (text : String) :
    session.tracker.addAdded session.cursor 1 =
      (Draft.tracker (Draft.extend session.fresh [] [text] draft)).checked := by
  rw [streams.tracks.tracker, ← streams.width]
  rcases Draft.closed_or_open draft with ⟨closed, none⟩ | ⟨front, id, taken, put, rfl, some⟩
  · rw [Draft.extend_closed _ closed]
    exact Draft.addAdded_closed closed session.fresh text
  · rw [Draft.extend_open, List.append_nil]
    apply Draft.addAdded_open
    exact streams.tracks.filled (.change id taken put) (by simp)

theorem Streams.applyAdded (streams : session.Streams draft) {buffer : Buffer} {line : Nat}
    (place : line ≤ buffer.lineCount) (text : String) {turn : Turn Unit} :
    session.applyAdded buffer line text = .ok turn ↔
      (Draft.tracker (Draft.extend session.fresh [] [text] draft)).fits = true ∧
        let next := session.recorded (Draft.extend session.fresh [] [text] draft) session.mints
          (session.committed ++ [text])
        let after : Buffer := ⟨buffer.lines.take line ++ [text] ++ buffer.lines.drop line⟩
        turn = ⟨next, after, next.announce after .streaming, .ok ()⟩ := by
  have still : session.tracker.shiftFrom session.cursor 1 = .ok session.tracker :=
    streams.shiftFrom_cursor (Nat.le_refl _) (Int.natCast_add_one _) (Nat.le_succ _)
  have tiled := Draft.tiled (Draft.extend session.fresh [] [text] draft)
  rw [Session.applyAdded, Buffer.insert, if_pos place]
  simp only [still, ok_bind, streams.addAdded_cursor text, tiled.checked_eq]
  split
  · rename_i fits
    rcases @Streams.sync_extend _ _ streams [] [text] (by simp) fits with ⟨count, synced⟩
    rw [ok_bind, advance_eq synced]
    simp only [fits, true_and, recorded, streams.openRun_extend, Except.ok.injEq]
    exact eq_comm
  · rename_i overflow
    simp [overflow, bind, Except.bind]

theorem Streams.divided (streams : session.Streams draft) : ∃ above below,
    Draft.tracker draft = Draft.tracker (above ++ below) ∧
    Draft.size (above ++ below) = session.cursor ∧
    Draft.size above = session.currentRun.start + session.currentRun.removed ∧
    ∀ text, Draft.tracker (above ++ .change session.fresh [text] [] :: below) =
      Draft.tracker (Draft.extend session.fresh [text] [] draft) := by
  rcases Draft.closed_or_open draft with ⟨closed, none⟩ | ⟨front, id, taken, put, rfl, some⟩
  · refine ⟨draft, [], by rw [List.append_nil], ?_, ?_, ?_⟩
    · rw [List.append_nil, streams.width]
    · rw [currentRun, streams.opened, none, streams.width]
      rfl
    · intro text
      rw [Draft.extend_closed _ closed]
  · refine ⟨front ++ [.change id taken []], [.change id [] put], ?_, ?_, ?_, ?_⟩
    · rw [List.append_assoc]
      exact (Draft.tracker_removed_added id id taken put).symm
    · rw [← streams.width]
      simp [Passage.size]
    · rw [currentRun, streams.opened, some]
      simp [Passage.size]
    · intro text
      rw [Draft.extend_open, List.append_nil, List.append_assoc, List.singleton_append,
        Draft.tracker_removed_removed, Draft.tracker_removed_added]

theorem Streams.applyRemoved (streams : session.Streams draft) {buffer : Buffer} {line : Nat}
    {text : String} (present : buffer.lines[line]? = some text) {turn : Turn Unit} :
    session.applyRemoved buffer line = .ok turn ↔
      (Draft.tracker (Draft.extend session.fresh [text] [] draft)).fits = true ∧
        let next := session.recorded (Draft.extend session.fresh [text] [] draft) session.mints
          session.committed
        let after : Buffer := ⟨buffer.lines.take line ++ buffer.lines.drop (line + 1)⟩
        turn = ⟨next, after, next.announce after .streaming, .ok ()⟩ := by
  rcases streams.divided with ⟨above, below, same, stop, place, result⟩
  have inside : line < buffer.lineCount := (List.getElem?_eq_some_iff.mp present).1
  have taken : (buffer.lines.drop line).take 1 = [text] := by
    rw [List.take_one, List.head?_drop, present]
    rfl
  have tracker : session.tracker = Draft.tracker (above ++ below) :=
    streams.tracks.tracker.trans same
  have fits := streams.tracks.fits
  rw [tracker] at fits
  have recorded (moved : Tracker) :=
    @Draft.record_removed above below session.fresh text _ moved fits stop
  have run := streams.openRun_extend [text] []
  rw [Session.applyRemoved, if_pos inside]
  simp only [Buffer.delete, if_pos (Nat.succ_le_of_lt inside), taken, ← place, tracker]
  simp only [result, bind_eq_ok] at recorded ⊢
  have advanced (small : (Draft.tracker (Draft.extend session.fresh [text] [] draft)).fits = true)
      (after : Buffer) : advance { session with
        tracker := Draft.tracker (Draft.extend session.fresh [text] [] draft)
        openRun := some { session.currentRun with removed := session.currentRun.removed + 1 } }
          after =
      let next := session.recorded (Draft.extend session.fresh [text] [] draft) session.mints
        session.committed
      .ok ⟨next, after, next.announce after .streaming, .ok ()⟩ := by
    rcases @Streams.sync_extend _ _ streams [text] [] (by simp) small with ⟨count, synced⟩
    rw [advance_eq synced]
    simp only [Session.recorded, run, List.length_singleton]
  constructor
  · rintro ⟨first, still, second, shifted, third, added, last⟩
    rcases (recorded third).mp ⟨first, still, second, shifted, added⟩ with ⟨rfl, small⟩
    rw [advanced small] at last
    exact ⟨small, (Except.ok.inj last).symm⟩
  · rintro ⟨small, rfl⟩
    rcases (recorded _).mpr ⟨rfl, small⟩ with ⟨first, still, second, shifted, added⟩
    exact ⟨first, still, second, shifted, _, added, advanced small _⟩

end Session

end Redline
