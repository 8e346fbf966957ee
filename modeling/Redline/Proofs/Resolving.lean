import Redline.Proofs.Hosting

namespace Redline

namespace Row

def closeUp (first count row : Nat) : Nat := if row < first then row else row - count

theorem map_closeUp {α : Type} {place : α → Nat} {put : α → Nat → α} {kept : α → Bool}
    {front gone back : List α} {first count low high : Nat}
    (same : ∀ element, put element (place element) = element) (reach : first ≤ high)
    (distance : high + count = low)
    (above : ∀ element ∈ front, kept element = true ∧ place element < first)
    (dropped : ∀ element ∈ gone, kept element = false)
    (below : ∀ element ∈ back, kept element = true ∧ low ≤ place element) :
    ((front ++ (gone ++ back)).filter kept).map
        (fun element => put element (closeUp first count (place element))) =
      front ++ back.map fun element => put element (place element - low + high) := by
  have stays : front.map (fun element => put element (closeUp first count (place element))) =
      front := by
    rw [List.map_congr_left (g := id), List.map_id]
    intro element member
    rw [closeUp, if_pos (above element member).2]
    exact same element
  have moves : back.map (fun element => put element (closeUp first count (place element))) =
      back.map fun element => put element (place element - low + high) := by
    apply List.map_congr_left
    intro element member
    have order := (below element member).2
    have target : closeUp first count (place element) = place element - low + high := by
      rw [closeUp, if_neg (by omega)]
      omega
    rw [target]
  calc ((front ++ (gone ++ back)).filter kept).map
        (fun element => put element (closeUp first count (place element)))
      = (front ++ back).map fun element => put element (closeUp first count (place element)) := by
        rw [List.filter_append, List.filter_append,
          List.filter_eq_self.mpr fun element member => (above element member).1,
          List.filter_eq_nil_iff.mpr fun element member => by simp [dropped element member],
          List.filter_eq_self.mpr fun element member => (below element member).1,
          List.nil_append]
    _ = front ++ back.map fun element => put element (place element - low + high) := by
        rw [List.map_append, stays, moves]

end Row

namespace Draft

variable {front back : List Passage} {id : BlockId} {removed added texts : List String}

def blockAt (front : List Passage) (id : BlockId) (removed added : List String) : Block :=
  ⟨id, size front, removed.length, added.length⟩

theorem blocks_divided (front back : List Passage) (id : BlockId) (removed added : List String) :
    blocks 0 (front ++ .change id removed added :: back) = blocks 0 front ++
      ([blockAt front id removed added] ++
        blocks (size front + (removed.length + added.length)) back) := by
  rw [blocks_append, blocks, Nat.zero_add]
  rfl

theorem ranges_divided (front back : List Passage) (id : BlockId) (removed added : List String) :
    (tracker (front ++ .change id removed added :: back)).added = ranges 0 front ++
      ((blockAt front id removed added).addedRanges ++
        ranges (size front + (removed.length + added.length)) back) := by
  rw [tracker, blocks_divided, List.flatMap_append, List.flatMap_append, List.flatMap_singleton]
  rfl

theorem ghosts_divided (front back : List Passage) (id : BlockId) (removed added : List String) :
    ghosts 0 (front ++ .change id removed added :: back) = ghosts 0 front ++
      (Tracker.ghostRows (size front) removed ++
        ghosts (size front + (removed.length + added.length)) back) := by
  rw [ghosts_append, Nat.zero_add]
  rfl

theorem id_resolved (distinct : (ids (front ++ .change id removed added :: back)).Nodup)
    (texts : List String) : id ∉ ids (front ++ (texts.map .kept ++ back)) := by
  rw [ids_append, ids_change_cons, List.nodup_append, List.nodup_cons] at distinct
  simp only [ids_append, ids_kept, List.nil_append, List.mem_append]
  rintro (above | below)
  · exact distinct.2.2 id above id List.mem_cons_self rfl
  · exact distinct.2.1.1 below

variable {count : Nat} (width : texts.length + count = removed.length + added.length)

include width

theorem blocks_resolved (filled : Filled (front ++ .change id removed added :: back)) :
    blocks 0 (front ++ (texts.map .kept ++ back)) =
    ((blocks 0 (front ++ .change id removed added :: back)).filter fun other =>
      decide (other ≠ blockAt front id removed added)).map fun other =>
        { other with start := Row.closeUp (size front) count other.start } := by
  rcases List.forall_mem_append.mp filled with ⟨above, later⟩
  rcases List.forall_mem_cons.mp later with ⟨whole, below⟩
  have whole : 0 < removed.length + added.length := whole
  have target : blocks 0 (front ++ (texts.map .kept ++ back)) =
      blocks 0 front ++ blocks (size front + texts.length) back := by
    simp [blocks_append]
  rw [target, blocks_divided,
    ← blocks_moved (size front + (removed.length + added.length)) (size front + texts.length)]
  symm
  apply @Row.map_closeUp Block Block.start (fun other start => { other with start })
  · exact fun _ => rfl
  · exact Nat.le_add_right _ _
  · omega
  · intro other member
    have bounds := mem_blocks member
    have some := Filled.blocks above 0 other member
    simp only [Block.span, Span.stop] at bounds
    have start : other.start < size front := by omega
    refine ⟨decide_eq_true ?_, start⟩
    rintro rfl
    exact Nat.lt_irrefl _ start
  · intro other member
    rw [List.mem_singleton.mp member]
    simp
  · intro other member
    have start := (mem_blocks member).1
    refine ⟨decide_eq_true ?_, start⟩
    rintro rfl
    simp only [blockAt] at start
    omega

theorem ghosts_resolved : ghosts 0 (front ++ (texts.map .kept ++ back)) =
    ((ghosts 0 (front ++ .change id removed added :: back)).filter fun ghost =>
      decide (ghost.row ∉ (blockAt front id removed added).ghostRows)).map fun ghost =>
        { ghost with row := Row.closeUp (size front) count ghost.row } := by
  have target : ghosts 0 (front ++ (texts.map .kept ++ back)) =
      ghosts 0 front ++ ghosts (size front + texts.length) back := by
    simp [ghosts_append]
  rw [target, ghosts_divided,
    ← ghosts_moved (size front + (removed.length + added.length)) (size front + texts.length)]
  symm
  apply @Row.map_closeUp Ghost Ghost.row (fun ghost row => { ghost with row })
  · exact fun _ => rfl
  · exact Nat.le_add_right _ _
  · omega
  · intro ghost member
    have bounds := mem_ghosts member
    rw [decide_eq_true_eq, Block.ghostRows, List.mem_range'_1]
    simp only [blockAt]
    omega
  · intro ghost member
    have row := List.mem_map_of_mem (f := Ghost.row) member
    rw [map_row_ghostRows] at row
    exact decide_eq_false fun absent => absent row
  · intro ghost member
    have bounds := mem_ghosts member
    rw [decide_eq_true_eq, Block.ghostRows, List.mem_range'_1]
    simp only [blockAt]
    omega

theorem ranges_resolved : (tracker (front ++ (texts.map .kept ++ back))).added =
    ((tracker (front ++ .change id removed added :: back)).added.filter fun range =>
      decide (range ∉ (blockAt front id removed added).addedRanges)).map fun range =>
        { range with start := Row.closeUp (size front) count range.start } := by
  have target : (tracker (front ++ (texts.map .kept ++ back))).added =
      ranges 0 front ++ ranges (size front + texts.length) back := by
    rw [← gapped_eq texts rfl, gapped_added]
  -- The range of a block starts below its ghosts, so no other range starts there.
  have own : ∀ range ∈ (blockAt front id removed added).addedRanges,
      range.start = size front + removed.length ∧ 0 < added.length := by
    intro range member
    unfold Block.addedRanges at member
    split at member
    · simp at member
    · rename_i some
      rw [List.mem_singleton.mp member]
      exact ⟨rfl, Nat.pos_of_ne_zero some⟩
  rw [target, ranges_divided,
    ← ranges_moved (size front + (removed.length + added.length)) (size front + texts.length)]
  symm
  apply @Row.map_closeUp AddedRange AddedRange.start (fun range start => { range with start })
  · exact fun _ => rfl
  · exact Nat.le_add_right _ _
  · omega
  · intro range member
    have bounds := mem_ranges member
    simp only [AddedRange.stop] at bounds
    refine ⟨decide_eq_true ?_, by omega⟩
    intro inside
    have start := own range inside
    omega
  · intro range member
    simpa using member
  · intro range member
    have bounds := mem_ranges member
    refine ⟨decide_eq_true ?_, bounds.1⟩
    intro inside
    have start := own range inside
    omega

end Draft

namespace Session

variable {session next : Session} {draft front back : List Passage} {buffer after : Buffer}
  {id : BlockId} {removed added : List String}

/-! ## One decision -/

/-- Rejecting a block can be refused, which leaves no trace. Otherwise kept lines take the place of
the change: the added lines if it is accepted, the removed ones if not. -/
theorem Tracks.resolve_change (tracks : session.Tracks (front ++ .change id removed added :: back))
    (state : session.state = .reviewing) (stored : session.Stored buffer) (accept : Bool) :
    (accept = false ∧
      ∃ error, session.resolve buffer id accept = .ok (session.refuse buffer error)) ∨
    ∃ (texts : List String) (after : Buffer),
      texts.length = (if accept then added.length else removed.length) ∧
      (accept = true → after = buffer) ∧
      let next := session.redraft (front ++ (texts.map .kept ++ back))
      next.Tracks (front ++ (texts.map .kept ++ back)) ∧
        session.resolve buffer id accept = .ok ⟨(next.concluded after).1, after,
          (next.concluded after).2, .ok ⟨Draft.blockAt front id removed added,
            next.registry.blocks.length, next.registry.blocks.length == 0⟩⟩ := by
  cases accept with
  | true =>
      have few : removed.length ≤ session.tracker.ghosts.length := by
        rw [tracks.ghosts, Draft.ghosts_divided, List.length_append, List.length_append,
          Draft.length_ghostRows]
        omega
      have limit := stored.ghosts
      have width : added.length =
          removed.length + added.length - min removed.length countLimit := by
        unfold Tracker.rowListLimit at limit
        unfold countLimit
        omega
      have later := @Tracks.settled _ _ _ _ _ _ tracks added (Nat.le_add_left _ _)
      exact .inr ⟨added, buffer, rfl, fun _ => rfl, later,
        resolve_eq state tracks.get? (tracks.accept buffer width) later.sync⟩
  | false =>
      by_cases room : (Draft.lines front).length + added.length ≤ buffer.lineCount
      · have limit := stored.lines
        have width : removed.length =
            removed.length + added.length - min added.length countLimit := by
          unfold Tracker.rowListLimit at limit
          unfold countLimit
          omega
        have later := @Tracks.settled _ _ _ _ _ _ tracks removed (Nat.le_add_right _ _)
        exact .inr ⟨removed, _, rfl, fun accepted => Bool.noConfusion accepted, later,
          resolve_eq state tracks.get? (tracks.restore room width) later.sync⟩
      · exact .inl ⟨rfl, _, resolve_refused state tracks.get? (tracks.restore_refused room)⟩

theorem Tracks.concluded_rows (tracks : session.Tracks draft) (buffer : Buffer) :
    (session.concluded buffer).1.tracker = Draft.tracker draft ∧
      (session.concluded buffer).1.registry.blocks = Draft.blocks 0 draft := by
  by_cases plain : Draft.ids draft = []
  · have blocks := Draft.blocks_plain plain 0
    have rows : Draft.tracker draft = Tracker.empty := by
      rw [Draft.tracker, blocks, Draft.ghosts_plain plain]
      rfl
    rw [tracks.concluded_plain plain, rows, blocks]
    exact ⟨rfl, rfl⟩
  · rw [tracks.concluded_busy plain]
    exact ⟨tracks.tracker, tracks.blocks⟩

/-! ## What is left -/

/-- What a session becomes as it goes on, whatever the host does to its buffer and its token. -/
inductive Continues (session : Session) : Session → Prop where
  | here : Continues session session
  | step {middle next : Session} {buffer after : Buffer} {operation : Operation} :
      Continues session middle → middle.perform buffer operation = .ok (next, after) →
      Continues session next
  | fire {middle : Session} :
      Continues session middle → Continues session { middle with cancelled := true }

structure Dwindles (session next : Session) : Prop where
  settled : next.state ≠ .streaming
  ids : (next.registry.blocks.map Block.id).Sublist (session.registry.blocks.map Block.id)

theorem Dwindles.refl (settled : session.state ≠ .streaming) : session.Dwindles session :=
  ⟨settled, List.Sublist.refl _⟩

theorem Dwindles.congr (dwindles : session.Dwindles next) {other : Session}
    (state : other.state = next.state) (registry : other.registry = next.registry) :
    session.Dwindles other :=
  ⟨state ▸ dwindles.settled, registry ▸ dwindles.ids⟩

theorem Dwindles.trans {last : Session} (one : session.Dwindles next)
    (two : next.Dwindles last) : session.Dwindles last :=
  ⟨two.settled, two.ids.trans one.ids⟩

theorem Dwindles.of_none (settled : next.state ≠ .streaming)
    (none : next.registry.blocks = []) : session.Dwindles next := by
  refine ⟨settled, ?_⟩
  rw [none]
  exact List.nil_sublist _

theorem close_dwindles (session other : Session) (buffer : Buffer) :
    session.Dwindles (other.close buffer).1 :=
  .of_none (by simp [close]) rfl

theorem Tracks.concluded_dwindles (tracks : session.Tracks draft)
    (state : session.state = .reviewing) {later : List Passage}
    (fewer : (Draft.ids later).Sublist (Draft.ids draft)) (buffer : Buffer) :
    session.Dwindles ((session.redraft later).concluded buffer).1 := by
  rw [Session.concluded]
  split
  · exact close_dwindles session _ buffer
  · have settled : session.state ≠ .streaming := by simp [state]
    refine ⟨settled, ?_⟩
    rw [tracks.blocks, Draft.map_id_blocks]
    change ((Draft.blocks 0 later).map Block.id).Sublist _
    rw [Draft.map_id_blocks]
    exact fewer

theorem Coherent.edit_dwindles (coherent : session.Coherent)
    (settled : session.state ≠ .streaming) {line : Nat} {delta : Int} {turn : Turn Bool}
    (applied : session.applyEdit buffer line delta = .ok turn) :
    session.Dwindles turn.session := by
  cases coherent.hears applied with
  | ignored => exact .refl settled
  | still => exact .refl settled
  | followed state _ tracks _ fewer => exact tracks.concluded_dwindles state fewer buffer

theorem Coherent.resolve_dwindles (coherent : session.Coherent)
    (settled : session.state ≠ .streaming) {accept : Bool} {turn : Turn Resolution}
    (resolved : session.resolve buffer id accept = .ok turn) : session.Dwindles turn.session := by
  cases coherent.decides resolved with
  | refused => exact .refl settled
  | settled state _ tracks _ fewer => exact tracks.concluded_dwindles state fewer _

/-- Only a stream makes blocks, and no session goes back to streaming. -/
theorem Coherent.dwindles (coherent : session.Coherent) (settled : session.state ≠ .streaming)
    {operation : Operation} (performed : session.perform buffer operation = .ok (next, after)) :
    session.Dwindles next := by
  cases operation with
  | begin =>
      have refused : session.beginRun = .error (.invalidState "run" session.state) := by
        rw [beginRun, if_pos (.inr (.inr settled))]
      simp only [Session.perform, refused] at performed
      cases performed
      exact .refl settled
  | line line =>
      rcases bind_eq_ok.mp performed with ⟨turn, applied, last⟩
      cases last
      rw [applyLine_refused settled] at applied
      cases applied
      exact .refl settled
  | finish =>
      cases performed
      rw [finish_settled settled]
      exact (Dwindles.refl settled).congr rfl rfl
  | take =>
      cases performed
      exact (Dwindles.refl settled).congr rfl rfl
  | resolve id accept =>
      rcases bind_eq_ok.mp performed with ⟨turn, resolved, last⟩
      cases last
      exact coherent.resolve_dwindles settled resolved
  | clear accept =>
      rcases bind_eq_ok.mp performed with ⟨turn, cleared, last⟩
      cases last
      rcases coherent.clear_or_refuse cleared with ⟨kept, rfl⟩ | ⟨_, error, rfl⟩
      · exact close_dwindles session session kept
      · exact .refl settled
  | discard =>
      cases performed
      exact .of_none (by simp [discard]) rfl
  | edit line delta =>
      rcases bind_eq_ok.mp performed with ⟨turn, applied, last⟩
      cases last
      exact coherent.edit_dwindles settled applied

theorem Continues.dwindles {later : Session} (continues : session.Continues later)
    (coherent : session.Coherent) (settled : session.state ≠ .streaming) :
    later.Coherent ∧ session.Dwindles later := by
  induction continues with
  | here => exact ⟨coherent, .refl settled⟩
  | step _ performed ih =>
      rcases ih with ⟨coherent, before⟩
      exact ⟨coherent.perform performed,
        before.trans (coherent.dwindles before.settled performed)⟩
  | fire _ ih => exact ⟨ih.1.fire, ih.2.congr rfl rfl⟩

theorem Continues.get?_eq_none {later : Session} (continues : session.Continues later)
    (coherent : session.Coherent) (settled : session.state ≠ .streaming)
    (absent : id ∉ session.registry.blocks.map Block.id) : later.registry.get? id = none := by
  rcases continues.dwindles coherent settled with ⟨coherent, dwindles⟩
  rcases coherent.tracks with ⟨draft, tracks⟩
  apply tracks.get?_eq_none
  rw [← Draft.map_id_blocks 0, ← tracks.blocks]
  exact fun found => absent (dwindles.ids.subset found)

/-- Every block but one is left, and so are its rows. Blocks above the one that went stand where
they were, those below it stand `count` rows higher, and their rows move with them. -/
structure Leaves (session next : Session) (block : Block) (count : Nat) : Prop where
  blocks : next.registry.blocks = (session.registry.blocks.filter fun other =>
    decide (other ≠ block)).map fun other =>
      { other with start := Row.closeUp block.start count other.start }
  ghosts : next.tracker.ghosts = (session.tracker.ghosts.filter fun ghost =>
    decide (ghost.row ∉ block.ghostRows)).map fun ghost =>
      { ghost with row := Row.closeUp block.start count ghost.row }
  added : next.tracker.added = (session.tracker.added.filter fun range =>
    decide (range ∉ block.addedRanges)).map fun range =>
      { range with start := Row.closeUp block.start count range.start }
  apart : ∀ other ∈ session.registry.blocks, other ≠ block → other.start < other.span.stop ∧
    ((other.span.stop ≤ block.start ∧
        ∀ row < other.span.stop, Row.closeUp block.start count row = row) ∨
      (block.span.stop ≤ other.start ∧
        ∀ row, other.start ≤ row → Row.closeUp block.start count row + count = row))

theorem Tracks.leaves (tracks : session.Tracks (front ++ .change id removed added :: back))
    {texts : List String} {count : Nat}
    (width : texts.length + count = removed.length + added.length) {buffer : Buffer} :
    session.Leaves
      ((session.redraft (front ++ (texts.map .kept ++ back))).concluded buffer).1
      (Draft.blockAt front id removed added) count := by
  have settled := @Tracks.settled _ _ _ _ _ _ tracks texts (by omega)
  rcases settled.concluded_rows buffer with ⟨tracker, blocks⟩
  refine ⟨?_, ?_, ?_, ?_⟩
  · rw [blocks, tracks.blocks]
    exact Draft.blocks_resolved width tracks.filled
  · rw [tracker, tracks.ghosts]
    exact Draft.ghosts_resolved width
  · rw [tracker, tracks.tracker]
    exact Draft.ranges_resolved width
  · intro other member distinct
    have member := member
    rw [tracks.blocks, Draft.blocks_divided] at member
    have some : other.start < other.span.stop := by
      have filled := tracks.filled.blocks 0 other (by rwa [Draft.blocks_divided])
      simp only [Block.span, Span.stop]
      omega
    refine ⟨some, ?_⟩
    rcases List.mem_append.mp member with above | later
    · have bounds := (Draft.mem_blocks above).2
      have order : other.span.stop ≤ Draft.size front := by omega
      refine .inl ⟨order, ?_⟩
      intro row inside
      exact if_pos (Nat.lt_of_lt_of_le inside order)
    · rcases List.mem_append.mp later with same | below
      · exact absurd (List.mem_singleton.mp same) distinct
      · have start := (Draft.mem_blocks below).1
        refine .inr ⟨?_, ?_⟩
        · simp only [Draft.blockAt, Block.span, Span.stop]
          omega
        · intro row inside
          rw [Row.closeUp, Draft.blockAt, if_neg (by simp only; omega)]
          omega

/-- However close blocks have come to one another, resolving one of them leaves the others as they
are. Those below it close up to it, and it is not found again. -/
theorem Reachable.resolving_leaves_others (reachable : Reachable session buffer)
    (state : session.state = .reviewing) (stored : session.Stored buffer) {block : Block}
    (present : block ∈ session.registry.blocks) (accept : Bool) :
    ∃ turn, session.resolve buffer block.id accept = .ok turn ∧
      (accept = true → ∃ resolution, turn.outcome = .ok resolution) ∧
      ∀ resolution, turn.outcome = .ok resolution →
        session.Leaves turn.session block (if accept then block.red else block.green) ∧
        (accept = true → turn.buffer = buffer) ∧
        resolution.block = block ∧
        resolution.remaining = turn.session.registry.blocks.length ∧
        resolution.remaining + 1 = session.registry.blocks.length ∧
        (resolution.closed = true ↔ resolution.remaining = 0) ∧
        (resolution.closed = true ↔ turn.session.state = .idle) ∧
        ∀ later, turn.session.Continues later → later.registry.get? block.id = none := by
  have coherent := reachable.coherent
  rcases coherent.under_review state with ⟨draft, tracks, listens, _⟩
  rw [tracks.blocks] at present
  rcases Draft.mem_blocks_divided present with ⟨front, id, removed, added, back, rfl, same⟩
  rw [Nat.zero_add] at same
  subst same
  rcases tracks.resolve_change state stored accept with
    ⟨rfl, error, refused⟩ | ⟨texts, after, width, kept, settled, resolved⟩
  · refine ⟨_, refused, fun accepted => Bool.noConfusion accepted, ?_⟩
    intro resolution accepted
    cases accepted
  · refine ⟨_, resolved, fun _ => ⟨_, rfl⟩, ?_⟩
    intro resolution accepted
    cases accepted
    have left := (settled.concluded_rows after).2
    refine ⟨tracks.leaves ?_, kept, rfl, ?_, ?_, beq_iff_eq, ?_, ?_⟩
    · cases accept <;> simp [width, Nat.add_comm]
    · rw [left]
      exact congrArg List.length settled.blocks
    · rw [settled.length_blocks, tracks.length_blocks]
      simp
      omega
    · exact coherent.resolve_closed resolved rfl
    · intro later continues
      apply continues.get?_eq_none (settled.concluded state listens after)
      · exact (tracks.concluded_dwindles state (by simp) after).settled
      · rw [left, Draft.map_id_blocks]
        exact Draft.id_resolved tracks.distinct texts

def twoTouching : Session where
  bufferId := ⟨"t"⟩
  stream := ⟨1⟩
  state := .reviewing
  range := ⟨0, 2⟩
  initial := ["a", "b", "c"]
  tracker := ⟨[], [⟨0, "a"⟩, ⟨1, "c"⟩]⟩
  registry := ⟨⟨1⟩, 2, [⟨⟨⟨1⟩, 0⟩, 0, 1, 0⟩, ⟨⟨⟨1⟩, 1⟩, 1, 1, 0⟩]⟩
  cursor := 3
  openRun := none
  committed := ["b"]
  applied := 3
  running := false
  listening := true
  cancelled := false

theorem twoTouching_reachable (buffer : Buffer) : Reachable twoTouching buffer := by
  have started := @Reachable.start ⟨"t"⟩ ⟨1⟩ ⟨["a", "b", "c"]⟩ ⟨0, 2⟩ _ rfl
  have ran : Reachable twoTouching ⟨["b"]⟩ := by
    apply @Reachable.run _ _ _ _ [.begin, .line ⟨.removed, "a"⟩, .line ⟨.same, "b"⟩,
      .line ⟨.removed, "c"⟩, .finish, .edit 0 (-1)] started
    cbv
  exact ran.host buffer

/-- The ghosts of two blocks form one run, and the first of the two is accepted. -/
theorem twoTouching_resolved : twoTouching.state = .reviewing ∧ ∃ turn,
    twoTouching.resolve ⟨[""]⟩ ⟨⟨1⟩, 0⟩ true = .ok turn ∧
      turn.session.tracker.ghosts = [⟨0, "c"⟩] ∧
      turn.session.registry.blocks = [⟨⟨⟨1⟩, 1⟩, 0, 1, 0⟩] := by
  have present : ⟨⟨⟨1⟩, 0⟩, 0, 1, 0⟩ ∈ twoTouching.registry.blocks := List.mem_cons_self
  rcases (twoTouching_reachable ⟨[""]⟩).resolving_leaves_others rfl ⟨by decide, by decide⟩ present
    true with ⟨turn, resolved, accepted, leaves⟩
  rcases accepted rfl with ⟨resolution, outcome⟩
  rcases leaves resolution outcome with ⟨left, _⟩
  exact ⟨rfl, turn, resolved, left.ghosts, left.blocks⟩

end Session
end Redline
