import Redline.Proofs.Deciding
import Redline.Proofs.Driving

namespace Redline

open DiffLine (taken put isRun groups applicable merged)

namespace Draft

variable {draft : List Passage} {removed added : List String}

theorem outcome_ofGroups (choice : BlockId → Bool) (stream : StreamId) (number : Nat)
    (groups : List (List DiffLine)) (lines : List String) :
    outcome choice (ofGroups stream number groups lines) =
      merged (fun index => choice ⟨stream, index⟩) number groups lines := by
  induction groups generalizing number lines with
  | nil => rfl
  | cons group rest ih =>
      rw [ofGroups, merged]
      split
      · rw [outcome_cons, ih, Passage.outcome]
      · rw [outcome_append, outcome_kept, ih]

def ofStream (stream : StreamId) (first : Nat) (applied : List DiffLine) (lines : List String) :
    List Passage :=
  (lines.take first).map .kept ++ ofGroups stream 0 (groups applied) (lines.drop first) ++
    ((lines.drop first).drop (taken applied)).map .kept

theorem outcome_ofStream (choice : BlockId → Bool) (stream : StreamId) (first : Nat)
    (applied : List DiffLine) (lines : List String) :
    outcome choice (ofStream stream first applied lines) =
      DiffLine.mergedText (fun index => choice ⟨stream, index⟩) first applied lines := by
  calc outcome choice (ofStream stream first applied lines)
      = lines.take first ++
          outcome choice (ofGroups stream 0 (groups applied) (lines.drop first)) ++
          (lines.drop first).drop (taken applied) := by
        rw [ofStream, outcome_append, outcome_append, outcome_kept, outcome_kept]
    _ = lines.take first ++ (merged (fun index => choice ⟨stream, index⟩) 0 (groups applied)
          (lines.drop first) ++ lines.drop (first + taken applied)) := by
        rw [outcome_ofGroups, List.append_assoc, List.drop_drop]

theorem ids_ofStream (stream : StreamId) (first : Nat) (applied : List DiffLine)
    (lines : List String) : ids (ofStream stream first applied lines) =
      (List.range' 0 ((groups applied).countP isRun)).map fun index => ⟨stream, index⟩ := by
  rw [ofStream, ids_append, ids_append, ids_kept, ids_kept, ids_ofGroups, List.append_nil,
    List.nil_append]

theorem ids_ofStream_eq_nil (stream : StreamId) (first : Nat) (applied : List DiffLine)
    (lines : List String) : ids (ofStream stream first applied lines) = [] ↔
      applied.any DiffLine.isChange = false := by
  rw [ids_ofStream, List.map_eq_nil_iff, List.range'_eq_nil_iff, ← DiffLine.any_groups,
    List.countP_eq_zero, List.any_eq_false]

end Draft

namespace Session

variable {session : Session} {buffer : Buffer} {draft base : List Passage} {rest : List String}

def applyAll (session : Session) (buffer : Buffer) : List DiffLine → Except Fault (Turn Unit)
  | [] => .ok ⟨session, buffer, [], .ok ()⟩
  | line :: later => do
      let turn ← session.applyLine buffer line
      match turn.outcome with
      | .error _ => return turn
      | .ok () => turn.session.applyAll turn.buffer later

theorem applyAll_of_applyEach {turn : Turn Unit} {ops : List DiffLine}
    (applied : session.applyEach buffer ops = .ok turn) :
    ∃ events, session.applyAll buffer ops = .ok { turn with events := events } := by
  induction ops generalizing session buffer turn with
  | nil =>
      cases applied
      exact ⟨[], rfl⟩
  | cons line later ih =>
      rcases bind_eq_ok.mp applied with ⟨middle, applies, rest⟩
      rw [applyAll, applies, ok_bind]
      cases ends : middle.outcome with
      | error error =>
          rw [ends] at rest
          cases rest
          exact ⟨turn.events, rfl⟩
      | ok _ =>
          rw [ends] at rest
          rcases bind_eq_ok.mp rest with ⟨last, others, same⟩
          cases same
          rcases ih others with ⟨events, all⟩
          exact ⟨events, all⟩

theorem Midway.applicable {lines : List String} (midway : Midway session buffer base lines)
    (plain : Draft.ids base = []) (ops : List DiffLine)
    (small : session.cursor + ops.length < rowLimit) :
    let applied := DiffLine.applicable lines.length ops
    ∃ turn, session.applyAll buffer ops = .ok turn ∧
      turn.outcome = (if applied = ops then .ok () else
        .error (.streamDesync turn.buffer.lineCount turn.buffer.lineCount)) ∧
      Midway turn.session turn.buffer
        (base ++ Draft.ofGroups session.registry.stream 0 (groups applied) lines)
        (lines.drop (taken applied)) ∧
      turn.session.cursor = session.cursor + applied.length := by
  obtain ⟨turn, driven⟩ : ∃ turn, session.applyEach buffer ops = .ok turn :=
    midway.streams.applyEach_ok ops small
  rcases applyAll_of_applyEach driven with ⟨events, all⟩
  obtain ⟨outcome, applies, later⟩ := midway.applyEach plain ops driven
  exact ⟨_, all, outcome, later, applies.cursor⟩

/-- What is below the cursor counts as kept. -/
theorem Midway.tracks (midway : Midway session buffer draft rest) :
    session.Tracks (draft ++ rest.map .kept) ∧
      buffer.lines = Draft.lines (draft ++ rest.map .kept) := by
  refine ⟨midway.streams.tracks.extend_kept rest, ?_⟩
  rw [Draft.lines_append, Draft.lines_kept, midway.shown]

theorem Midway.finish (midway : Midway session buffer draft rest) :
    Draft.ids (draft ++ rest.map .kept) = [] ∧ (session.finish buffer).1.state = .idle ∧
        (session.finish buffer).1.Tracks [] ∨
      Draft.ids (draft ++ rest.map .kept) ≠ [] ∧ (session.finish buffer).1.state = .reviewing ∧
        (session.finish buffer).1.Tracks (draft ++ rest.map .kept) := by
  rcases midway.tracks with ⟨tracks, _⟩
  have counted := tracks.length_blocks
  rcases finish_streaming midway.state buffer with ⟨none, closed⟩ | ⟨some, _, rfl, reviewed⟩
  · rw [none] at counted
    rw [closed]
    exact .inl ⟨List.eq_nil_of_length_eq_zero counted.symm, rfl, Tracks.nothing rfl rfl⟩
  · rw [reviewed]
    refine .inr ⟨?_, rfl, tracks.congr rfl rfl⟩
    intro plain
    rw [plain] at counted
    exact some (List.eq_nil_of_length_eq_zero counted)

theorem Midway.finish_state {stream : StreamId} {first : Nat} {part : List DiffLine}
    {lines : List String}
    (midway : Midway session buffer
      ((lines.take first).map .kept ++ Draft.ofGroups stream 0 (groups part) (lines.drop first))
      ((lines.drop first).drop (taken part))) :
    (session.finish buffer).1.state =
      if part.any DiffLine.isChange then .reviewing else .idle := by
  have changes := Draft.ids_ofStream_eq_nil stream first part lines
  rcases midway.finish with ⟨plain, idle, _⟩ | ⟨busy, reviewing, _⟩
  · rw [idle, changes.mp plain]
    rfl
  · rw [reviewing, if_pos (Bool.of_not_eq_false fun none => busy (changes.mpr none))]

theorem Midway.unchanged {stream : StreamId} {first : Nat} {part : List DiffLine}
    {lines : List String}
    (midway : Midway session buffer
      ((lines.take first).map .kept ++ Draft.ofGroups stream 0 (groups part) (lines.drop first))
      ((lines.drop first).drop (taken part)))
    (plain : part.any DiffLine.isChange = false) : buffer.lines = lines := by
  have none := (Draft.ids_ofStream_eq_nil stream first part lines).mpr plain
  calc buffer.lines
      = Draft.lines (Draft.ofStream stream first part lines) := midway.tracks.2
    _ = Draft.outcome (fun _ => true) (Draft.ofStream stream first part lines) :=
        Draft.lines_eq_outcome _
    _ = Draft.outcome (fun _ => false) (Draft.ofStream stream first part lines) := by
        apply Draft.outcome_congr
        intro id member
        rw [none] at member
        exact absurd member List.not_mem_nil
    _ = lines := by rw [Draft.outcome_ofStream, DiffLine.mergedText_rejected]

/-- What the end of a run leaves can be decided in any order, and clearing decides what is left at
any time. -/
theorem Midway.decides (midway : Midway session buffer draft rest)
    (small : Draft.size (draft ++ rest.map .kept) ≤ countLimit) :
    let whole := draft ++ rest.map .kept
    let finished := (session.finish buffer).1
    finished.state = (if Draft.ids whole = [] then .idle else .reviewing) ∧
      finished.registry.blocks = Draft.blocks 0 whole ∧
      ∀ (order : List BlockId) (choice : BlockId → Bool), order.Nodup →
        (∀ id ∈ order, id ∈ Draft.ids whole) →
        ∃ next after, finished.resolveAll buffer (order.map fun id => (id, choice id)) =
            .ok ⟨next, after, [], .ok ()⟩ ∧
          (order.length = (Draft.ids whole).length →
            next.state = .idle ∧ after.lines = Draft.outcome choice whole) ∧
          (order.length < (Draft.ids whole).length → next.state = .reviewing ∧
            ∀ accept, ∃ closed, next.clear after accept = .ok closed ∧
              closed.outcome = .ok () ∧ closed.session.state = .idle ∧
              closed.buffer.lines =
                Draft.outcome (fun id => if id ∈ order then choice id else accept) whole) := by
  intro whole finished
  rcases midway.tracks with ⟨_, shown⟩
  rcases midway.finish with ⟨plain, idle, closed⟩ | ⟨busy, reviewing, tracks⟩
  · rw [if_pos plain]
    refine ⟨idle, ?_, ?_⟩
    · rw [closed.blocks, Draft.blocks_plain plain]
      rfl
    · intro order choice _ known
      have empty : order = [] := by
        apply List.eq_nil_iff_forall_not_mem.mpr
        intro id member
        have present := known id member
        rw [plain] at present
        exact List.not_mem_nil present
      subst empty
      have none : (Draft.ids whole).length = 0 := congrArg List.length plain
      rw [none]
      refine ⟨_, _, rfl, fun _ => ⟨idle, ?_⟩, fun fewer => absurd fewer (Nat.lt_irrefl 0)⟩
      rw [shown, Draft.lines_eq_outcome]
      apply Draft.outcome_congr
      intro id member
      rw [plain] at member
      exact absurd member List.not_mem_nil
  · rw [if_neg busy]
    refine ⟨reviewing, tracks.blocks, ?_⟩
    intro order choice distinct known
    exact tracks.decides reviewing shown small busy distinct known choice

/-- A stream that meets an unchanged buffer leaves one block for every run of changes. The blocks
can be decided in any order, the session closes with the last of them, and the text follows from
the decisions. Texts and streams that fit a memory have fewer lines than `countLimit`. -/
theorem merge_of_stream {bufferId : BufferId} {stream : StreamId} {lines : List String}
    {range : LineRange} (started : Session.start bufferId stream ⟨lines⟩ range = .ok session)
    (ops : List DiffLine) (words : lines.length + ops.length ≤ countLimit) :
    let applied := DiffLine.applicable (lines.length - range.first) ops
    let runs := (groups applied).filter isRun
    let text (choice : BlockId → Bool) : List String :=
      DiffLine.mergedText (fun index => choice ⟨stream, index⟩) range.first applied lines
    ∃ begun streamed, session.beginRun = .ok begun ∧
      begun.applyAll ⟨lines⟩ ops = .ok streamed ∧
      streamed.outcome = (if applied = ops then .ok () else
        .error (.streamDesync streamed.buffer.lineCount streamed.buffer.lineCount)) ∧
      (∀ accept, ∃ closed, streamed.session.clear streamed.buffer accept = .ok closed ∧
        closed.outcome = .ok () ∧ closed.session.state = .idle ∧
        closed.buffer.lines = text fun _ => accept) ∧
      let finished := (streamed.session.finish streamed.buffer).1
      finished.state = (if runs = [] then .idle else .reviewing) ∧
      finished.registry.blocks.map (fun block => (block.id, block.red, block.green)) =
        (runs.zipIdx.map fun (run, index) => (⟨stream, index⟩, taken run, (put run).length)) ∧
      ∀ (order : List BlockId) (choice : BlockId → Bool), order.Nodup →
        (∀ id ∈ order, id ∈ finished.registry.blocks.map Block.id) →
        ∃ next after, finished.resolveAll streamed.buffer (order.map fun id => (id, choice id)) =
            .ok ⟨next, after, [], .ok ()⟩ ∧
          (order.length = runs.length → next.state = .idle ∧ after.lines = text choice) ∧
          (order.length < runs.length → next.state = .reviewing ∧
            ∀ accept, ∃ closed, next.clear after accept = .ok closed ∧
              closed.outcome = .ok () ∧ closed.session.state = .idle ∧
              closed.buffer.lines = text fun id => if id ∈ order then choice id else accept) := by
  intro applied runs text
  rcases start_range started with ⟨ordered, inside⟩
  rw [Buffer.lineCount] at inside
  simp only at inside
  rcases Midway.of_start started with ⟨begun, begins, midway, named, cursor⟩
  have fewer := DiffLine.length_applicable_le (lines.length - range.first) ops
  have bounded : range.first + ops.length < rowLimit := by
    unfold countLimit at words
    unfold rowLimit
    omega
  rw [← cursor] at bounded
  obtain ⟨streamed, applies, outcome, later, reached⟩ :=
    midway.applicable (Draft.ids_kept _) ops bounded
  rw [List.length_drop] at outcome later reached
  rw [named] at later
  rcases later.tracks with ⟨tracks, shown⟩
  -- Every line of the text is a row, and every applied line adds one row at most.
  have small : Draft.size (Draft.ofStream stream range.first applied lines) ≤ countLimit := by
    rw [Draft.ofStream, Draft.size_append, later.streams.width, reached, cursor, Draft.size_kept,
      List.length_drop, List.length_drop]
    omega
  have counted : (Draft.ids (Draft.ofStream stream range.first applied lines)).length =
      runs.length := by
    rw [Draft.ids_ofStream, List.length_map, List.length_range', List.countP_eq_length_filter]
  have reads (choice : BlockId → Bool) :=
    Draft.outcome_ofStream choice stream range.first applied lines
  have closing : Draft.ids (Draft.ofStream stream range.first applied lines) = [] ↔ runs = [] := by
    rw [← List.length_eq_zero_iff, counted, List.length_eq_zero_iff]
  have room : taken (groups applied).flatten ≤ (lines.drop range.first).length := by
    rw [DiffLine.flatten_groups, List.length_drop]
    exact (DiffLine.applicable_eq (lines.length - range.first) ops).1
  rcases later.decides small with ⟨state, blocks, decides⟩
  refine ⟨begun, streamed, begins, applies, outcome, ?_, ?_, ?_, ?_⟩
  · intro accept
    exact ⟨_, tracks.clear_shown shown accept, rfl, rfl, reads fun _ => accept⟩
  · exact state.trans (if_congr closing rfl rfl)
  · rw [blocks, Draft.blocks_append, Draft.blocks_append, Draft.blocks_kept, Draft.blocks_kept,
      List.append_nil, List.nil_append]
    exact Draft.blocks_ofGroups _ 0 room
  · intro order choice distinct known
    rw [blocks, Draft.map_id_blocks] at known
    rcases decides order choice distinct known with ⟨next, after, resolved, whole, partly⟩
    refine ⟨next, after, resolved, ?_, ?_⟩
    · intro all
      rcases whole (all.trans counted.symm) with ⟨idle, same⟩
      exact ⟨idle, same.trans (reads choice)⟩
    · intro fewer
      rcases partly (Nat.lt_of_lt_of_eq fewer counted.symm) with ⟨still, clears⟩
      refine ⟨still, fun accept => ?_⟩
      rcases clears accept with ⟨cleared, clear, outcome, idle, same⟩
      exact ⟨cleared, clear, outcome, idle, same.trans (reads _)⟩

/-- The first and the last of three lines are replaced. The later change is decided first and
accepted, and the earlier one is rejected. -/
theorem merge_of_two_replaced :
    let ops : List DiffLine := [⟨.removed, "a"⟩, ⟨.added, "x"⟩, ⟨.same, "b"⟩, ⟨.removed, "c"⟩,
      ⟨.added, "y"⟩, ⟨.added, "z"⟩]
    let order : List BlockId := [⟨⟨1⟩, 1⟩, ⟨⟨1⟩, 0⟩]
    let choice (id : BlockId) : Bool := id == ⟨⟨1⟩, 1⟩
    ∃ session begun streamed next after,
      Session.start ⟨"t"⟩ ⟨1⟩ ⟨["a", "b", "c"]⟩ ⟨0, 2⟩ = .ok session ∧
      3 + ops.length ≤ countLimit ∧ session.beginRun = .ok begun ∧
      begun.applyAll ⟨["a", "b", "c"]⟩ ops = .ok streamed ∧ order.Nodup ∧
      (streamed.session.finish streamed.buffer).1.resolveAll streamed.buffer
        (order.map fun id => (id, choice id)) = .ok ⟨next, after, [], .ok ()⟩ ∧
      next.state = .idle ∧ after.lines = ["a", "b", "y", "z"] := by
  intro ops order choice
  obtain ⟨session, started⟩ : ∃ session,
      Session.start ⟨"t"⟩ ⟨1⟩ ⟨["a", "b", "c"]⟩ ⟨0, 2⟩ = .ok session := ⟨_, rfl⟩
  have words : ["a", "b", "c"].length + ops.length ≤ countLimit := by decide
  have distinct : order.Nodup := by decide
  obtain ⟨begun, streamed, begins, applies, _, _, _, blocks, decides⟩ :=
    merge_of_stream started ops words
  have ids := congrArg (List.map Prod.fst) blocks
  rw [List.map_map] at ids
  have known : ∀ id ∈ order,
      id ∈ (streamed.session.finish streamed.buffer).1.registry.blocks.map Block.id := by
    change List.map Block.id _ = [⟨⟨1⟩, 0⟩, ⟨⟨1⟩, 1⟩] at ids
    rw [ids]
    decide
  obtain ⟨next, after, resolved, whole, _⟩ := decides order choice distinct known
  rcases whole rfl with ⟨idle, text⟩
  exact ⟨session, begun, streamed, next, after, started, words, begins, applies, distinct,
    resolved, idle, text⟩

end Session

end Redline
