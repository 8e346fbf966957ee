import Redline.Proofs.Groups
import Redline.Proofs.Soundness

namespace Redline

open DiffLine (taken put groups)

namespace Session

variable {session : Session} {buffer : Buffer} {draft base : List Passage}
  {lines rest : List String}

def applyEach (session : Session) (buffer : Buffer) : List DiffLine → Except Fault (Turn Unit)
  | [] => .ok ⟨session, buffer, [], .ok ()⟩
  | line :: later => do
      let turn ← session.applyLine buffer line
      match turn.outcome with
      | .error _ => return turn
      | .ok () =>
          let last ← turn.session.applyEach turn.buffer later
          return { last with events := turn.events ++ last.events }

/-- A whole run without anything in between. -/
def drive (session : Session) (buffer : Buffer) (lines : List DiffLine) :
    Except Fault (Turn Unit) :=
  match session.beginRun with
  | .error error => .ok (session.refuse buffer error)
  | .ok begun => do
      let turn ← begun.applyEach buffer lines
      let (session, events) := turn.session.finish turn.buffer
      return { turn with session, events := turn.events ++ events }

theorem applyEach_refused {turn : Turn Unit} {line : DiffLine} {error : SessionError}
    (applied : session.applyLine buffer line = .ok turn) (outcome : turn.outcome = .error error)
    (later : List DiffLine) : session.applyEach buffer (line :: later) = .ok turn := by
  rw [applyEach, applied, ok_bind, outcome]
  rfl

theorem applyEach_cons {turn : Turn Unit} {line : DiffLine}
    (applied : session.applyLine buffer line = .ok turn) (outcome : turn.outcome = .ok ())
    (later : List DiffLine) : session.applyEach buffer (line :: later) = do
      let last ← turn.session.applyEach turn.buffer later
      return { last with events := turn.events ++ last.events } := by
  rw [applyEach, applied, ok_bind, outcome]

theorem applyEach_append {turn : Turn Unit} {first : List DiffLine}
    (applied : session.applyEach buffer first = .ok turn) (outcome : turn.outcome = .ok ())
    (second : List DiffLine) : session.applyEach buffer (first ++ second) = do
      let last ← turn.session.applyEach turn.buffer second
      return { last with events := turn.events ++ last.events } := by
  induction first generalizing session buffer turn with
  | nil =>
      cases applied
      show session.applyEach buffer second = do
        let last ← session.applyEach buffer second
        return { last with events := [] ++ last.events }
      cases session.applyEach buffer second with
      | error fault => rfl
      | ok last => rfl
  | cons line later ih =>
      rcases bind_eq_ok.mp applied with ⟨middle, applies, rest⟩
      cases ends : middle.outcome with
      | error error =>
          rw [ends] at rest
          cases rest
          rw [ends] at outcome
          cases outcome
      | ok _ =>
          rw [ends] at rest
          rcases bind_eq_ok.mp rest with ⟨last, others, same⟩
          cases same
          rw [List.cons_append, applyEach_cons applies ends, ih others outcome]
          cases last.session.applyEach last.buffer second with
          | error fault => rfl
          | ok final =>
              simp only [ok_bind]
              exact congrArg (fun events => Except.ok { final with events })
                (List.append_assoc _ _ _).symm

theorem Streams.applyEach_part {turn : Turn Unit} (streams : session.Streams draft)
    {ops : List DiffLine} (applied : session.applyEach buffer ops = .ok turn) :
    ∃ count ≤ ops.length,
      session.applyEach buffer (ops.take count) = .ok { turn with outcome := .ok () } := by
  induction ops generalizing session buffer draft turn with
  | nil =>
      cases applied
      exact ⟨0, Nat.le_refl 0, rfl⟩
  | cons line later ih =>
      rcases bind_eq_ok.mp applied with ⟨middle, applies, rest⟩
      rcases streams.applyLine applies with ⟨error, rfl⟩ | ⟨_, _, _, _, continues, _, rfl⟩
      · cases rest
        exact ⟨0, Nat.zero_le _, rfl⟩
      · rcases bind_eq_ok.mp rest with ⟨last, others, same⟩
        rcases ih continues others with ⟨count, few, part⟩
        cases same
        refine ⟨count + 1, Nat.succ_le_succ few, ?_⟩
        rw [List.take_succ_cons, applyEach_cons applies rfl, part]
        rfl

theorem drive_eq {begun : Session} (begins : session.beginRun = .ok begun)
    (lines : List DiffLine) : session.drive buffer lines = do
      let turn ← begun.applyEach buffer lines
      return { turn with
        session := (turn.session.finish turn.buffer).1
        events := turn.events ++ (turn.session.finish turn.buffer).2 } := by
  rw [drive, begins]

theorem start_begun {bufferId : BufferId} {stream : StreamId} {range : LineRange} {begun : Session}
    (started : Session.start bufferId stream buffer range = .ok session)
    (begins : session.beginRun = .ok begun) :
    begun.cancelled = false ∧ begun.applied = 0 ∧ begun.committed = [] := by
  unfold Session.start at started
  split at started
  · cases started
    cases begins
    exact ⟨rfl, rfl, rfl⟩
  · cases started

theorem finish_counts (session : Session) (buffer : Buffer) :
    (session.finish buffer).1.applied = session.applied ∧
      (session.finish buffer).1.committed = session.committed := by
  rw [finish]
  simp only
  split
  · split
    · exact ⟨rfl, rfl⟩
    · exact ⟨rfl, rfl⟩
  · exact ⟨rfl, rfl⟩

/-- A run in progress, with the lines of the buffer that it has not come to yet. -/
structure Midway (session : Session) (buffer : Buffer) (draft : List Passage)
    (rest : List String) : Prop where
  streams : session.Streams draft
  state : session.state = .streaming
  running : session.running = true
  shown : buffer.lines = Draft.lines draft ++ rest
  counted : session.registry.minted = (Draft.ids draft).length

theorem Streams.mints_counted (streams : session.Streams draft)
    (counted : session.registry.minted = (Draft.ids draft).length) (removed added : List String) :
    session.mints = (Draft.ids (Draft.extend session.fresh removed added draft)).length := by
  rcases Draft.closed_or_open draft with ⟨closed, none⟩ | ⟨front, id, taken, put, rfl, some⟩
  · rw [Draft.extend_closed _ closed, mints, streams.opened, none, counted]
    simp
  · rw [Draft.extend_open, mints, streams.opened, some, counted]
    simp

theorem Midway.line_of_ok (midway : Midway session buffer draft rest) {line : DiffLine}
    {turn : Turn Unit} (applied : session.applyLine buffer line = .ok turn)
    (room : taken [line] ≤ rest.length) :
    ∃ minted after,
      let next := session.recorded (Draft.record session.fresh line rest draft) minted
        (session.committed ++ DiffLine.committed [line])
      turn = ⟨next, after, next.announce after .streaming, .ok ()⟩ ∧
        Midway next after (Draft.record session.fresh line rest draft)
          (rest.drop (taken [line])) := by
  have streams := midway.streams
  have count : buffer.lineCount = (Draft.lines draft).length + rest.length := by
    rw [Buffer.lineCount, midway.shown, List.length_append]
  rw [applyLine, if_pos ⟨midway.running, midway.state⟩] at applied
  simp only [streams.bufferLine_cursor] at applied
  rcases line with ⟨kind, text⟩
  cases kind with
  | same =>
      cases rest with
      | nil => simp [taken, DiffLine.consumes] at room
      | cons kept more =>
          have present : (Draft.lines draft).length < buffer.lineCount := by
            rw [count, List.length_cons]
            omega
          rw [streams.applySame present text kept] at applied
          refine ⟨_, buffer, (Except.ok.inj applied).symm, ?_⟩
          refine ⟨streams.kept kept _, midway.state, midway.running, ?_, ?_⟩
          · rw [midway.shown]
            simp [Draft.record, DiffLine.isChange, taken, DiffLine.consumes, Passage.lines]
          · simp [Draft.record, DiffLine.isChange, taken, DiffLine.consumes, recorded,
              midway.counted]
  | removed =>
      cases rest with
      | nil => simp [taken, DiffLine.consumes] at room
      | cons gone more =>
          have found : buffer.lines[(Draft.lines draft).length]? = some gone := by
            rw [midway.shown]
            simp
          rcases (streams.applyRemoved found).mp applied with ⟨fits, result⟩
          have silent : session.committed ++ DiffLine.committed [⟨.removed, text⟩] =
              session.committed := List.append_nil _
          rw [silent]
          refine ⟨session.mints, _, result, ?_⟩
          refine ⟨streams.extended rfl fits _, midway.state, midway.running, ?_,
            streams.mints_counted midway.counted _ _⟩
          simp only [midway.shown]
          simp [Draft.record, DiffLine.isChange, taken, put, DiffLine.consumes,
            Draft.lines_extend, List.drop_append]
  | added =>
      have place : (Draft.lines draft).length ≤ buffer.lineCount := by
        rw [count]
        exact Nat.le_add_right _ _
      rcases (streams.applyAdded place text).mp applied with ⟨fits, result⟩
      refine ⟨session.mints, _, result, ?_⟩
      refine ⟨streams.extended rfl fits _, midway.state, midway.running, ?_,
        streams.mints_counted midway.counted _ _⟩
      simp only [midway.shown]
      simp [Draft.record, DiffLine.isChange, taken, put, DiffLine.consumes, Draft.lines_extend]

/-- A line that does not find what it takes is refused. -/
theorem Midway.desync (midway : Midway session buffer draft rest) {line : DiffLine}
    (short : rest.length < taken [line]) : session.applyLine buffer line =
      .ok (session.refuse buffer (.streamDesync buffer.lineCount buffer.lineCount)) := by
  have takes : taken [line] ≤ 1 := List.countP_le_length
  have none : rest = [] := List.eq_nil_of_length_eq_zero (by omega)
  subst none
  have count : (Draft.lines draft).length = buffer.lineCount := by
    rw [Buffer.lineCount, midway.shown, List.append_nil]
  rw [applyLine, if_pos ⟨midway.running, midway.state⟩]
  simp only [midway.streams.bufferLine_cursor, count]
  rcases line with ⟨kind, text⟩
  cases kind with
  | same => rw [applySame, if_neg (Nat.lt_irrefl _)]
  | removed => rw [applyRemoved, if_neg (Nat.lt_irrefl _)]
  | added => simp [taken, DiffLine.consumes] at short

theorem start_range {bufferId : BufferId} {stream : StreamId} {range : LineRange}
    (started : Session.start bufferId stream buffer range = .ok session) :
    range.first ≤ range.last ∧ range.last < buffer.lineCount := by
  unfold Session.start at started
  split at started
  · rename_i inside
    exact inside
  · simp at started

theorem Midway.of_start {bufferId : BufferId} {stream : StreamId} {lines : List String}
    {range : LineRange} (started : Session.start bufferId stream ⟨lines⟩ range = .ok session) :
    ∃ begun, session.beginRun = .ok begun ∧
      Midway begun ⟨lines⟩ ((lines.take range.first).map .kept) (lines.drop range.first) ∧
      begun.registry.stream = stream ∧ begun.cursor = range.first := by
  have streams := start_streams started
  unfold Session.start at started
  split at started
  · have same := (Except.ok.inj started).symm
    subst same
    refine ⟨_, if_neg (by simp), ⟨streams.congr rfl rfl rfl rfl, rfl, rfl, ?_, ?_⟩, rfl, rfl⟩
    · rw [Draft.lines_kept, List.take_append_drop]
    · rw [Draft.ids_kept]
      rfl
  · simp at started

structure Applies (session : Session) (ops : List DiffLine) (next : Session) : Prop where
  bufferId : next.bufferId = session.bufferId
  stream : next.stream = session.stream
  state : next.state = session.state
  cancelled : next.cancelled = session.cancelled
  minted : next.registry.stream = session.registry.stream
  cursor : next.cursor = session.cursor + ops.length
  applied : next.applied = session.applied + ops.length
  committed : next.committed = session.committed ++ DiffLine.committed ops

theorem Applies.refl (session : Session) : session.Applies [] session :=
  ⟨rfl, rfl, rfl, rfl, rfl, rfl, rfl, (List.append_nil _).symm⟩

theorem Applies.trans {middle next : Session} {first second : List DiffLine}
    (before : session.Applies first middle) (after : middle.Applies second next) :
    session.Applies (first ++ second) next where
  bufferId := after.bufferId.trans before.bufferId
  stream := after.stream.trans before.stream
  state := after.state.trans before.state
  cancelled := after.cancelled.trans before.cancelled
  minted := after.minted.trans before.minted
  cursor := by rw [after.cursor, before.cursor, List.length_append, Nat.add_assoc]
  applied := by rw [after.applied, before.applied, List.length_append, Nat.add_assoc]
  committed := by
    rw [after.committed, before.committed, List.append_assoc, DiffLine.committed_append]

theorem applies_recorded (session : Session) (draft : List Passage) (minted : Nat)
    (line : DiffLine) :
    session.Applies [line]
      (session.recorded draft minted (session.committed ++ DiffLine.committed [line])) :=
  ⟨rfl, rfl, rfl, rfl, rfl, rfl, rfl, rfl⟩

/-- Row numbers that stay below the limit are never the reason to abandon a run. -/
theorem Streams.applyEach_ok (streams : session.Streams draft) (ops : List DiffLine)
    (small : session.cursor + ops.length < rowLimit) :
    ∃ turn, session.applyEach buffer ops = .ok turn := by
  induction ops generalizing session buffer draft with
  | nil => exact ⟨_, rfl⟩
  | cons line later ih =>
      rw [List.length_cons] at small
      rcases @Streams.applyLine_ok _ _ buffer streams line (by omega) with ⟨turn, applied⟩
      rcases streams.applyLine applied with ⟨error, rfl⟩ | ⟨_, _, _, _, streams, _, rfl⟩
      · exact ⟨_, applyEach_refused applied rfl later⟩
      · have room : session.cursor + 1 + later.length < rowLimit := by omega
        rcases ih streams room with ⟨last, others⟩
        rw [applyEach_cons applied rfl]
        exact ⟨_, by rw [others]; rfl⟩

/-- A run that has applied `done` applies as much of the lines that follow as finds what it takes,
and is refused by the line behind. -/
theorem Midway.applyEach_after {done : List DiffLine} {turn : Turn Unit}
    (plain : Draft.ids base = []) (midway : Midway session buffer
      (base ++ Draft.ofGroups session.registry.stream 0 (groups done) lines)
      (lines.drop (taken done)))
    (room : taken done ≤ lines.length) (ops : List DiffLine)
    (applied : session.applyEach buffer ops = .ok turn) :
    let part := DiffLine.applicable (lines.length - taken done) ops
    turn.outcome = (if part = ops then .ok () else
        .error (.streamDesync turn.buffer.lineCount turn.buffer.lineCount)) ∧
      session.Applies part turn.session ∧
      Midway turn.session turn.buffer
        (base ++ Draft.ofGroups session.registry.stream 0 (groups (done ++ part)) lines)
        (lines.drop (taken (done ++ part))) := by
  -- The lines that are done grow from left to right, and the draft of the groups with them.
  induction ops generalizing session buffer done turn with
  | nil =>
      cases applied
      refine ⟨rfl, .refl session, ?_⟩
      rw [DiffLine.applicable, List.append_nil]
      exact midway
  | cons line later ih =>
      rw [DiffLine.applicable]
      by_cases short : lines.length - taken done < taken [line]
      · have refused := @Midway.desync _ _ _ _ midway line (by rwa [List.length_drop])
        rw [applyEach_refused refused rfl] at applied
        cases applied
        simp only [if_pos short, List.append_nil]
        exact ⟨rfl, .refl session, midway⟩
      · rcases bind_eq_ok.mp applied with ⟨middle, applies, rest⟩
        have fresh : session.fresh = ⟨session.registry.stream, (Draft.ids
            (base ++ Draft.ofGroups session.registry.stream 0 (groups done) lines)).length⟩ := by
          rw [Session.fresh, midway.counted]
        have recorded := midway.line_of_ok applies (by rw [List.length_drop]; omega)
        rw [fresh, Draft.record_ofGroups plain room, List.drop_drop,
          ← DiffLine.taken_append] at recorded
        rcases recorded with ⟨minted, after, rfl, next⟩
        rcases bind_eq_ok.mp rest with ⟨last, others, same⟩
        have more : taken (done ++ [line]) ≤ lines.length := by
          rw [DiffLine.taken_append]
          omega
        obtain ⟨outcome, applies, ends⟩ := ih next more others
        cases same
        have left : lines.length - taken (done ++ [line]) =
            lines.length - taken done - taken [line] := by
          rw [DiffLine.taken_append, Nat.sub_add_eq]
        rw [left] at outcome applies ends
        rw [if_neg short]
        refine ⟨?_, (applies_recorded session _ minted line).trans applies, ?_⟩
        · rw [outcome]
          simp
        · rw [List.append_assoc, List.singleton_append] at ends
          exact ends

/-- A run applies as much of its lines as finds what it takes. -/
theorem Midway.applyEach {turn : Turn Unit} (midway : Midway session buffer base lines)
    (plain : Draft.ids base = []) (ops : List DiffLine)
    (applied : session.applyEach buffer ops = .ok turn) :
    let part := DiffLine.applicable lines.length ops
    turn.outcome = (if part = ops then .ok () else
        .error (.streamDesync turn.buffer.lineCount turn.buffer.lineCount)) ∧
      session.Applies part turn.session ∧
      Midway turn.session turn.buffer
        (base ++ Draft.ofGroups session.registry.stream 0 (groups part) lines)
        (lines.drop (taken part)) := by
  have begun : Midway session buffer
      (base ++ Draft.ofGroups session.registry.stream 0 (groups []) lines)
      (lines.drop (taken [])) := by
    rw [show groups [] = [] from rfl, Draft.ofGroups, List.append_nil]
    exact midway
  exact begun.applyEach_after plain (Nat.zero_le _) ops applied

end Session

end Redline
