import Redline.Proofs.Pacing

namespace Redline

open DiffLine (groups taken)

namespace Session

def flag (session : Session) (fired : Bool) : Session := { session with cancelled := fired }

end Session

def Turn.flag {α : Type} (fired : Bool) (turn : Turn α) : Turn α :=
  { turn with session := turn.session.flag fired }

namespace Session

theorem advance_flag (session : Session) (buffer : Buffer) (fired : Bool) :
    (session.flag fired).advance buffer = Turn.flag fired <$> session.advance buffer := by
  rw [advance, advance, sync, sync, map_bind]
  simp only [flag]
  cases session.registry.sync session.tracker.spans with
  | error fault => rfl
  | ok synced => rfl

theorem applySame_flag (session : Session) (buffer : Buffer) (line : Nat) (text : String)
    (fired : Bool) : (session.flag fired).applySame buffer line text =
      Turn.flag fired <$> session.applySame buffer line text := by
  rw [applySame, applySame]
  split
  · exact advance_flag { session with openRun := none, committed := session.committed ++ [text] }
      buffer fired
  · rfl

theorem applyRemoved_flag (session : Session) (buffer : Buffer) (line : Nat) (fired : Bool) :
    (session.flag fired).applyRemoved buffer line =
      Turn.flag fired <$> session.applyRemoved buffer line := by
  rw [applyRemoved, applyRemoved]
  split
  · cases buffer.delete line 1 with
    | error error => rfl
    | ok deleted =>
        simp only [map_bind, ← advance_flag]
        rfl
  · rfl

theorem applyAdded_flag (session : Session) (buffer : Buffer) (line : Nat) (text : String)
    (fired : Bool) : (session.flag fired).applyAdded buffer line text =
      Turn.flag fired <$> session.applyAdded buffer line text := by
  rw [applyAdded, applyAdded]
  cases buffer.insert line [text] with
  | error error => rfl
  | ok inserted =>
      simp only [map_bind, ← advance_flag]
      rfl

theorem beginRun_flag {session begun : Session} (begins : session.beginRun = .ok begun)
    (fired : Bool) : (session.flag fired).beginRun = .ok (begun.flag fired) := by
  unfold beginRun at begins ⊢
  split at begins
  · cases begins
  · rename_i going
    cases begins
    exact if_neg going

/-- Applying a line does not look at the token. -/
theorem applyLine_flag (session : Session) (buffer : Buffer) (line : DiffLine) (fired : Bool) :
    (session.flag fired).applyLine buffer line =
      Turn.flag fired <$> session.applyLine buffer line := by
  by_cases going : session.running ∧ session.state = .streaming
  · have flagged : (session.flag fired).running ∧ (session.flag fired).state = .streaming := going
    rw [applyLine, applyLine, if_pos flagged, if_pos going]
    rcases line with ⟨kind, text⟩
    cases kind with
    | same => exact applySame_flag session buffer _ text fired
    | removed => exact applyRemoved_flag session buffer _ fired
    | added => exact applyAdded_flag session buffer _ text fired
  · have flagged : ¬((session.flag fired).running ∧ (session.flag fired).state = .streaming) :=
      going
    rw [applyLine, applyLine, if_neg flagged, if_neg going]
    rfl

theorem applyEach_flag (session : Session) (buffer : Buffer) (lines : List DiffLine)
    (fired : Bool) : (session.flag fired).applyEach buffer lines =
      Turn.flag fired <$> session.applyEach buffer lines := by
  induction lines generalizing session buffer with
  | nil => rfl
  | cons line later ih =>
      rw [applyEach, applyEach, applyLine_flag]
      cases session.applyLine buffer line with
      | error fault => rfl
      | ok turn =>
          rcases turn with ⟨next, after, events, outcome⟩
          cases outcome with
          | error error => rfl
          | ok _ =>
              show (do
                let last ← (next.flag fired).applyEach after later
                return { last with events := events ++ last.events }) = _
              rw [ih]
              show _ = Turn.flag fired <$> (do
                let last ← next.applyEach after later
                return { last with events := events ++ last.events })
              cases next.applyEach after later with
              | error fault => rfl
              | ok last => rfl

/-- Beginnings of the stream that have been applied, and what they leave when the session is driven
directly. -/
structure Drives (begun : Session) (buffer : Buffer) (stream : List DiffLine) (count : Nat)
    (direct : Turn Unit) : Prop where
  few : count ≤ stream.length
  driven : begun.applyEach buffer (stream.take count) = .ok direct
  outcome : direct.outcome = .ok ()

theorem Midway.flag {session : Session} {buffer : Buffer} {draft : List Passage}
    {rest : List String} (midway : Midway session buffer draft rest) (fired : Bool) :
    Midway (session.flag fired) buffer draft rest where
  streams := midway.streams.congr rfl rfl rfl rfl
  state := midway.state
  running := midway.running
  shown := midway.shown
  counted := midway.counted

end Session

namespace Manager

variable {manager : Manager} {handle : Handle} {range : LineRange} {opened : Opened}
  {begun : Session} {stream : List DiffLine} {count : Nat} {direct : Turn Unit}

theorem Launched.drives (launched : manager.Launched handle range opened begun)
    (drives : begun.Drives (manager.document opened.document) stream count direct) :
    let lines := (manager.document opened.document).lines
    direct.session.applied = count ∧
      Session.Midway direct.session direct.buffer ((lines.take range.first).map .kept ++
          Draft.ofGroups handle.stream 0 (groups (stream.take count)) (lines.drop range.first))
        ((lines.drop range.first).drop (taken (stream.take count))) := by
  rcases launched.applies drives.driven with ⟨outcome, applies, midway⟩
  have whole : DiffLine.applicable ((manager.document opened.document).lineCount - range.first)
      (stream.take count) = stream.take count := by
    by_contra other
    rw [drives.outcome, if_neg other] at outcome
    cases outcome
  rw [whole] at applies midway
  refine ⟨?_, midway⟩
  have few := drives.few
  rw [applies.applied, launched.applied, List.length_take]
  omega

/-- A token that fires while its session takes in a stream is noted in the session. -/
theorem UnderWay.fire (underway : manager.UnderWay handle opened) :
    manager.fire handle.stream = manager.hold opened (opened.session.flag true)
      (manager.document opened.document) := by
  rw [Manager.fire, underway.found]
  simp only [Manager.hold, Manager.setDocument]
  rw [show (manager.setSession { opened with session := opened.session.flag true }).documents =
    manager.documents from rfl, Table.set_get? underway.stored]
  rfl

end Manager

namespace Run

variable {manager : Manager} {opened : Opened} {run : Run}

theorem reject_shown {draft : List Passage} (tracks : opened.session.Tracks draft)
    (shown : (manager.document opened.document).lines = Draft.lines draft) (applied : Nat) :
    let after : Buffer := ⟨Draft.outcome (fun _ => false) draft⟩
    let closed := opened.session.close after
    reject manager opened run applied =
      .ok ⟨(manager.hold opened closed.1 after).removeIfCurrent run.handle,
        ended run.handle (.cancelled applied), closed.2⟩ := by
  intro after closed
  rw [reject, Manager.operate, tracks.clear_shown shown false]
  rfl

/-- A cancelled run keeps what it has applied for review, or takes it back. -/
theorem conclude_cancelled {lines : List String} {first : Nat} {part : List DiffLine}
    (underway : manager.UnderWay run.handle opened)
    (current : manager.current.get? run.handle.buffer = some run.handle.stream)
    (midway : Session.Midway opened.session (manager.document opened.document)
      ((lines.take first).map .kept ++
        Draft.ofGroups run.handle.stream 0 (groups part) (lines.drop first))
      ((lines.drop first).drop (taken part))) :
    ∃ progress left, conclude manager run .cancelled = .ok progress ∧
      progress.run = ended run.handle (.cancelled opened.session.applied) ∧
      progress.manager.sessions.get? run.handle.stream = some left ∧
      left.session.stream = run.handle.stream ∧
      left.session.applied = opened.session.applied ∧
      progress.manager.settings = manager.settings ∧
      if manager.settings.rejectOnCancel then
        progress.manager.document opened.document = ⟨lines⟩ ∧
          progress.manager.stream? run.handle.buffer = none
      else
        progress.manager.document opened.document = manager.document opened.document ∧
          if part.any DiffLine.isChange then
            progress.manager.stream? run.handle.buffer = some run.handle.stream ∧
              left.session.state = .reviewing
          else progress.manager.stream? run.handle.buffer = none ∧ left.session.state = .idle := by
  rcases finished_leaves underway current midway with ⟨_, settings, documents, sessions, table⟩
  have state : (opened.session.ended (manager.document opened.document)).state =
      if part.any DiffLine.isChange then .reviewing else .idle := midway.finish_state
  have applied := (opened.session.finish_counts (manager.document opened.document)).1
  have reports := Session.Acts.reports (.finish : opened.session.Acts
    (manager.document opened.document) _ _ _) underway.coherent
  have stream := reports.stream.trans underway.stream
  have answer : ended run.handle (.cancelled
      (opened.session.ended (manager.document opened.document)).applied) =
        ended run.handle (.cancelled opened.session.applied) :=
    congrArg (fun count => ended run.handle (.cancelled count)) applied
  rw [conclude_eq underway.found]
  simp only [settings]
  cases rejects : manager.settings.rejectOnCancel with
  | false =>
      refine ⟨_, _, if_neg (fun both => Bool.false_ne_true both.1), answer, sessions, stream,
        applied, settings, documents _, ?_⟩
      cases changes : part.any DiffLine.isChange with
      | true =>
          rw [changes] at state table
          exact ⟨table, state⟩
      | false =>
          rw [changes] at state table
          exact ⟨table, state⟩
  | true =>
      cases changes : part.any DiffLine.isChange with
      | false =>
          rw [changes] at state table
          -- A run that has changed nothing has closed, so there is nothing to take back.
          have text : manager.document opened.document = ⟨lines⟩ :=
            congrArg Buffer.mk (midway.unchanged changes)
          exact ⟨_, _, if_neg (fun both => both.2 state), answer, sessions, stream, applied,
            settings, (documents _).trans text, table⟩
      | true =>
          rw [changes] at state table
          have live : (opened.session.ended (manager.document opened.document)).state ≠ .idle := by
            rw [state]
            exact SessionState.noConfusion
          have tracks : (opened.session.ended (manager.document opened.document)).Tracks
              (Draft.ofStream run.handle.stream first part lines) := by
            rcases midway.finish with ⟨_, idle, _⟩ | ⟨_, _, tracks⟩
            · exact absurd idle live
            · exact tracks.congr rfl rfl
          have shown : ((finished manager run opened).document opened.document).lines =
              Draft.lines (Draft.ofStream run.handle.stream first part lines) := by
            rw [documents]
            exact midway.tracks.2
          have rejected := @reject_shown (finished manager run opened)
            { opened with session := opened.session.ended (manager.document opened.document) } run
            _ tracks shown (opened.session.ended (manager.document opened.document)).applied
          rw [Draft.outcome_ofStream, DiffLine.mergedText_rejected] at rejected
          rw [if_pos ⟨rfl, live⟩, rejected]
          let closed := (opened.session.ended (manager.document opened.document)).close ⟨lines⟩
          refine ⟨_, { opened with session := closed.1 }, rfl, answer, ?_, stream, applied, ?_, ?_,
            ?_⟩
          · rw [Manager.sessions_removeIfCurrent, Manager.get?_hold]
            exact if_pos stream.symm
          · exact (Manager.settings_removeIfCurrent _ _).trans settings
          · rw [Manager.document_removeIfCurrent, Manager.document_hold, if_pos rfl]
          · have held := Manager.get?_removeIfCurrent ((finished manager run opened).hold
              { opened with session := opened.session.ended (manager.document opened.document) }
              closed.1 ⟨lines⟩) run.handle run.handle.buffer
            exact held.trans (if_pos ⟨rfl, table⟩)

/-- What is left of a run that has ended after `count` lines, which are `part`. `kept` is the text
that they had made of the `original`. -/
structure Ending (handle : Handle) (document : String) (rejects : Bool) (original kept : Buffer)
    (part : List DiffLine) (count : Nat) (manager : Manager) (run : Run) : Prop where
  halted : run.isOver = true
  owner : run.handle = handle
  stays : (∀ applied, run.stage ≠ .ended (.cancelled applied)) → manager.document document = kept
  filed : ∃ left, manager.sessions.get? handle.stream = some left ∧
    left.session.stream = handle.stream ∧ left.session.applied = count ∧
    ∀ applied, run.stage = .ended (.cancelled applied) → applied = count ∧
      if rejects then manager.document document = original ∧ manager.stream? handle.buffer = none
      else manager.document document = kept ∧
        if part.any DiffLine.isChange then
          manager.stream? handle.buffer = some handle.stream ∧ left.session.state = .reviewing
        else manager.stream? handle.buffer = none ∧ left.session.state = .idle

theorem conclude_ending {lines : List String} {first : Nat} {part : List DiffLine}
    (underway : manager.UnderWay run.handle opened)
    (current : manager.current.get? run.handle.buffer = some run.handle.stream)
    (midway : Session.Midway opened.session (manager.document opened.document)
      ((lines.take first).map .kept ++
        Draft.ofGroups run.handle.stream 0 (groups part) (lines.drop first))
      ((lines.drop first).drop (taken part))) (why : RunEnd) :
    ∃ progress, conclude manager run why = .ok progress ∧
      Ending run.handle opened.document manager.settings.rejectOnCancel ⟨lines⟩
        (manager.document opened.document) part opened.session.applied progress.manager
        progress.run := by
  have calm (answer : RunOutcome) (answered : ∀ applied, answer ≠ .cancelled applied) :
      Ending run.handle opened.document manager.settings.rejectOnCancel ⟨lines⟩
        (manager.document opened.document) part opened.session.applied
        (finished manager run opened) (ended run.handle answer) := by
    rcases finished_leaves underway current midway with ⟨_, _, documents, sessions, _⟩
    have reports := Session.Acts.reports (.finish : opened.session.Acts
      (manager.document opened.document) _ _ _) underway.coherent
    refine ⟨rfl, rfl, fun _ => documents _, _, sessions, reports.stream.trans underway.stream,
      (opened.session.finish_counts _).1, ?_⟩
    intro applied stage
    exact absurd (RunStage.ended.inj stage) (answered applied)
  cases why with
  | exhausted =>
      refine ⟨_, conclude_eq underway.found .exhausted, calm _ ?_⟩
      intro applied same
      cases same
  | failed error =>
      refine ⟨_, conclude_eq underway.found (.failed error), calm _ ?_⟩
      intro applied same
      cases same
  | cancelled =>
      rcases conclude_cancelled underway current midway with
        ⟨progress, left, concluded, run, sessions, stream, counted, _, leaves⟩
      refine ⟨progress, concluded, ?_, ?_, ?_, left, sessions, stream, counted, ?_⟩
      · rw [run]
        rfl
      · rw [run]
        rfl
      · intro other
        rw [run] at other
        exact absurd rfl (other _)
      · intro applied stage
        rw [run] at stage
        cases stage
        exact ⟨rfl, leaves⟩

theorem Ending.fire {handle : Handle} {document : String} {rejects : Bool} {original kept : Buffer}
    {part : List DiffLine} {count : Nat}
    (ending : Ending handle document rejects original kept part count manager run) :
    Ending handle document rejects original kept part count (manager.fire handle.stream) run := by
  rcases ending.filed with ⟨left, found, stream, counted, leaves⟩
  have fires : manager.fire handle.stream = manager.setSession
      { left with session := { left.session with cancelled := true } } := by
    rw [Manager.fire, found]
  rw [fires]
  refine ⟨ending.halted, ending.owner, ending.stays,
    { left with session := { left.session with cancelled := true } }, ?_, stream, counted, leaves⟩
  rw [Manager.get?_setSession]
  exact if_pos stream.symm

end Run

end Redline
