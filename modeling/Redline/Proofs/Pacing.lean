import Redline.Proofs.Running

namespace Redline

open DiffLine (groups taken)

namespace Manager

variable {before manager : Manager} {id : BufferId} {document : String} {range : LineRange}
  {handle : Handle} {opened : Opened}

/-- A session that has been started and that nothing has happened to. -/
structure Fresh (manager : Manager) (handle : Handle) (range : LineRange) (opened : Opened) :
    Prop where
  consistent : manager.Consistent
  opens : manager.opened? handle.buffer = some opened
  started : Session.start handle.buffer handle.stream (manager.document opened.document) range =
    .ok opened.session

theorem Consistent.fresh (consistent : before.Consistent)
    (started : before.start id document range = ⟨manager, [], .ok handle⟩) :
    handle.buffer = id ∧ (∀ name, manager.document name = before.document name) ∧
      ∃ session, manager.Fresh handle range ⟨session, document⟩ := by
  rcases consistent.start id document range with ⟨session, later, opens, result⟩ | refused
  · rw [started] at result
    cases result
    refine ⟨rfl, opens.document, session, opens.consistent consistent, ?_, ?_⟩
    · rw [opened?, opens.current, if_pos rfl, Option.bind_some, opens.sessions, if_pos rfl]
    · rw [opens.document]
      exact opens.opened
  · rw [started] at refused
    cases refused

theorem Fresh.configured (fresh : manager.Fresh handle range opened) (settings : DiffSettings) :
    { manager with settings }.Fresh handle range opened where
  consistent := ⟨fresh.consistent.filed, fresh.consistent.current⟩
  opens := fresh.opens
  started := fresh.started

variable {begun : Session} {turn : Turn Unit}

structure Launched (manager : Manager) (handle : Handle) (range : LineRange) (opened : Opened)
    (begun : Session) : Prop where
  begins : opened.session.beginRun = .ok begun
  run : Run.start manager handle =
    (manager.setSession { opened with session := begun }, ⟨handle, [], .ready⟩)
  underway : (manager.setSession { opened with session := begun }).UnderWay handle
    { opened with session := begun }
  current : manager.current.get? handle.buffer = some handle.stream
  quiet : begun.cancelled = false
  applied : begun.applied = 0
  committed : begun.committed = []
  cursor : begun.cursor = range.first
  minted : begun.registry.stream = handle.stream
  midway : Session.Midway begun (manager.document opened.document)
    (((manager.document opened.document).lines.take range.first).map .kept)
    ((manager.document opened.document).lines.drop range.first)

theorem Fresh.launched (fresh : manager.Fresh handle range opened) :
    ∃ begun, Launched manager handle range opened begun := by
  rcases fresh.consistent.on_table fresh.opens with ⟨current, found, owner, _⟩
  have opening := Session.start_opening fresh.started
  rcases Session.Midway.of_start fresh.started with ⟨begun, begins, midway, minted, cursor⟩
  have state := (Session.beginRun_state begins).trans opening.state
  have acts : opened.session.Acts (manager.document opened.document) begun
    (manager.document opened.document) [] := .begin begins
  have reports := acts.reports (fresh.consistent.filed found).2.2.coherent
  rcases Session.start_begun fresh.started begins with ⟨quiet, applied, committed⟩
  have turns := (notes_setSession manager opened begun).stays fresh.consistent found acts
    fun idle => SessionState.noConfusion (state.symm.trans idle)
  have stream : begun.stream = handle.stream := reports.stream.trans opening.stream
  refine ⟨begun, begins, ?_, ⟨turns.consistent fresh.consistent, ?_, ?_, state, ?_⟩, ?_, quiet,
    applied, committed, cursor, minted, midway⟩
  · rw [Run.start, fresh.opens]
    simp only [opening.stream, if_true, begins]
  · rw [get?_setSession, if_pos stream.symm]
  · exact reports.bufferId.trans owner
  · apply stored_of_lines
    exact Nat.lt_of_le_of_lt (Nat.zero_le _) (Session.start_range fresh.started).2
  · rw [current, opening.stream]

/-- A run applies the part of its stream that finds the lines it takes. -/
theorem Launched.applies (launched : Launched manager handle range opened begun)
    {ops : List DiffLine}
    (applied : begun.applyEach (manager.document opened.document) ops = .ok turn) :
    let lines := (manager.document opened.document).lines
    let part := DiffLine.applicable
      ((manager.document opened.document).lineCount - range.first) ops
    turn.outcome = (if part = ops then .ok () else
        .error (.streamDesync turn.buffer.lineCount turn.buffer.lineCount)) ∧
      begun.Applies part turn.session ∧
      Session.Midway turn.session turn.buffer ((lines.take range.first).map .kept ++
          Draft.ofGroups handle.stream 0 (groups part) (lines.drop range.first))
        ((lines.drop range.first).drop (taken part)) := by
  intro lines part
  have driven := launched.midway.applyEach (Draft.ids_kept _) ops applied
  rw [List.length_drop, launched.minted] at driven
  exact driven

/-- Row numbers that stay below the limit are never the reason to abandon a run. -/
theorem Launched.performs (launched : Launched manager handle range opened begun)
    {ops : List DiffLine} (small : range.first + ops.length < rowLimit) :
    ∃ turn, begun.applyEach (manager.document opened.document) ops = .ok turn := by
  rw [← launched.cursor] at small
  exact launched.midway.streams.applyEach_ok ops small

theorem Launched.closes (launched : Launched manager handle range opened begun)
    {ops : List DiffLine}
    (applied : begun.applyEach (manager.document opened.document) ops = .ok turn)
    (failure : Option String) :
    let part := DiffLine.applicable
      ((manager.document opened.document).lineCount - range.first) ops
    let progress := Run.closing (manager.setSession { opened with session := begun }) handle
      { opened with session := begun } turn failure
    progress.manager.Consistent ∧
      (∀ name, progress.manager.document name =
        if name = opened.document then turn.buffer else manager.document name) ∧
      progress.manager.sessions.get? handle.stream =
        some { opened with session := turn.session.ended turn.buffer } ∧
      progress.manager.stream? handle.buffer =
        (if part.any DiffLine.isChange then some handle.stream else none) ∧
      progress.run = Run.ended handle
        (Run.answer turn.outcome failure (DiffLine.committed ops)) := by
  intro part progress
  rcases launched.applies applied with ⟨outcome, applies, midway⟩
  let held := (manager.setSession { opened with session := begun }).hold
    { opened with session := begun } turn.session turn.buffer
  have after : held.document opened.document = turn.buffer := by
    rw [document_hold, if_pos rfl]
  rw [← after] at midway
  rcases @Run.finished_leaves held { opened with session := turn.session } ⟨handle, [], .ready⟩
    (manager.document opened.document).lines range.first part (launched.underway.lines applied)
    launched.current midway with ⟨consistent, _, documents, sessions, current⟩
  rw [after] at sessions
  refine ⟨consistent, ?_, sessions, current, ?_⟩
  · intro name
    apply (documents name).trans
    rw [document_hold]
    rfl
  · have committed : turn.session.committed = DiffLine.committed part := by
      rw [applies.committed, launched.committed]
      rfl
    show Run.ended handle (Run.answer _ _ _) = _
    rw [(Session.finish_counts _ _).2, committed]
    by_cases all : part = ops
    · rw [all]
    · rw [outcome.trans (if_neg all)]
      rfl

end Manager

def Run.whole (manager : Manager) (handle : Handle) (supplies : List Supply) :
    Except Fault Progress :=
  let launched := Run.start manager handle
  Run.drive launched.1 launched.2 supplies

namespace Manager

variable {manager : Manager} {handle : Handle} {range : LineRange} {opened : Opened}
  {begun : Session}

theorem Launched.paced (launched : Launched manager handle range opened begun)
    (paced : manager.settings.instant = false) (items : List (Except String DiffLine)) :
    Run.whole manager handle (items.map Supply.ofItem) = do
      let turn ← begun.applyEach (manager.document opened.document) (DiffLine.leading items).1
      return Run.closing (manager.setSession { opened with session := begun }) handle
        { opened with session := begun } turn (DiffLine.leading items).2 := by
  rw [Run.whole, launched.run]
  exact Run.drive_paced launched.underway launched.quiet paced items

theorem Launched.lines (launched : Launched manager handle range opened begun)
    (lines : List DiffLine) : Run.whole manager handle (lines.map Supply.line) = do
      let turn ← begun.applyEach (manager.document opened.document) lines
      return Run.closing (manager.setSession { opened with session := begun }) handle
        { opened with session := begun } turn none := by
  rw [Run.whole, launched.run]
  exact Run.drive_lines launched.underway launched.quiet lines

end Manager

namespace Traffic

variable {traffic : Traffic} {id : BufferId} {document : String} {range : LineRange}
  {manager : Manager} {handle : Handle}

/-- A paced run of a fresh session is the session driven directly with the lines before the first
failure of the source. It is completed if all items were lines and all of them found what they
take, and the session stays for review if any applied line changes something. -/
theorem paced_run_drives_directly (reachable : traffic.Reachable)
    (started : traffic.manager.start id document range = ⟨manager, [], .ok handle⟩)
    (paced : manager.settings.instant = false) (items : List (Except String DiffLine)) :
    let lines := (DiffLine.leading items).1
    let failure := (DiffLine.leading items).2
    let original := traffic.manager.document document
    let part := DiffLine.applicable (original.lineCount - range.first) lines
    let run := Run.whole manager handle (items.map Supply.ofItem)
    ∃ session, manager.opened? id = some ⟨session, document⟩ ∧
      (range.first + lines.length < rowLimit →
        ∃ direct, session.drive original lines = .ok direct) ∧
      (∀ fault, session.drive original lines = .error fault → run = .error fault) ∧
      ∀ direct, session.drive original lines = .ok direct →
        direct.outcome = (if part = lines then .ok () else
          .error (.streamDesync direct.buffer.lineCount direct.buffer.lineCount)) ∧
        ∃ progress, run = .ok progress ∧
          progress.manager.document document = direct.buffer ∧
          progress.manager.sessions.get? handle.stream =
            some ⟨direct.session.takeCommitted.2, document⟩ ∧
          progress.events = direct.events ∧
          progress.run.stage =
            .ended (Run.answer direct.outcome failure (DiffLine.committed lines)) ∧
          progress.manager.stream? id =
            if part.any DiffLine.isChange then some handle.stream else none := by
  intro lines failure original part run
  rcases reachable.consistent.manager.fresh started with ⟨rfl, unchanged, session, fresh⟩
  rcases fresh.launched with ⟨begun, launched⟩
  have paces := launched.paced paced items
  have same : original = manager.document document := (unchanged document).symm
  clear_value original
  subst same
  refine ⟨session, fresh.opens, ?_, ?_, ?_⟩
  · intro small
    rcases launched.performs small with ⟨turn, applied⟩
    rw [Session.drive_eq launched.begins, applied]
    exact ⟨_, rfl⟩
  · intro fault failed
    rw [Session.drive_eq launched.begins] at failed
    apply paces.trans
    cases applied : begun.applyEach (manager.document document) lines with
    | error other =>
        rw [applied] at failed
        cases failed
        rfl
    | ok turn =>
        rw [applied] at failed
        cases failed
  · intro direct driven
    rw [Session.drive_eq launched.begins] at driven
    rcases bind_eq_ok.mp driven with ⟨turn, applied, same⟩
    cases same
    rcases launched.closes applied failure with ⟨_, documents, sessions, current, ends⟩
    refine ⟨(launched.applies applied).1, _, paces.trans (by rw [applied]; rfl), ?_, sessions, rfl,
      congrArg Run.stage ends, current⟩
    exact (documents document).trans (if_pos rfl)

/-- The source fails after it has added a line. -/
theorem oneLine_drives_directly : ∃ manager handle direct progress,
    (Manager.ofDocuments .standard ⟨[("d", ⟨["a"]⟩)]⟩).start ⟨"t"⟩ "d" ⟨0, 0⟩ =
        ⟨manager, [], .ok handle⟩ ∧ manager.settings.instant = false ∧
      ∃ session, manager.opened? ⟨"t"⟩ = some ⟨session, "d"⟩ ∧
        session.drive ⟨["a"]⟩ [⟨.added, "x"⟩] = .ok direct ∧
        Run.whole manager handle [.line ⟨.added, "x"⟩, .failure "gone"] = .ok progress ∧
        progress.manager.document "d" = direct.buffer ∧ progress.events = direct.events ∧
        progress.run.stage = .ended (.failed (.sourceFailure "gone")) ∧
        progress.manager.stream? ⟨"t"⟩ = some handle.stream := by
  have blank : (ofDocuments .standard ⟨[("d", ⟨["a"]⟩)]⟩).Reachable := .start _ _
  obtain ⟨manager, handle, started⟩ : ∃ manager handle,
      (Manager.ofDocuments .standard ⟨[("d", ⟨["a"]⟩)]⟩).start ⟨"t"⟩ "d" ⟨0, 0⟩ =
        ⟨manager, [], .ok handle⟩ := ⟨_, _, rfl⟩
  have paced : manager.settings.instant = false := by
    cases started
    rfl
  rcases paced_run_drives_directly blank started paced [.ok ⟨.added, "x"⟩, .error "gone"] with
    ⟨session, opened, performs, _, drives⟩
  rcases performs (by decide) with ⟨direct, driven⟩
  rcases drives direct driven with ⟨outcome, progress, run, document, _, events, stage, current⟩
  refine ⟨manager, handle, direct, progress, started, paced, session, opened, driven, run, document,
    events, ?_, current⟩
  rw [stage, outcome]
  rfl

/-- An instant run of a fresh session does exactly what a run under any other settings does, paced
or not, as long as the source does not fail, and both answer what the lines of the buffer allow. If
the source fails, an instant run applies nothing and closes its session. -/
theorem instant_run_agrees_with_paced (reachable : traffic.Reachable)
    (started : traffic.manager.start id document range = ⟨manager, [], .ok handle⟩)
    {quick : DiffSettings} (instant : quick.instant = true) :
    let original := traffic.manager.document document
    let run (settings : DiffSettings) (supplies : List Supply) : Except Fault Progress :=
      Run.whole { manager with settings } handle supplies
    (∀ (paced : DiffSettings) (lines : List DiffLine), run quick (lines.map .line) = do
        let progress ← run paced (lines.map .line)
        return { progress with manager := { progress.manager with settings := quick } }) ∧
      (∀ lines : List DiffLine, range.first + lines.length < rowLimit →
        ∃ progress, run quick (lines.map .line) = .ok progress ∧
          let count := (progress.manager.document document).lineCount
          progress.run.stage = .ended
            (if DiffLine.applicable (original.lineCount - range.first) lines = lines then
              .completed (DiffLine.committed lines)
            else .failed (.streamDesync count count))) ∧
      ∀ (items : List (Except String DiffLine)) (message : String),
        (DiffLine.leading items).2 = some message →
        ∃ progress opened, run quick (items.map Supply.ofItem) = .ok progress ∧
          progress.run.stage = .ended (.failed (.sourceFailure message)) ∧
          (∀ name, progress.manager.document name = traffic.manager.document name) ∧
          progress.manager.stream? id = none ∧
          progress.manager.sessions.get? handle.stream = some opened ∧
          opened.session.state = .idle ∧ opened.session.applied = 0 := by
  intro original run
  rcases reachable.consistent.manager.fresh started with ⟨rfl, unchanged, session, fresh⟩
  have same : original = manager.document document := (unchanged document).symm
  clear_value original
  subst same
  rcases (fresh.configured quick).launched with ⟨begun, launched⟩
  refine ⟨?_, ?_, ?_⟩
  · -- Both runs drive one session directly, and differ in the settings that they leave behind.
    intro paced lines
    rcases (fresh.configured paced).launched with ⟨other, slower⟩
    have twin : begun = other :=
      Except.ok.inj (launched.begins.symm.trans slower.begins)
    subst twin
    apply (launched.lines lines).trans
    rw [show run paced (lines.map Supply.line) = _ from slower.lines lines]
    show (do
      let turn ← begun.applyEach (manager.document document) lines
      return Run.closing
        { manager.setSession ⟨begun, document⟩ with settings := quick } handle ⟨begun, document⟩
        turn none) = (do
      let progress ← (do
        let turn ← begun.applyEach (manager.document document) lines
        return Run.closing
          { manager.setSession ⟨begun, document⟩ with settings := paced } handle ⟨begun, document⟩
          turn none)
      return { progress with manager := { progress.manager with settings := quick } })
    cases begun.applyEach (manager.document document) lines with
    | error fault => rfl
    | ok turn =>
        simp only [ok_bind, Run.closing_configured]
        rfl
  · intro lines small
    rcases launched.performs small with ⟨turn, applied⟩
    rcases launched.closes applied none with ⟨_, documents, _, _, ends⟩
    refine ⟨_, (launched.lines lines).trans (by rw [applied]; rfl), ?_⟩
    intro count
    have after : count = turn.buffer.lineCount :=
      congrArg Buffer.lineCount ((documents document).trans (if_pos rfl))
    have outcome := (launched.applies applied).1
    rw [ends, after]
    by_cases all : DiffLine.applicable
        ((manager.document document).lineCount - range.first) lines = lines
    · rw [if_pos all, outcome.trans (if_pos all)]
      rfl
    · rw [if_neg all, outcome.trans (if_neg all)]
      rfl
  · -- What was read before the failure is dropped, as if the session had been driven with no line.
    intro items message fails
    have nothing : begun.applyEach (manager.document document) [] =
      .ok ⟨begun, manager.document document, [], .ok ()⟩ := rfl
    rcases launched.closes nothing (some message) with ⟨_, documents, sessions, current, ends⟩
    rcases launched.applies nothing with ⟨_, _, midway⟩
    refine ⟨_, _, ?_, congrArg Run.stage ends, ?_, current, sessions, midway.finish_state, ?_⟩
    · apply (congrArg (fun start => Run.drive start.1 start.2 (items.map .ofItem))
        launched.run).trans
      exact Run.drive_failing launched.underway launched.quiet instant fails
    · intro name
      apply (documents name).trans
      split
      · rename_i own
        rw [own]
        exact unchanged document
      · exact unchanged name
    · exact (Session.finish_counts _ _).1.trans launched.applied

/-- The stream has a line too many, or fails behind its first line. -/
theorem oneLine_agrees_with_paced :
    let quick : DiffSettings := ⟨true, 0, false, 256⟩
    let slow : DiffSettings := ⟨false, 20, false, 256⟩
    let lines : List DiffLine := [⟨.added, "x"⟩, ⟨.same, "a"⟩, ⟨.same, "b"⟩]
    ∃ manager handle agreed kept failed,
      (Manager.ofDocuments slow ⟨[("d", ⟨["a"]⟩)]⟩).start ⟨"t"⟩ "d" ⟨0, 0⟩ =
        ⟨manager, [], .ok handle⟩ ∧ quick.instant = true ∧ slow.instant = false ∧
      Run.whole { manager with settings := quick } handle (lines.map .line) = .ok agreed ∧
      Run.whole { manager with settings := slow } handle (lines.map .line) = .ok kept ∧
      agreed.run = kept.run ∧ agreed.events = kept.events ∧
      agreed.manager.documents = kept.manager.documents ∧
      Run.whole { manager with settings := quick } handle
        [.line ⟨.added, "x"⟩, .failure "gone"] = .ok failed ∧
      failed.run.stage = .ended (.failed (.sourceFailure "gone")) ∧
      failed.manager.document "d" = ⟨["a"]⟩ := by
  intro quick slow lines
  have blank : (ofDocuments slow ⟨[("d", ⟨["a"]⟩)]⟩).Reachable := .start _ _
  obtain ⟨manager, handle, started⟩ : ∃ manager handle,
      (Manager.ofDocuments slow ⟨[("d", ⟨["a"]⟩)]⟩).start ⟨"t"⟩ "d" ⟨0, 0⟩ =
        ⟨manager, [], .ok handle⟩ := ⟨_, _, rfl⟩
  have instant : quick.instant = true := rfl
  rcases instant_run_agrees_with_paced blank started instant with ⟨agrees, performs, fails⟩
  rcases performs lines (by decide) with ⟨agreed, run, _⟩
  rcases bind_eq_ok.mp ((agrees slow lines).symm.trans run) with ⟨kept, slowly, same⟩
  rcases fails [.ok ⟨.added, "x"⟩, .error "gone"] "gone" rfl with
    ⟨failed, _, broken, stage, documents, _⟩
  cases same
  exact ⟨manager, handle, _, kept, failed, started, instant, rfl, run, slowly, rfl, rfl, rfl,
    broken, stage, documents "d"⟩

end Traffic

end Redline
