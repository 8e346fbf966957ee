import Redline.Manager.Run
import Redline.Proofs.Merging
import Redline.Proofs.Traffic

/-! Runs that nothing comes between. Paced or instant, a run leaves what its session leaves when it
is driven directly with the lines of the source. -/

namespace Redline

/-- The lines that a source yields before it fails for the first time, and how it fails then. -/
def DiffLine.leading : List (Except String DiffLine) → List DiffLine × Option String
  | [] => ([], none)
  | .error message :: _ => ([], some message)
  | .ok line :: items => (line :: (leading items).1, (leading items).2)

theorem DiffLine.leading_lines (lines : List DiffLine) :
    leading (lines.map .ok) = (lines, none) := by
  induction lines with
  | nil => rfl
  | cons line rest ih => rw [List.map_cons, leading, ih]

def Supply.ofItem : Except String DiffLine → Supply
  | .ok next => .line next
  | .error message => .failure message

theorem Supply.map_ofItem {items : List (Except String DiffLine)} {message : String}
    (fails : (DiffLine.leading items).2 = some message) : ∃ rest,
      items.map ofItem = (DiffLine.leading items).1.map .line ++ .failure message :: rest := by
  induction items with
  | nil => cases fails
  | cons item items ih =>
      cases item with
      | error other =>
          cases fails
          exact ⟨items.map ofItem, rfl⟩
      | ok line =>
          rcases ih fails with ⟨rest, same⟩
          exact ⟨rest, congrArg (List.cons (Supply.line line)) same⟩

namespace Manager

variable {manager : Manager} {opened : Opened} {session next : Session} {buffer after : Buffer}

def hold (manager : Manager) (opened : Opened) (session : Session) (buffer : Buffer) : Manager :=
  (manager.setSession { opened with session }).setDocument opened.document buffer

@[simp] theorem document_hold (manager : Manager) (opened : Opened) (session : Session)
    (buffer : Buffer) (name : String) : (manager.hold opened session buffer).document name =
      if name = opened.document then buffer else manager.document name :=
  document_setDocument _ _ name buffer

theorem get?_hold (manager : Manager) (opened : Opened) (session : Session) (buffer : Buffer)
    (stream : StreamId) : (manager.hold opened session buffer).sessions.get? stream =
      if stream = session.stream then some { opened with session }
      else manager.sessions.get? stream :=
  get?_setSession manager { opened with session } stream

theorem setSession_setSession {first second : Opened}
    (stream : second.session.stream = first.session.stream) :
    (manager.setSession first).setSession second = manager.setSession second := by
  simp only [setSession, stream, Table.set_set]

theorem hold_hold (stream : next.stream = session.stream) :
    (manager.hold opened session buffer).hold { opened with session } next after =
      manager.hold opened next after := by
  simp only [hold, setSession, setDocument, stream, Table.set_set]

theorem hold_self (found : manager.sessions.get? opened.session.stream = some opened)
    (stored : manager.documents.get? opened.document = some buffer) :
    manager.hold opened opened.session buffer = manager := by
  simp only [hold, setSession, setDocument, Table.set_get? found, Table.set_get? stored]

theorem removeIfCurrent_configured (manager : Manager) (settings : DiffSettings)
    (handle : Handle) : { manager with settings }.removeIfCurrent handle =
      { manager.removeIfCurrent handle with settings } := by
  rw [removeIfCurrent, removeIfCurrent]
  by_cases current : manager.current.get? handle.buffer = some handle.stream
  · rw [if_pos current, if_pos current]
  · rw [if_neg current, if_neg current]

theorem stored_of_lines {name : String} (filled : 0 < (manager.document name).lineCount) :
    manager.documents.get? name = some (manager.document name) := by
  rw [document] at filled ⊢
  cases stored : manager.documents.get? name with
  | none =>
      rw [stored] at filled
      exact absurd filled (Nat.lt_irrefl 0)
  | some buffer => rfl

structure UnderWay (manager : Manager) (handle : Handle) (opened : Opened) : Prop where
  consistent : manager.Consistent
  found : manager.sessions.get? handle.stream = some opened
  owner : opened.session.bufferId = handle.buffer
  state : opened.session.state = .streaming
  stored : manager.documents.get? opened.document = some (manager.document opened.document)

variable {handle : Handle} {turn : Turn Unit} {events : List Event}

theorem UnderWay.stream (underway : manager.UnderWay handle opened) :
    opened.session.stream = handle.stream := (underway.consistent.filed underway.found).1

theorem UnderWay.coherent (underway : manager.UnderWay handle opened) :
    opened.session.Coherent := (underway.consistent.filed underway.found).2.2.coherent

theorem UnderWay.filed (underway : manager.UnderWay handle opened) :
    manager.sessions.get? opened.session.stream = some opened := by
  rw [underway.stream, underway.found]

theorem UnderWay.same (underway : manager.UnderWay handle opened) :
    manager.hold opened opened.session (manager.document opened.document) = manager :=
  hold_self underway.filed underway.stored

theorem UnderWay.hasFired (underway : manager.UnderWay handle opened) :
    manager.hasFired handle.stream = opened.session.cancelled := by
  rw [Manager.hasFired, underway.found]

theorem UnderWay.hold (underway : manager.UnderWay handle opened)
    (acts : opened.session.Acts (manager.document opened.document) next after events)
    (state : next.state = .streaming) :
    (manager.hold opened next after).UnderWay handle { opened with session := next } := by
  have notes := notes_setDocument manager opened next after
  have turns := notes.stays underway.consistent underway.filed acts fun idle =>
    SessionState.noConfusion (state.symm.trans idle)
  have reports := acts.reports underway.coherent
  have found : (manager.hold opened next after).sessions.get? handle.stream =
      some { opened with session := next } := by
    rw [get?_hold, if_pos (reports.stream.trans underway.stream).symm]
  refine ⟨turns.consistent underway.consistent, found, reports.bufferId.trans underway.owner,
    state, ?_⟩
  rw [document_hold, if_pos rfl]
  exact (Table.get?_set _ _ _ _).trans (if_pos rfl)

theorem UnderWay.line (underway : manager.UnderWay handle opened) {line : DiffLine}
    (applied : opened.session.applyLine (manager.document opened.document) line = .ok turn) :
    (∃ error, turn = opened.session.refuse (manager.document opened.document) error) ∨
      turn.outcome = .ok () ∧ turn.session.stream = opened.session.stream ∧
        turn.session.cancelled = opened.session.cancelled ∧
        (manager.hold opened turn.session turn.buffer).UnderWay handle
          { opened with session := turn.session } := by
  rcases underway.coherent.under_way underway.state with ⟨draft, streams, _⟩
  have continues := underway.hold (.line applied)
    ((underway.coherent.line_state applied).trans underway.state)
  rcases streams.applyLine applied with refused | ⟨_, _, _, _, _, _, rfl⟩
  · exact .inl refused
  · exact .inr ⟨rfl, rfl, rfl, continues⟩

theorem UnderWay.lines (underway : manager.UnderWay handle opened) {lines : List DiffLine}
    (applied : opened.session.applyEach (manager.document opened.document) lines = .ok turn) :
    (manager.hold opened turn.session turn.buffer).UnderWay handle
      { opened with session := turn.session } := by
  induction lines generalizing manager opened turn with
  | nil =>
      cases applied
      rw [underway.same]
      exact underway
  | cons line later ih =>
      rcases bind_eq_ok.mp applied with ⟨first, applies, rest⟩
      rcases underway.line applies with ⟨error, rfl⟩ | ⟨outcome, stream, _, continues⟩
      · cases rest
        simp only [Session.refuse, underway.same]
        exact underway
      · rw [outcome] at rest
        rcases bind_eq_ok.mp rest with ⟨last, others, same⟩
        have final := @ih (manager.hold opened first.session first.buffer)
          { opened with session := first.session } last continues
        rw [document_hold, if_pos rfl] at final
        have later := final others
        rw [hold_hold (later.stream.trans continues.stream.symm)] at later
        cases same
        exact later

end Manager

namespace Run

open Manager (UnderWay)

variable {manager : Manager} {handle : Handle} {opened : Opened} {turn : Turn Unit}

/-! ## A run in the table of its session -/

def stop (outcome : Except SessionError Unit) (failure : Option String) : RunEnd :=
  match outcome, failure with
  | .error error, _ => .failed error
  | .ok _, some message => .failed (.sourceFailure message)
  | .ok _, none => .exhausted

def answer (outcome : Except SessionError Unit) (failure : Option String) (lines : List String) :
    RunOutcome :=
  match outcome, failure with
  | .error error, _ => .failed error
  | .ok _, some message => .failed (.sourceFailure message)
  | .ok _, none => .completed lines

/-- What a run that nobody cancels leaves once its session has applied what it could. -/
def closing (manager : Manager) (handle : Handle) (opened : Opened) (turn : Turn Unit)
    (failure : Option String) : Progress :=
  let held := manager.hold opened turn.session turn.buffer
  let finish := turn.session.finish turn.buffer
  ⟨finished held ⟨handle, [], .ready⟩ { opened with session := turn.session },
    ended handle (answer turn.outcome failure finish.1.committed), turn.events ++ finish.2⟩

theorem finished_configured (manager : Manager) (run : Run) (opened : Opened)
    (settings : DiffSettings) : finished { manager with settings } run opened =
      { finished manager run opened with settings } := by
  let session := opened.session.ended (manager.document opened.document)
  let noted := manager.setSession { opened with session }
  show (if session.state = .idle then { noted with settings }.removeIfCurrent run.handle
      else { noted with settings }) =
    { (if session.state = .idle then noted.removeIfCurrent run.handle else noted) with settings }
  by_cases idle : session.state = .idle
  · rw [if_pos idle, if_pos idle, Manager.removeIfCurrent_configured]
  · rw [if_neg idle, if_neg idle]

theorem closing_configured (settings : DiffSettings) (failure : Option String) :
    let next := closing manager handle opened turn failure
    closing { manager with settings } handle opened turn failure =
      { next with manager := { next.manager with settings } } := by
  intro next
  show Progress.mk (finished { manager.hold opened turn.session turn.buffer with settings } _ _) _ _
    = _
  rw [finished_configured]
  rfl

theorem concludeAfter_ok {run : Run} {why : RunEnd} {progress : Progress}
    (concluded : conclude manager run why = .ok progress) (events : List Event) :
    concludeAfter events manager run why =
      .ok { progress with events := events ++ progress.events } := by
  rw [concludeAfter, concluded]
  rfl

theorem concludeAfter_nil (manager : Manager) (run : Run) (why : RunEnd) :
    concludeAfter [] manager run why = conclude manager run why := by
  rw [concludeAfter]
  cases conclude manager run why with
  | error fault => rfl
  | ok progress => rfl

theorem concludeAfter_hold {run : Run}
    (continues : (manager.hold opened turn.session turn.buffer).UnderWay run.handle
      { opened with session := turn.session }) (failure : Option String) :
    concludeAfter turn.events (manager.hold opened turn.session turn.buffer) run
      (stop turn.outcome failure) = .ok (closing manager run.handle opened turn failure) := by
  rw [concludeAfter, conclude_eq continues.found]
  simp only [Manager.document_hold, if_true]
  rcases turn with ⟨session, buffer, events, outcome⟩
  cases outcome with
  | error error => simp only [stop, ok_bind]; rfl
  | ok _ =>
      cases failure with
      | none => rfl
      | some message => rfl

theorem conclude_still {run : Run} (underway : manager.UnderWay run.handle opened)
    (outcome : Except SessionError Unit) (failure : Option String) :
    conclude manager run (stop outcome failure) = .ok (closing manager run.handle opened
      ⟨opened.session, manager.document opened.document, [], outcome⟩ failure) := by
  have continues : (manager.hold opened opened.session
      (manager.document opened.document)).UnderWay run.handle opened := by
    rwa [underway.same]
  have ends := @concludeAfter_hold manager opened
    ⟨opened.session, manager.document opened.document, [], outcome⟩ run continues failure
  simp only [underway.same] at ends
  rw [← concludeAfter_nil, ends]

theorem closing_hold {first last : Turn Unit}
    (stream : last.session.stream = first.session.stream) (failure : Option String) :
    let next := closing (manager.hold opened first.session first.buffer) handle
      { opened with session := first.session } last failure
    { next with events := first.events ++ next.events } =
      closing manager handle opened { last with events := first.events ++ last.events }
        failure := by
  simp only [closing, Manager.hold_hold stream, List.append_assoc]

theorem applyOne_ok {run : Run} {line : DiffLine} (underway : manager.UnderWay run.handle opened)
    (applied : opened.session.applyLine (manager.document opened.document) line = .ok turn) :
    applyOne manager run line = .ok (manager.hold opened turn.session turn.buffer, turn.events,
      match turn.outcome with
      | .ok _ => none
      | .error error => some (.failed error)) := by
  rw [applyOne, underway.found]
  simp only [if_pos underway.state, Manager.operate, applied, ok_bind]
  rcases turn with ⟨session, buffer, events, outcome⟩
  cases outcome with
  | error error => rfl
  | ok _ => rfl

theorem applyOne_fault {run : Run} {line : DiffLine} {fault : Fault}
    (underway : manager.UnderWay run.handle opened)
    (failed : opened.session.applyLine (manager.document opened.document) line = .error fault) :
    applyOne manager run line = .error fault := by
  rw [applyOne, underway.found]
  simp only [if_pos underway.state, Manager.operate, failed]
  rfl

theorem applyAll_cons {run : Run} {line : DiffLine} {events : List Event} {later : Manager}
    (applied : applyOne manager run line = .ok (later, events, none)) (lines : List DiffLine) :
    applyAll manager run (line :: lines) = do
      let (last, more, why) ← applyAll later run lines
      return (last, events ++ more, why) := by
  rw [applyAll, applied]
  rfl

theorem applyAll_eq {run : Run} (underway : manager.UnderWay run.handle opened)
    (lines : List DiffLine) :
    applyAll manager run lines = do
      let turn ← opened.session.applyEach (manager.document opened.document) lines
      let held := manager.hold opened turn.session turn.buffer
      return (held, turn.events, stop turn.outcome none) := by
  induction lines generalizing manager opened with
  | nil =>
      show _ = Except.ok (manager.hold opened opened.session (manager.document opened.document),
        [], RunEnd.exhausted)
      rw [underway.same]
      rfl
  | cons line later ih =>
      cases applied : opened.session.applyLine (manager.document opened.document) line with
      | error fault =>
          rw [applyAll, applyOne_fault underway applied, Session.applyEach, applied]
          rfl
      | ok first =>
          have one := applyOne_ok underway applied
          rcases underway.line applied with ⟨error, rfl⟩ | ⟨outcome, stream, _, continues⟩
          · rw [applyAll, one, Session.applyEach_refused applied rfl]
            rfl
          · rw [outcome] at one
            rw [applyAll_cons one, Session.applyEach_cons applied outcome, ih continues,
              Manager.document_hold, if_pos rfl]
            cases others : first.session.applyEach first.buffer later with
            | error fault => rfl
            | ok last =>
                have final := @UnderWay.lines _ _ _ last continues later
                  (by rwa [Manager.document_hold, if_pos rfl])
                have named := final.stream.trans continues.stream.symm
                simp only [ok_bind]
                rw [Manager.hold_hold named]
                rfl

/-! ## What the source yields -/

theorem receive_fault {run : Run} {line : DiffLine} {fault : Fault}
    (underway : manager.UnderWay run.handle opened) (asking : run.stage = .asking)
    (paced : manager.settings.instant = false)
    (failed : opened.session.applyLine (manager.document opened.document) line = .error fault) :
    receive manager run (.line line) = .error fault := by
  rw [receive, receiveLine, paced, applyOne_fault underway failed]
  · rfl
  · exact asking

theorem receive_applied {run : Run} {line : DiffLine}
    (underway : manager.UnderWay run.handle opened) (asking : run.stage = .asking)
    (paced : manager.settings.instant = false)
    (applied : opened.session.applyLine (manager.document opened.document) line = .ok turn)
    (outcome : turn.outcome = .ok ()) :
    receive manager run (.line line) = .ok ⟨manager.hold opened turn.session turn.buffer,
      { run with stage := if manager.settings.opDelay.isSome then .resting else .ready },
      turn.events⟩ := by
  have one := applyOne_ok underway applied
  rw [outcome] at one
  rw [receive, receiveLine, paced, one]
  · rfl
  · exact asking

theorem receive_refused {run : Run} {line : DiffLine} {error : SessionError}
    (underway : manager.UnderWay run.handle opened) (asking : run.stage = .asking)
    (paced : manager.settings.instant = false)
    (refused : opened.session.applyLine (manager.document opened.document) line =
      .ok (opened.session.refuse (manager.document opened.document) error)) :
    receive manager run (.line line) = conclude manager run (.failed error) := by
  have one := applyOne_ok underway refused
  simp only [Session.refuse, underway.same] at one
  rw [receive, receiveLine, paced, one]
  · exact concludeAfter_nil manager run (.failed error)
  · exact asking

theorem receive_queued {run : Run} (asking : run.stage = .asking)
    (instant : manager.settings.instant = true) (line : DiffLine) :
    receive manager run (.line line) =
      .ok ⟨manager, { run with queued := run.queued ++ [line], stage := .ready }, []⟩ := by
  rw [receive, receiveLine, instant]
  · rfl
  · exact asking

theorem receive_exhausted {run : Run} (asking : run.stage = .asking) (empty : run.queued = []) :
    receive manager run .finished = conclude manager run .exhausted := by
  rw [receive, empty]
  · exact concludeAfter_nil manager run .exhausted
  · exact asking

theorem receive_finished {run : Run} (underway : manager.UnderWay run.handle opened)
    (asking : run.stage = .asking) : receive manager run .finished =
      opened.session.applyEach (manager.document opened.document) run.queued >>= fun turn =>
        concludeAfter turn.events (manager.hold opened turn.session turn.buffer) run
          (stop turn.outcome none) := by
  rw [receive, applyAll_eq underway]
  · cases opened.session.applyEach (manager.document opened.document) run.queued with
    | error fault => rfl
    | ok turn => rfl
  · exact asking

theorem finished_leaves {run : Run} {lines : List String} {first : Nat} {part : List DiffLine}
    (underway : manager.UnderWay run.handle opened)
    (current : manager.current.get? run.handle.buffer = some run.handle.stream)
    (midway : Session.Midway opened.session (manager.document opened.document)
      ((lines.take first).map .kept ++
        Draft.ofGroups run.handle.stream 0 (DiffLine.groups part) (lines.drop first))
      ((lines.drop first).drop (DiffLine.taken part))) :
    let later := finished manager run opened
    let session := opened.session.ended (manager.document opened.document)
    later.Consistent ∧ later.settings = manager.settings ∧
      (∀ name, later.document name = manager.document name) ∧
      later.sessions.get? run.handle.stream = some { opened with session } ∧
      later.stream? run.handle.buffer =
        if part.any DiffLine.isChange then some run.handle.stream else none := by
  intro later session
  have owned : run.handle = ⟨opened.session.bufferId, opened.session.stream⟩ := by
    rw [underway.owner, underway.stream]
  have turns := finished_turns underway.consistent underway.filed owned
  refine ⟨turns.consistent underway.consistent, ?_, ?_, ?_, ?_⟩
  · show (finished manager run opened).settings = manager.settings
    rw [finished]
    split
    · exact Manager.settings_removeIfCurrent _ _
    · rfl
  · intro name
    apply (turns.document name).trans
    split
    · rename_i own
      rw [own]
    · rfl
  · exact (turns.sessions run.handle.stream).trans (if_pos underway.stream.symm)
  · have state : session.state =
        if part.any DiffLine.isChange then .reviewing else .idle := midway.finish_state
    calc later.stream? run.handle.buffer
        = if session.state = .idle ∧ run.handle.buffer = opened.session.bufferId ∧
              manager.current.get? run.handle.buffer = some opened.session.stream then none
            else manager.current.get? run.handle.buffer := turns.current run.handle.buffer
      _ = if part.any DiffLine.isChange then some run.handle.stream else none := by
          rw [current, state, underway.owner, underway.stream]
          cases part.any DiffLine.isChange with
          | true => simp
          | false => simp

/-! ## Whole runs -/

variable {run : Run} {supply : Supply} {progress : Progress}

theorem drive_over (asked : ask manager run supply = .ok progress)
    (ends : progress.run.isOver = true) (supplies : List Supply) :
    drive manager run (supply :: supplies) = .ok progress := by
  rw [drive, asked, ok_bind, if_pos ends]
  rfl

theorem drive_goes (asked : ask manager run supply = .ok progress)
    (live : progress.run.isOver = false) (supplies : List Supply) :
    drive manager run (supply :: supplies) = do
      let last ← drive progress.manager progress.run supplies
      return { last with events := progress.events ++ last.events } := by
  rw [drive, asked, ok_bind, live]
  rfl

theorem ask_ok (underway : manager.UnderWay handle opened)
    (quiet : opened.session.cancelled = false) {queued : List DiffLine}
    (received : receive manager ⟨handle, queued, .asking⟩ supply = .ok progress) :
    ask manager ⟨handle, queued, .ready⟩ supply =
      .ok { progress with run := progress.run.wake } := by
  have unfired : manager.hasFired handle.stream = false := underway.hasFired.trans quiet
  rw [ask, check]
  simp only [unfired, Bool.false_eq_true, if_false, ok_bind, received]
  rfl

theorem ask_fault (underway : manager.UnderWay handle opened)
    (quiet : opened.session.cancelled = false) {queued : List DiffLine} {fault : Fault}
    (failed : receive manager ⟨handle, queued, .asking⟩ supply = .error fault) :
    ask manager ⟨handle, queued, .ready⟩ supply = .error fault := by
  have unfired : manager.hasFired handle.stream = false := underway.hasFired.trans quiet
  rw [ask, check]
  simp only [unfired, Bool.false_eq_true, if_false, ok_bind, failed]
  rfl

theorem ask_applied (underway : manager.UnderWay handle opened)
    (quiet : opened.session.cancelled = false) (paced : manager.settings.instant = false)
    {line : DiffLine}
    (applied : opened.session.applyLine (manager.document opened.document) line = .ok turn)
    (outcome : turn.outcome = .ok ()) :
    ask manager ⟨handle, [], .ready⟩ (.line line) =
      .ok ⟨manager.hold opened turn.session turn.buffer, ⟨handle, [], .ready⟩, turn.events⟩ := by
  have received := @receive_applied _ _ _ ⟨handle, [], .asking⟩ _ underway rfl paced applied outcome
  rw [ask_ok underway quiet received]
  split
  · rfl
  · rfl

theorem ask_refused (underway : manager.UnderWay handle opened)
    (quiet : opened.session.cancelled = false) (paced : manager.settings.instant = false)
    {line : DiffLine} {error : SessionError}
    (refused : opened.session.applyLine (manager.document opened.document) line =
      .ok (opened.session.refuse (manager.document opened.document) error))
    (failure : Option String) :
    ask manager ⟨handle, [], .ready⟩ (.line line) =
      .ok (closing manager handle opened
        (opened.session.refuse (manager.document opened.document) error) failure) := by
  have received := @receive_refused _ _ ⟨handle, [], .asking⟩ _ _ underway rfl paced refused
  have ends := @conclude_still _ _ ⟨handle, [], .asking⟩ underway (.error error) failure
  rw [ask_ok underway quiet (received.trans ends)]
  rfl

/-- A paced run is its session driven directly up to the first failure of the source. -/
theorem drive_paced (underway : manager.UnderWay handle opened)
    (quiet : opened.session.cancelled = false) (paced : manager.settings.instant = false)
    (items : List (Except String DiffLine)) :
    drive manager ⟨handle, [], .ready⟩ (items.map .ofItem) = do
      let turn ← opened.session.applyEach (manager.document opened.document)
        (DiffLine.leading items).1
      return closing manager handle opened turn (DiffLine.leading items).2 := by
  induction items generalizing manager opened with
  | nil =>
      have ends := @conclude_still _ _ ⟨handle, [], .asking⟩ underway (.ok ()) none
      have received := (receive_exhausted rfl rfl).trans ends
      rw [List.map_nil, drive, ask_ok underway quiet received]
      rfl
  | cons item items ih =>
      rw [List.map_cons]
      cases item with
      | error message =>
          have ends := @conclude_still _ _ ⟨handle, [], .asking⟩ underway (.ok ()) (some message)
          have received : receive manager ⟨handle, [], .asking⟩ (.failure message) = _ := ends
          exact drive_over (ask_ok underway quiet received) rfl _
      | ok line =>
          rw [Supply.ofItem, DiffLine.leading]
          cases applied : opened.session.applyLine (manager.document opened.document) line with
          | error fault =>
              have failed := @receive_fault _ _ ⟨handle, [], .asking⟩ _ _ underway rfl paced applied
              rw [drive, ask_fault underway quiet failed, Session.applyEach, applied]
              rfl
          | ok first =>
              rcases underway.line applied with ⟨error, rfl⟩ | ⟨outcome, _, kept, continues⟩
              · have asked := ask_refused underway quiet paced applied (DiffLine.leading items).2
                rw [Session.applyEach_refused applied rfl]
                exact drive_over asked rfl _
              · have asked := ask_applied underway quiet paced applied outcome
                have rest := ih continues (kept.trans quiet) paced
                rw [Manager.document_hold, if_pos rfl] at rest
                rw [drive_goes asked rfl, rest, Session.applyEach_cons applied outcome]
                cases others : first.session.applyEach first.buffer (DiffLine.leading items).1 with
                | error fault => rfl
                | ok last =>
                    have final := @UnderWay.lines _ _ _ last continues _
                      (by rwa [Manager.document_hold, if_pos rfl])
                    exact congrArg Except.ok
                      (closing_hold (final.stream.trans continues.stream.symm) _)

theorem drive_queued (underway : manager.UnderWay handle opened)
    (quiet : opened.session.cancelled = false) (instant : manager.settings.instant = true)
    (queued lines : List DiffLine) (supplies : List Supply) :
    drive manager ⟨handle, queued, .ready⟩ (lines.map .line ++ supplies) =
      drive manager ⟨handle, queued ++ lines, .ready⟩ supplies := by
  induction lines generalizing queued with
  | nil => rw [List.map_nil, List.nil_append, List.append_nil]
  | cons line later ih =>
      have received := @receive_queued _ ⟨handle, queued, .asking⟩ rfl instant line
      have rest := ih (queued ++ [line])
      rw [List.append_assoc, List.singleton_append] at rest
      rw [List.map_cons, List.cons_append,
        drive_goes (ask_ok underway quiet received) rfl (later.map Supply.line ++ supplies), ← rest]
      let goes := drive manager ⟨handle, queued ++ [line], .ready⟩ (later.map .line ++ supplies)
      show (do
        let last ← goes
        return { last with events := [] ++ last.events }) = goes
      cases goes with
      | error fault => rfl
      | ok last => rfl

theorem drive_instant (underway : manager.UnderWay handle opened)
    (quiet : opened.session.cancelled = false) (instant : manager.settings.instant = true)
    (lines : List DiffLine) : drive manager ⟨handle, [], .ready⟩ (lines.map .line) = do
      let turn ← opened.session.applyEach (manager.document opened.document) lines
      return closing manager handle opened turn none := by
  have queue := drive_queued underway quiet instant [] lines []
  rw [List.append_nil, List.nil_append] at queue
  have receives : receive manager ⟨handle, lines, .asking⟩ .finished = do
      let turn ← opened.session.applyEach (manager.document opened.document) lines
      return closing manager handle opened turn none := by
    apply (@receive_finished _ _ ⟨handle, lines, .asking⟩ underway rfl).trans
    cases applied : opened.session.applyEach (manager.document opened.document) lines with
    | error fault => rfl
    | ok turn =>
        exact @concludeAfter_hold _ _ _ ⟨handle, lines, .asking⟩ (underway.lines applied) none
  rw [queue, drive]
  cases applied : opened.session.applyEach (manager.document opened.document) lines with
  | error fault =>
      rw [applied] at receives
      exact ask_fault underway quiet receives
  | ok turn =>
      rw [applied] at receives
      exact ask_ok underway quiet receives

/-- Nothing comes of what an instant run has read when the source fails. -/
theorem drive_failing (underway : manager.UnderWay handle opened)
    (quiet : opened.session.cancelled = false) (instant : manager.settings.instant = true)
    {items : List (Except String DiffLine)} {message : String}
    (fails : (DiffLine.leading items).2 = some message) :
    drive manager ⟨handle, [], .ready⟩ (items.map .ofItem) = .ok (closing manager handle opened
      ⟨opened.session, manager.document opened.document, [], .ok ()⟩ (some message)) := by
  rcases Supply.map_ofItem fails with ⟨rest, divided⟩
  have ends := @conclude_still _ _ ⟨handle, (DiffLine.leading items).1, .asking⟩ underway (.ok ())
    (some message)
  have received : receive manager ⟨handle, (DiffLine.leading items).1, .asking⟩
      (.failure message) = _ := ends
  rw [divided, drive_queued underway quiet instant, List.nil_append]
  exact drive_over (ask_ok underway quiet received) rfl rest

/-- Whatever the pace, a run that nothing comes between is its session driven directly. -/
theorem drive_lines (underway : manager.UnderWay handle opened)
    (quiet : opened.session.cancelled = false) (lines : List DiffLine) :
    drive manager ⟨handle, [], .ready⟩ (lines.map .line) = do
      let turn ← opened.session.applyEach (manager.document opened.document) lines
      return closing manager handle opened turn none := by
  cases pace : manager.settings.instant with
  | true => exact drive_instant underway quiet pace lines
  | false =>
      have paced := drive_paced underway quiet pace (lines.map .ok)
      rw [DiffLine.leading_lines, List.map_map] at paced
      exact paced

end Run

end Redline
