import Redline.Proofs.Renaming
import Redline.Proofs.Traffic

/-! What a manager is to one buffer: the sessions of that buffer and the documents that it owns.
Two managers that are the same to a buffer answer its requests the same way, up to the names of
streams. -/

namespace Redline

def Request.Respects (owner : String → BufferId) : Request → Prop
  | .start id document _ => owner document = id
  | _ => True

namespace Manager

def Owned (manager : Manager) (owner : String → BufferId) : Prop :=
  ∀ ⦃stream opened⦄, manager.sessions.get? stream = some opened →
    owner opened.document = opened.session.bufferId

/-- One manager has, under other names, all that another one has of one buffer, and no other
session. It is behind by the streams of other buffers. -/
structure Excerpt (names : Renaming) (owner : String → BufferId) (mine : BufferId) (gap : Nat)
    (full part : Manager) : Prop where
  settings : part.settings = full.settings
  documents : ∀ name, owner name = mine → part.document name = full.document name
  sessions : ∀ stream, part.sessions.get? (names.stream stream) =
    ((full.sessions.get? stream).filter fun opened => opened.session.bufferId = mine).map
      names.opened
  current : part.current.get? mine = (full.current.get? mine).map names.stream
  started : part.started + gap = full.started

variable {names : Renaming} {owner : String → BufferId} {mine : BufferId} {gap : Nat}
  {full part : Manager} {opened : Opened} {stream : StreamId}

theorem Excerpt.found (excerpt : Excerpt names owner mine gap full part)
    (found : full.sessions.get? stream = some opened) (own : opened.session.bufferId = mine) :
    part.sessions.get? (names.stream stream) = some (names.opened opened) := by
  rw [excerpt.sessions, found, Option.filter_some, if_pos (decide_eq_true own), Option.map_some]

theorem Excerpt.opened? (excerpt : Excerpt names owner mine gap full part)
    (consistent : full.Consistent) : part.opened? mine = (full.opened? mine).map names.opened := by
  rw [Manager.opened?, Manager.opened?, excerpt.current]
  cases current : full.current.get? mine with
  | none => rfl
  | some stream =>
      rcases consistent.current current with ⟨opened, found, own, _⟩
      rw [Option.map_some, Option.bind_some, Option.bind_some, excerpt.found found own, found,
        Option.map_some]

theorem Excerpt.hasFired (excerpt : Excerpt names owner mine gap full part)
    (found : full.sessions.get? stream = some opened) (own : opened.session.bufferId = mine) :
    part.hasFired (names.stream stream) = full.hasFired stream := by
  rw [Manager.hasFired, Manager.hasFired, excerpt.found found own, found]
  rfl

theorem Excerpt.setSession (excerpt : Excerpt names owner mine gap full part)
    (own : opened.session.bufferId = mine) :
    Excerpt names owner mine gap (full.setSession opened)
      (part.setSession (names.opened opened)) where
  settings := excerpt.settings
  documents := excerpt.documents
  sessions stream := by
    rw [get?_setSession, get?_setSession, excerpt.sessions]
    have same : names.stream stream = (names.opened opened).session.stream ↔
        stream = opened.session.stream := names.stream_inj
    simp only [same]
    split
    · rw [Option.filter_some, if_pos (decide_eq_true own), Option.map_some]
    · rfl
  current := excerpt.current
  started := excerpt.started

theorem Excerpt.setDocument (excerpt : Excerpt names owner mine gap full part) (name : String)
    (buffer : Buffer) :
    Excerpt names owner mine gap (full.setDocument name buffer) (part.setDocument name buffer) where
  settings := excerpt.settings
  documents other owned := by
    rw [document_setDocument, document_setDocument, excerpt.documents other owned]
  sessions := excerpt.sessions
  current := excerpt.current
  started := excerpt.started

theorem Excerpt.removeIfCurrent (excerpt : Excerpt names owner mine gap full part) {handle : Handle}
    (own : handle.buffer = mine) : Excerpt names owner mine gap (full.removeIfCurrent handle)
      (part.removeIfCurrent (names.handle handle)) where
  settings := by rw [settings_removeIfCurrent, settings_removeIfCurrent, excerpt.settings]
  documents name owned := by
    rw [document_removeIfCurrent, document_removeIfCurrent, excerpt.documents name owned]
  sessions stream := by
    rw [sessions_removeIfCurrent, sessions_removeIfCurrent, excerpt.sessions]
  current := by
    have buffer : (names.handle handle).buffer = handle.buffer := rfl
    have same : (full.current.get? mine).map names.stream = some (names.handle handle).stream ↔
        full.current.get? mine = some handle.stream := by
      cases full.current.get? mine with
      | none => simp
      | some stream => simp [Renaming.handle, names.stream_inj]
    rw [get?_removeIfCurrent, get?_removeIfCurrent, excerpt.current]
    simp only [buffer, own, same, true_and]
    split <;> rfl
  started := by rw [started_removeIfCurrent, started_removeIfCurrent, excerpt.started]

theorem Excerpt.fire (excerpt : Excerpt names owner mine gap full part)
    (found : full.sessions.get? stream = some opened)
    (own : opened.session.bufferId = mine) :
    Excerpt names owner mine gap (full.fire stream) (part.fire (names.stream stream)) := by
  rw [Manager.fire, Manager.fire, found, excerpt.found found own]
  exact @Excerpt.setSession _ _ _ _ _ _
    { opened with session := { opened.session with cancelled := true } } excerpt own

theorem Excerpt.discardCurrent (excerpt : Excerpt names owner mine gap full part)
    (consistent : full.Consistent) :
    Excerpt names owner mine gap (full.discardCurrent mine) (part.discardCurrent mine) := by
  rw [Manager.discardCurrent, Manager.discardCurrent, excerpt.opened? consistent]
  cases known : full.opened? mine with
  | none => exact excerpt
  | some opened =>
      exact @Excerpt.setSession _ _ _ _ _ _
        { opened with session := opened.session.discard } excerpt
        (consistent.on_table known).2.2.1

/-! ## Requests -/

structure Replies (names : Renaming) (owner : String → BufferId) (mine : BufferId) (gap : Nat)
    {α β : Type} (answer : α → β) (first : Reply α) (second : Reply β) : Prop where
  manager : Excerpt names owner mine gap first.manager second.manager
  events : second.events = first.events.map names.event
  outcome : second.outcome = names.outcome answer first.outcome

variable {α β : Type} {answer : α → β}

theorem Excerpt.operate (excerpt : Excerpt names owner mine gap full part)
    (owned : owner opened.document = mine)
    {turn : Session → Buffer → Except Fault (Turn α)}
    {other : Session → Buffer → Except Fault (Turn β)}
    (carried : ∀ session buffer, Carried (names.turn answer) (turn session buffer)
      (other (names.session session) buffer))
    (kept : ∀ taken, turn opened.session (full.document opened.document) = .ok taken →
      taken.session.bufferId = mine) :
    Alike (Replies names owner mine gap answer) (full.operate opened turn)
      (part.operate (names.opened opened) other) := by
  have same : part.document (names.opened opened).document = full.document opened.document :=
    excerpt.documents _ owned
  rw [Manager.operate, Manager.operate, same]
  refine (carried opened.session (full.document opened.document)).known.bind ?_
  rintro taken _ ⟨turned, rfl⟩
  have noted := @Excerpt.setSession _ _ _ _ _ _ { opened with session := taken.session } excerpt
    (kept taken turned)
  exact .ok ⟨noted.setDocument opened.document taken.buffer, rfl, rfl⟩

theorem Excerpt.resolve (excerpt : Excerpt names owner mine gap full part)
    (consistent : full.Consistent) (owned : full.Owned owner) (block : BlockId) (accept : Bool) :
    Alike (Replies names owner mine gap names.resolution) (full.resolve mine block accept)
      (part.resolve mine (names.blockId block) accept) := by
  rw [Manager.resolve, Manager.resolve, excerpt.opened? consistent]
  cases known : full.opened? mine with
  | none => exact .ok ⟨excerpt, rfl, rfl⟩
  | some opened =>
      rcases consistent.on_table known with ⟨_, found, own, _⟩
      have coherent := (consistent.filed found).2.2.coherent
      refine (excerpt.operate ((owned found).trans own)
        (fun session buffer => names.resolve_session session buffer block accept)
        fun taken turned => ((Session.Acts.resolve turned).reports coherent).bufferId.trans
          own).bind ?_
      rintro ⟨first, events, outcome⟩ ⟨second, _, _⟩ ⟨managers, rfl, rfl⟩
      cases outcome with
      | error error => exact .ok ⟨managers, rfl, rfl⟩
      | ok resolution =>
          refine Alike.ite (fun _ => ?_) fun _ => .ok ⟨managers, rfl, rfl⟩
          exact .ok ⟨managers.removeIfCurrent rfl, rfl, rfl⟩

theorem Excerpt.clear (excerpt : Excerpt names owner mine gap full part)
    (consistent : full.Consistent) (owned : full.Owned owner) (accept : Bool) :
    Alike (Replies names owner mine gap id) (full.clear mine accept)
      (part.clear mine accept) := by
  rw [Manager.clear, Manager.clear, excerpt.opened? consistent]
  cases known : full.opened? mine with
  | none => exact .ok ⟨excerpt, rfl, rfl⟩
  | some opened =>
      rcases consistent.on_table known with ⟨_, found, own, live⟩
      have coherent := (consistent.filed found).2.2.coherent
      refine (excerpt.operate ((owned found).trans own)
        (fun session buffer => names.clear_session session buffer accept)
        fun taken turned => ((Session.Acts.clear live turned).reports coherent).bufferId.trans
          own).bind ?_
      rintro ⟨first, events, outcome⟩ ⟨second, _, _⟩ ⟨managers, rfl, rfl⟩
      exact .ok ⟨managers.removeIfCurrent rfl, rfl, rfl⟩

theorem Excerpt.externalEdit (excerpt : Excerpt names owner mine gap full part)
    (consistent : full.Consistent) (owned : full.Owned owner) (line : Nat) (delta : Int) :
    Alike (Replies names owner mine gap id) (full.externalEdit mine line delta)
      (part.externalEdit mine line delta) := by
  rw [Manager.externalEdit, Manager.externalEdit, excerpt.opened? consistent]
  cases known : full.opened? mine with
  | none => exact .ok ⟨excerpt, rfl, rfl⟩
  | some opened =>
      rcases consistent.on_table known with ⟨_, found, own, _⟩
      have coherent := (consistent.filed found).2.2.coherent
      have same : part.document (names.opened opened).document = full.document opened.document :=
        excerpt.documents _ ((owned found).trans own)
      simp only [Option.map_some, same]
      refine (names.applyEdit_session opened.session _ line delta).known.bind ?_
      rintro taken _ ⟨turned, rfl⟩
      have kept := ((Session.Acts.edit turned).reports coherent).bufferId.trans own
      have noted := (@Excerpt.setSession _ _ _ _ _ _ { opened with session := taken.session }
        excerpt kept).setDocument opened.document taken.buffer
      by_cases idle : taken.session.state = .idle
      · have renamed : (names.turn id taken).session.state = .idle := idle
        rw [if_pos idle, if_pos renamed]
        exact .ok ⟨noted.removeIfCurrent rfl, rfl, rfl⟩
      · have renamed : ¬(names.turn id taken).session.state = .idle := idle
        rw [if_neg idle, if_neg renamed]
        exact .ok ⟨noted, rfl, rfl⟩

theorem Excerpt.setCurrent (excerpt : Excerpt names owner mine gap full part) (stream : StreamId) :
    Excerpt names owner mine gap
      { full with current := full.current.set mine stream, started := full.started + 1 }
      { part with
        current := part.current.set mine (names.stream stream), started := part.started + 1 } where
  settings := excerpt.settings
  documents := excerpt.documents
  sessions := excerpt.sessions
  current := by rw [Table.get?_set, Table.get?_set, if_pos rfl, if_pos rfl, Option.map_some]
  started := by rw [← excerpt.started, Nat.add_right_comm]

theorem Excerpt.start (excerpt : Excerpt names owner mine gap full part)
    (consistent : full.Consistent) {document : String} (owned : owner document = mine)
    {range : LineRange}
    (fresh : ∀ session,
      Session.start mine ⟨full.started + 1⟩ (full.document document) range = .ok session →
      names.stream ⟨full.started + 1⟩ = ⟨part.started + 1⟩) :
    Replies names owner mine gap names.handle (full.start mine document range)
      (part.start mine document range) := by
  rw [Manager.start, Manager.start, excerpt.documents document owned]
  by_cases inside : range.first ≤ range.last ∧ range.last < (full.document document).lineCount
  · cases opened : Session.start mine ⟨full.started + 1⟩ (full.document document) range with
    | error error =>
        rw [Session.start, if_pos inside] at opened
        cases opened
    | ok session =>
        have bufferId := (Session.start_opening opened).bufferId
        have noted := @Excerpt.setSession _ _ _ _ _ _ ⟨session, document⟩
          (excerpt.discardCurrent consistent) bufferId
        rw [← fresh session opened, names.start_session, opened]
        exact ⟨noted.setCurrent ⟨full.started + 1⟩, rfl, rfl⟩
  · rw [Session.start, Session.start, if_neg inside, if_neg inside]
    exact ⟨excerpt, rfl, rfl⟩

theorem Excerpt.cancel (excerpt : Excerpt names owner mine gap full part)
    (consistent : full.Consistent) : (part.cancel mine).1 = (full.cancel mine).1 ∧
      Excerpt names owner mine gap (full.cancel mine).2 (part.cancel mine).2 := by
  rw [Manager.cancel, Manager.cancel, excerpt.opened? consistent]
  cases known : full.opened? mine with
  | none => exact ⟨rfl, excerpt⟩
  | some opened =>
      rcases consistent.on_table known with ⟨_, found, own, _⟩
      exact ⟨rfl, excerpt.fire found own⟩

theorem Excerpt.report (excerpt : Excerpt names owner mine gap full part)
    (consistent : full.Consistent) : part.report mine = names.report (full.report mine) := by
  rw [Manager.report, Manager.report, state?, state?, stream?, stream?, blocks, blocks, overlay?,
    overlay?, excerpt.opened? consistent, excerpt.current]
  cases full.opened? mine with
  | none => rfl
  | some opened => rfl

/-- The buffer that a request is made for. Nobody is asked about all buffers, and a stream without
a session is nobody's. -/
def concern? (manager : Manager) (owner : String → BufferId) : Request → Option BufferId
  | .start id _ _ | .resolve id _ _ | .clear id _ | .externalEdit id _ _ | .textChange id _
  | .cancel id | .query id => some id
  | .fire stream => (manager.sessions.get? stream).map fun opened => opened.session.bufferId
  | .hostInsert name _ _ | .hostDelete name _ _ => some (owner name)
  | .count | .describe => none

structure Serves (names : Renaming) (owner : String → BufferId) (mine : BufferId) (gap : Nat)
    (first second : Manager × List Event × Answer) : Prop where
  manager : Excerpt names owner mine gap first.1 second.1
  events : second.2.1 = first.2.1.map names.event
  answer : second.2.2 = names.answer first.2.2

theorem Replies.answered {first : Reply α} {second : Reply β} {wrap : α → Answer}
    {enclose : β → Answer} (replies : Replies names owner mine gap answer first second)
    (same : ∀ result, enclose (answer result) = names.answer (wrap result)) :
    Serves names owner mine gap (answered first wrap) (answered second enclose) := by
  rcases first with ⟨first, events, outcome⟩
  rcases second with ⟨second, _, _⟩
  rcases replies with ⟨managers, rfl, rfl⟩
  refine ⟨managers, rfl, ?_⟩
  cases outcome with
  | error error => rfl
  | ok result => exact same result

theorem Excerpt.serve (excerpt : Excerpt names owner mine gap full part)
    (consistent : full.Consistent) (owned : full.Owned owner) {request : Request}
    (own : full.concern? owner request = some mine)
    (respects : request.Respects owner)
    (fresh : ∀ served, full.serve request = .ok served → served.1.started ≠ full.started →
      names.stream ⟨full.started + 1⟩ = ⟨part.started + 1⟩) :
    Alike (Serves names owner mine gap) (full.serve request)
      (part.serve (names.request request)) := by
  cases request with
  | start other document range =>
      cases own
      refine .ok ((excerpt.start consistent respects ?_).answered fun _ => rfl)
      intro session opened
      -- Opening a session gives out a number, so it has the name that is foreseen for it.
      refine fresh _ rfl ?_
      rw [Manager.start, opened]
      show (full.discardCurrent mine).started + 1 ≠ full.started
      rw [started_discardCurrent]
      exact Nat.succ_ne_self _
  | resolve other block accept =>
      cases own
      exact (excerpt.resolve consistent owned block accept).bind fun first second replies =>
        .ok (replies.answered fun _ => rfl)
  | clear other accept =>
      cases own
      exact (excerpt.clear consistent owned accept).bind fun first second replies =>
        .ok (replies.answered fun _ => rfl)
  | externalEdit other line delta =>
      cases own
      exact (excerpt.externalEdit consistent owned line delta).bind fun first second replies =>
        .ok (replies.answered fun _ => rfl)
  | textChange other edit =>
      cases own
      exact (excerpt.externalEdit consistent owned edit.start edit.lineDelta).bind
        fun first second replies => .ok (replies.answered fun _ => rfl)
  | cancel other =>
      cases own
      rcases excerpt.cancel consistent with ⟨found, managers⟩
      exact .ok ⟨managers, rfl, congrArg Answer.flag found⟩
  | fire stream =>
      rcases Option.map_eq_some_iff.mp own with ⟨opened, found, mine⟩
      exact .ok ⟨excerpt.fire found mine, rfl, rfl⟩
  | query other =>
      cases own
      exact .ok ⟨excerpt, rfl, congrArg Answer.report (excerpt.report consistent)⟩
  | count => cases own
  | describe => cases own
  | hostInsert name line lines =>
      have same := excerpt.documents name (Option.some.inj own)
      rw [Manager.serve]
      show Alike _ _ (part.serve (.hostInsert name line lines))
      rw [Manager.serve, same]
      cases (full.document name).insert line lines with
      | ok buffer => exact .ok ⟨excerpt.setDocument name buffer, rfl, rfl⟩
      | error error => exact .ok ⟨excerpt, rfl, rfl⟩
  | hostDelete name line count =>
      have same := excerpt.documents name (Option.some.inj own)
      rw [Manager.serve]
      show Alike _ _ (part.serve (.hostDelete name line count))
      rw [Manager.serve, same]
      cases (full.document name).delete line count with
      | ok deleted => exact .ok ⟨excerpt.setDocument name deleted.2, rfl, rfl⟩
      | error error => exact .ok ⟨excerpt, rfl, rfl⟩

/-! ## Runs -/

variable {later : Manager} {events : List Event} {target : Option StreamId} {run : Run}

theorem Turns.owned {next : Session} {after : Buffer}
    (turns : full.Turns opened next after events later) (consistent : full.Consistent)
    (owned : full.Owned owner) : later.Owned owner := by
  intro stream other found
  rw [turns.sessions] at found
  split at found
  · have reports := turns.acts.reports (consistent.filed turns.found).2.2.coherent
    rw [← Option.some.inj found]
    exact (owned turns.found).trans reports.bufferId.symm
  · exact owned found

theorem Changes.owned (changes : Changes target full events later) (consistent : full.Consistent)
    (owned : full.Owned owner) : later.Owned owner :=
  @Changes.invariant _ _ _ _ (fun middle _ => middle.Owned owner)
    (fun consistent _ turns owned => turns.owned consistent owned) changes consistent [] owned

structure Moves (names : Renaming) (owner : String → BufferId) (mine : BufferId) (gap : Nat)
    (first second : Progress) : Prop where
  manager : Excerpt names owner mine gap first.manager second.manager
  run : second.run = names.run first.run
  events : second.events = first.events.map names.event

structure Applies {ε : Type} (names : Renaming) (owner : String → BufferId) (mine : BufferId)
    (gap : Nat) (image : ε → ε) (first second : Manager × List Event × ε) : Prop where
  manager : Excerpt names owner mine gap first.1 second.1
  events : second.2.1 = first.2.1.map names.event
  stop : second.2.2 = image first.2.2

structure Runs (owner : String → BufferId) (mine : BufferId) (full : Manager) (run : Run) :
    Prop where
  consistent : full.Consistent
  owned : full.Owned owner
  attached : run.Attached full
  own : run.handle.buffer = mine

theorem Runs.changes (runs : Runs owner mine full run)
    (changes : Changes target full events later) : Runs owner mine later run where
  consistent := changes.consistent runs.consistent
  owned := changes.owned runs.consistent runs.owned
  attached := runs.attached.keeps (changes.keeps runs.consistent)
  own := runs.own

theorem Excerpt.reject (excerpt : Excerpt names owner mine gap full part)
    (coherent : opened.session.Coherent) (live : opened.session.state ≠ .idle)
    (bufferId : opened.session.bufferId = mine) (owned : owner opened.document = mine)
    (own : run.handle.buffer = mine) (applied : Nat) :
    Alike (Moves names owner mine gap) (Run.reject full opened run applied)
      (Run.reject part (names.opened opened) (names.run run) applied) := by
  refine (excerpt.operate owned (fun session buffer => names.clear_session session buffer false)
    fun taken turned => ((Session.Acts.clear live turned).reports coherent).bufferId.trans
      bufferId).bind ?_
  rintro ⟨first, events, outcome⟩ ⟨second, _, _⟩ ⟨managers, rfl, rfl⟩
  cases outcome with
  | error error => exact .ok ⟨managers, rfl, rfl⟩
  | ok done => exact .ok ⟨managers.removeIfCurrent own, rfl, rfl⟩

theorem ended_session (names : Renaming) (session : Session) (buffer : Buffer) :
    (names.session session).ended buffer = names.session (session.ended buffer) := by
  rw [Session.ended, Session.ended, names.finish_session]
  rfl

theorem Excerpt.finished (excerpt : Excerpt names owner mine gap full part)
    (bufferId : (opened.session.ended (full.document opened.document)).bufferId = mine)
    (owned : owner opened.document = mine) (own : run.handle.buffer = mine) :
    Excerpt names owner mine gap (Run.finished full run opened)
      (Run.finished part (names.run run) (names.opened opened)) := by
  have same : part.document (names.opened opened).document = full.document opened.document :=
    excerpt.documents _ owned
  have noted := @Excerpt.setSession _ _ _ _ _ _
    { opened with session := opened.session.ended (full.document opened.document) } excerpt bufferId
  have ended : (names.opened opened).session.ended (full.document opened.document) =
      names.session (opened.session.ended (full.document opened.document)) :=
    ended_session names opened.session _
  rw [Run.finished, Run.finished, same, ended]
  have branch (one other : Manager) :
      (if (names.session (opened.session.ended (full.document opened.document))).state = .idle
        then one else other) =
      if (opened.session.ended (full.document opened.document)).state = .idle
        then one else other := rfl
  simp only [branch]
  split
  · exact noted.removeIfCurrent own
  · exact noted

theorem Excerpt.conclude (excerpt : Excerpt names owner mine gap full part)
    (runs : Runs owner mine full run) (why : RunEnd) :
    Alike (Moves names owner mine gap) (Run.conclude full run why)
      (Run.conclude part (names.run run) (names.runEnd why)) := by
  rcases runs.attached with ⟨opened, found, buffer⟩
  have bufferId := buffer.trans runs.own
  have owned := (runs.owned found).trans bufferId
  have finishes : opened.session.Acts (full.document opened.document)
      (opened.session.ended (full.document opened.document)) (full.document opened.document)
      (opened.session.finish (full.document opened.document)).2 := .finish
  have reports := finishes.reports (runs.consistent.filed found).2.2.coherent
  have same : part.document (names.opened opened).document = full.document opened.document :=
    excerpt.documents _ owned
  have finish : (names.opened opened).session.finish (full.document opened.document) =
      (names.session (opened.session.finish (full.document opened.document)).1,
        (opened.session.finish (full.document opened.document)).2.map names.event) :=
    names.finish_session opened.session _
  have finished := excerpt.finished (reports.bufferId.trans bufferId) owned runs.own
  rw [Run.conclude_eq found, Run.conclude_eq (excerpt.found found bufferId)]
  simp only [same, finish]
  cases why with
  | exhausted => exact .ok ⟨finished, rfl, rfl⟩
  | failed error => exact .ok ⟨finished, rfl, rfl⟩
  | cancelled =>
      have ended : (names.opened opened).session.ended (full.document opened.document) =
          names.session (opened.session.ended (full.document opened.document)) :=
        ended_session names opened.session _
      simp only [finished.settings, ended]
      refine Alike.ite (fun rejects => ?_) fun _ => .ok ⟨finished, rfl, rfl⟩
      refine (@Excerpt.reject _ _ _ _ _ _
        { opened with session := opened.session.ended (full.document opened.document) } _ finished
        (Session.Acts.finish.coherent (runs.consistent.filed found).2.2.coherent) rejects.2
        (reports.bufferId.trans bufferId) owned runs.own _).bind ?_
      intro first second moves
      refine .ok ⟨moves.manager, moves.run, ?_⟩
      rw [moves.events, List.map_append]

theorem Excerpt.applyOne (excerpt : Excerpt names owner mine gap full part)
    (runs : Runs owner mine full run) (line : DiffLine) :
    Alike (Applies names owner mine gap (Option.map names.runEnd)) (Run.applyOne full run line)
      (Run.applyOne part (names.run run) line) := by
  rcases runs.attached with ⟨opened, found, buffer⟩
  have bufferId := buffer.trans runs.own
  have coherent := (runs.consistent.filed found).2.2.coherent
  have known : part.sessions.get? (names.run run).handle.stream = some (names.opened opened) :=
    excerpt.found found bufferId
  rw [Run.applyOne, Run.applyOne, found, known]
  refine Alike.ite (fun _ => ?_) fun _ => .ok ⟨excerpt, rfl, rfl⟩
  refine (excerpt.operate ((runs.owned found).trans bufferId)
    (fun session buffer => names.applyLine_session session buffer line)
    fun taken turned => ((Session.Acts.line turned).reports coherent).bufferId.trans
      bufferId).bind ?_
  rintro ⟨first, events, outcome⟩ ⟨second, _, _⟩ ⟨managers, rfl, rfl⟩
  cases outcome with
  | error error => exact .ok ⟨managers, rfl, rfl⟩
  | ok done => exact .ok ⟨managers, rfl, rfl⟩

theorem Excerpt.applyAll (excerpt : Excerpt names owner mine gap full part)
    (runs : Runs owner mine full run) (lines : List DiffLine) :
    Alike (Applies names owner mine gap names.runEnd) (Run.applyAll full run lines)
      (Run.applyAll part (names.run run) lines) := by
  induction lines generalizing full part with
  | nil => exact .ok ⟨excerpt, rfl, rfl⟩
  | cons line rest ih =>
      rw [Run.applyAll, Run.applyAll]
      refine (excerpt.applyOne runs line).known.bind ?_
      rintro ⟨middle, events, stop⟩ ⟨other, _, _⟩ ⟨applied, managers, rfl, rfl⟩
      cases stop with
      | some why => exact .ok ⟨managers, rfl, rfl⟩
      | none =>
          have changes := Run.applyOne_changes runs.consistent applied
          refine (ih managers (runs.changes changes)).bind ?_
          rintro ⟨last, more, why⟩ ⟨final, _, _⟩ ⟨managers, rfl, rfl⟩
          exact .ok ⟨managers, List.map_append.symm, rfl⟩

theorem Excerpt.concludeAfter (excerpt : Excerpt names owner mine gap full part)
    (runs : Runs owner mine full run) (events : List Event) (why : RunEnd) :
    Alike (Moves names owner mine gap) (Run.concludeAfter events full run why)
      (Run.concludeAfter (events.map names.event) part (names.run run) (names.runEnd why)) := by
  refine (excerpt.conclude runs why).bind fun first second moves => ?_
  refine .ok ⟨moves.manager, moves.run, ?_⟩
  rw [moves.events, List.map_append]

theorem Excerpt.receiveLine (excerpt : Excerpt names owner mine gap full part)
    (runs : Runs owner mine full run) (line : DiffLine) :
    Alike (Moves names owner mine gap) (Run.receiveLine full run line)
      (Run.receiveLine part (names.run run) line) := by
  rw [Run.receiveLine, Run.receiveLine, excerpt.settings]
  refine Alike.ite (fun _ => .ok ⟨excerpt, rfl, rfl⟩) fun _ => ?_
  refine (excerpt.applyOne runs line).known.bind ?_
  rintro ⟨middle, events, stop⟩ ⟨other, _, _⟩ ⟨applied, managers, rfl, rfl⟩
  have later := runs.changes (Run.applyOne_changes runs.consistent applied)
  cases stop with
  | some why => exact managers.concludeAfter later events why
  | none =>
      have settings : other.settings = middle.settings := managers.settings
      simp only [Option.map_none, settings]
      refine .ok ⟨managers, ?_, rfl⟩
      simp only [Renaming.run]
      split <;> rfl

theorem Excerpt.receive (excerpt : Excerpt names owner mine gap full part)
    (runs : Runs owner mine full run) (supply : Supply) :
    Alike (Moves names owner mine gap) (Run.receive full run supply)
      (Run.receive part (names.run run) supply) := by
  rcases run with ⟨handle, queued, stage⟩
  cases stage with
  | asking =>
      cases supply with
      | line line => exact excerpt.receiveLine runs line
      | failure message => exact excerpt.conclude runs (.failed (.sourceFailure message))
      | finished =>
          refine (excerpt.applyAll runs queued).known.bind ?_
          rintro ⟨middle, events, why⟩ ⟨other, _, _⟩ ⟨applied, managers, rfl, rfl⟩
          exact managers.concludeAfter
            (runs.changes (Run.applyAll_changes runs.consistent applied)) events why
  | ready => exact .ok ⟨excerpt, rfl, rfl⟩
  | resting => exact .ok ⟨excerpt, rfl, rfl⟩
  | ended outcome => exact .ok ⟨excerpt, rfl, rfl⟩

theorem Runs.hasFired (runs : Runs owner mine full run)
    (excerpt : Excerpt names owner mine gap full part) :
    part.hasFired (names.run run).handle.stream = full.hasFired run.handle.stream := by
  rcases runs.attached with ⟨opened, found, buffer⟩
  exact excerpt.hasFired found (buffer.trans runs.own)

theorem Excerpt.check (excerpt : Excerpt names owner mine gap full part)
    (runs : Runs owner mine full run) : Alike (Moves names owner mine gap) (Run.check full run)
      (Run.check part (names.run run)) := by
  have fired := runs.hasFired excerpt
  rcases run with ⟨handle, queued, stage⟩
  cases stage with
  | ready =>
      simp only [Run.check, fired]
      refine Alike.ite (fun _ => excerpt.conclude runs .cancelled) fun _ => .ok ⟨excerpt, rfl, rfl⟩
  | asking => exact .ok ⟨excerpt, rfl, rfl⟩
  | resting => exact .ok ⟨excerpt, rfl, rfl⟩
  | ended outcome => exact .ok ⟨excerpt, rfl, rfl⟩

theorem isOver_run (names : Renaming) (run : Run) : (names.run run).isOver = run.isOver := by
  rcases run with ⟨handle, queued, stage⟩
  cases stage <;> rfl

theorem Excerpt.interrupt (excerpt : Excerpt names owner mine gap full part)
    (runs : Runs owner mine full run) :
    Alike (Moves names owner mine gap) (Run.interrupt full run)
      (Run.interrupt part (names.run run)) := by
  rw [Run.interrupt, Run.interrupt, isOver_run, runs.hasFired excerpt]
  refine Alike.ite (fun _ => .ok ⟨excerpt, rfl, rfl⟩) fun _ => ?_
  exact Alike.ite (fun _ => excerpt.conclude runs .cancelled) fun _ => .ok ⟨excerpt, rfl, rfl⟩

/-- A run makes the same move in both managers, whatever is left of its session. -/
theorem Excerpt.move (excerpt : Excerpt names owner mine gap full part)
    (runs : run.isOver = false → Runs owner mine full run) (move : Run.Move) :
    Alike (Moves names owner mine gap) (run.move full move) ((names.run run).move part move) := by
  cases halted : run.isOver with
  | true =>
      rw [Run.move_over halted, Run.move_over ((isOver_run names run).trans halted)]
      exact .ok ⟨excerpt, rfl, rfl⟩
  | false =>
      have runs := runs halted
      cases move with
      | check => exact excerpt.check runs
      | interrupt => exact excerpt.interrupt runs
      | receive supply => exact excerpt.receive runs supply
      | wake =>
          refine .ok ⟨excerpt, ?_, rfl⟩
          rcases run with ⟨handle, queued, stage⟩
          cases stage <;> rfl

theorem Excerpt.launch (excerpt : Excerpt names owner mine gap full part)
    (consistent : full.Consistent) {handle : Handle} (own : handle.buffer = mine) :
    Excerpt names owner mine gap (Run.start full handle).1
        (Run.start part (names.handle handle)).1 ∧
      (Run.start part (names.handle handle)).2 = names.run (Run.start full handle).2 := by
  have buffer : (names.handle handle).buffer = mine := own
  rw [Run.start, Run.start, buffer, own, excerpt.opened? consistent]
  cases known : full.opened? mine with
  | none => exact ⟨excerpt, rfl⟩
  | some opened =>
      have begins : (names.opened opened).session.beginRun =
          names.outcome names.session opened.session.beginRun :=
        names.beginRun_session opened.session
      have same : (names.opened opened).session.stream = (names.handle handle).stream ↔
          opened.session.stream = handle.stream := names.stream_inj
      simp only [Option.map_some, begins, same]
      split
      · cases begun : opened.session.beginRun with
        | error error => exact ⟨excerpt, rfl⟩
        | ok session =>
            have reports : opened.session.Reports (full.document opened.document) session
              (full.document opened.document) [] := Session.begin_reports begun
            have bufferId := reports.bufferId.trans (consistent.on_table known).2.2.1
            exact ⟨@Excerpt.setSession _ _ _ _ _ _ { opened with session } excerpt bufferId, rfl⟩
      · exact ⟨excerpt, rfl⟩

end Manager

end Redline
