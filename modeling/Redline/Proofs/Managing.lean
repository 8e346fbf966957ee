import Redline.Manager.Request
import Redline.Proofs.Atomicity
import Redline.Proofs.Reporting

/-! What requests do to a manager. Apart from starting a session and from clearing one that
refuses, a request lets one session act, and the session leaves the table when it is done. -/

namespace Redline

namespace Session

structure Orderly (session : Session) : Prop where
  coherent : session.Coherent
  fired : session.state = .idle → session.cancelled = true

variable {session next : Session} {buffer after : Buffer} {events : List Event}

structure Opening (session : Session) (id : BufferId) (stream : StreamId)
    (initial : List String) : Prop where
  bufferId : session.bufferId = id
  stream : session.stream = stream
  initial : session.initial = initial
  state : session.state = .streaming
  overlay : session.overlay = .empty
  applied : session.applied = 0

theorem start_opening {id : BufferId} {stream : StreamId} {range : LineRange}
    (started : Session.start id stream buffer range = .ok session) :
    session.Opening id stream (buffer.linesIn range.first (range.last + 1)) := by
  unfold Session.start at started
  split at started
  · rw [← Except.ok.inj started]
    exact ⟨rfl, rfl, rfl, rfl, rfl, rfl⟩
  · simp at started

theorem start_orderly {id : BufferId} {stream : StreamId} {range : LineRange}
    (started : Session.start id stream buffer range = .ok session) : session.Orderly := by
  refine ⟨start_coherent started, fun idle => ?_⟩
  rw [(start_opening started).state] at idle
  exact SessionState.noConfusion idle

theorem discard_orderly (session : Session) : session.discard.Orderly :=
  ⟨discard_coherent session, fun _ => rfl⟩

theorem Orderly.acts (orderly : session.Orderly) (acts : session.Acts buffer next after events) :
    next.Orderly := by
  have reports := acts.reports orderly.coherent
  refine ⟨acts.coherent orderly.coherent, fun idle => ?_⟩
  by_cases before : session.state = .idle
  · exact reports.kept (orderly.fired before)
  · exact reports.fired before idle

end Session

def Request.document? : Request → Option String
  | hostInsert name _ _ | hostDelete name _ _ => some name
  | _ => none

namespace Manager

variable {manager middle later : Manager} {opened : Opened} {id : BufferId} {stream : StreamId}

/-! ## Tables -/

@[simp] theorem current_setDocument (manager : Manager) (name : String) (buffer : Buffer) :
    (manager.setDocument name buffer).current = manager.current := rfl

@[simp] theorem current_setSession (manager : Manager) (opened : Opened) :
    (manager.setSession opened).current = manager.current := rfl

@[simp] theorem document_setSession (manager : Manager) (opened : Opened) (name : String) :
    (manager.setSession opened).document name = manager.document name := rfl

theorem document_setDocument (manager : Manager) (name other : String) (buffer : Buffer) :
    (manager.setDocument name buffer).document other =
      if other = name then buffer else manager.document other := by
  rw [document, setDocument]
  simp only [Table.get?_set]
  split
  · rfl
  · rfl

theorem get?_setSession (manager : Manager) (opened : Opened) (stream : StreamId) :
    (manager.setSession opened).sessions.get? stream =
      if stream = opened.session.stream then some opened else manager.sessions.get? stream := by
  rw [setSession, Table.get?_set]

@[simp] theorem sessions_removeIfCurrent (manager : Manager) (handle : Handle) :
    (manager.removeIfCurrent handle).sessions = manager.sessions := by
  rw [removeIfCurrent]
  split <;> rfl

@[simp] theorem document_removeIfCurrent (manager : Manager) (handle : Handle) (name : String) :
    (manager.removeIfCurrent handle).document name = manager.document name := by
  rw [removeIfCurrent]
  split <;> rfl

@[simp] theorem settings_removeIfCurrent (manager : Manager) (handle : Handle) :
    (manager.removeIfCurrent handle).settings = manager.settings := by
  rw [removeIfCurrent]
  split <;> rfl

@[simp] theorem started_removeIfCurrent (manager : Manager) (handle : Handle) :
    (manager.removeIfCurrent handle).started = manager.started := by
  rw [removeIfCurrent]
  split <;> rfl

theorem get?_removeIfCurrent (manager : Manager) (handle : Handle) (id : BufferId) :
    (manager.removeIfCurrent handle).current.get? id =
      if id = handle.buffer ∧ manager.current.get? id = some handle.stream then none
      else manager.current.get? id := by
  rw [removeIfCurrent]
  by_cases own : id = handle.buffer
  · subst own
    by_cases current : manager.current.get? handle.buffer = some handle.stream
    · simp [current, Table.get?_erase]
    · simp [current]
  · split
    · simp [own, Table.get?_erase]
    · simp [own]

theorem listed_removeIfCurrent (manager : Manager) (handle : Handle) :
    (manager.removeIfCurrent handle).current.entries.Sublist manager.current.entries := by
  rw [removeIfCurrent]
  split
  · exact List.filter_sublist
  · exact .refl _

theorem opened?_eq_some : manager.opened? id = some opened ↔
    ∃ stream, manager.current.get? id = some stream ∧
      manager.sessions.get? stream = some opened := by
  rw [opened?, Option.bind_eq_some_iff]

/-! ## The invariant -/

/-- What holds between requests: sessions are filed under their own stream, and the table leads
to sessions of the right buffer that are still at work. -/
structure Consistent (manager : Manager) : Prop where
  filed : ∀ {stream opened}, manager.sessions.get? stream = some opened →
    opened.session.stream = stream ∧ stream.number ≤ manager.started ∧ opened.session.Orderly
  current : ∀ {id stream}, manager.current.get? id = some stream →
    ∃ opened, manager.sessions.get? stream = some opened ∧ opened.session.bufferId = id ∧
      opened.session.state ≠ .idle

theorem ofDocuments_consistent (settings : DiffSettings) (documents : Table String Buffer) :
    (ofDocuments settings documents).Consistent where
  filed found := by simp [ofDocuments] at found
  current found := by simp [ofDocuments] at found

theorem Consistent.on_table (consistent : manager.Consistent)
    (found : manager.opened? id = some opened) :
    manager.current.get? id = some opened.session.stream ∧
      manager.sessions.get? opened.session.stream = some opened ∧
      opened.session.bufferId = id ∧ opened.session.state ≠ .idle := by
  rcases opened?_eq_some.mp found with ⟨stream, current, held⟩
  rcases consistent.current current with ⟨other, same, bufferId, live⟩
  have equal : other = opened := Option.some.inj (same.symm.trans held)
  subst equal
  have key : other.session.stream = stream := (consistent.filed held).1
  subst key
  exact ⟨current, held, bufferId, live⟩

theorem Consistent.unknown (consistent : manager.Consistent) :
    manager.sessions.get? ⟨manager.started + 1⟩ = none := by
  cases found : manager.sessions.get? ⟨manager.started + 1⟩ with
  | none => rfl
  | some opened => exact absurd (consistent.filed found).2.1 (Nat.not_succ_le_self _)

theorem Consistent.known (consistent : manager.Consistent)
    (found : manager.sessions.get? stream = some opened) : stream ≠ ⟨manager.started + 1⟩ := by
  intro new
  rw [new, consistent.unknown] at found
  simp at found

theorem Consistent.unshared (consistent : manager.Consistent) {other : BufferId}
    (first : manager.current.get? id = some stream)
    (second : manager.current.get? other = some stream) : id = other := by
  rcases consistent.current first with ⟨opened, found, rfl, _⟩
  rcases consistent.current second with ⟨twin, same, rfl, _⟩
  rw [found] at same
  rw [Option.some.inj same]

/-! ## What can happen to a manager -/

/-- A session acts on its document. If that closes it, it leaves the table. -/
structure Turns (manager : Manager) (opened : Opened) (next : Session) (after : Buffer)
    (events : List Event) (later : Manager) : Prop where
  found : manager.sessions.get? opened.session.stream = some opened
  acts : opened.session.Acts (manager.document opened.document) next after events
  sessions : ∀ stream, later.sessions.get? stream =
    if stream = opened.session.stream then some { opened with session := next }
    else manager.sessions.get? stream
  current : ∀ id, later.current.get? id =
    if next.state = .idle ∧ id = opened.session.bufferId ∧
        manager.current.get? id = some opened.session.stream then none
    else manager.current.get? id
  listed : later.current.entries.Sublist manager.current.entries
  document : ∀ name, later.document name =
    if name = opened.document then after else manager.document name
  started : later.started = manager.started
  settings : later.settings = manager.settings

inductive Changes (target : Option StreamId) : Manager → List Event → Manager → Prop where
  | none (manager : Manager) : Changes target manager [] manager
  | more {manager middle later : Manager} {opened : Opened} {next : Session} {after : Buffer}
      {events rest : List Event} : target = some opened.session.stream →
      Turns manager opened next after events middle → Changes target middle rest later →
      Changes target manager (events ++ rest) later

/-- A session is opened and takes the place of the one that was there, which is silenced. -/
structure Opens (manager : Manager) (id : BufferId) (range : LineRange) (fresh : Opened)
    (later : Manager) : Prop where
  opened : Session.start id ⟨manager.started + 1⟩ (manager.document fresh.document) range =
    .ok fresh.session
  sessions : ∀ stream, later.sessions.get? stream =
    if stream = ⟨manager.started + 1⟩ then some fresh
    else if manager.current.get? id = some stream then
      (manager.sessions.get? stream).map fun opened =>
        { opened with session := opened.session.discard }
    else manager.sessions.get? stream
  current : ∀ other, later.current.get? other =
    if other = id then some ⟨manager.started + 1⟩ else manager.current.get? other
  listed : later.current = manager.current.set id ⟨manager.started + 1⟩
  document : ∀ name, later.document name = manager.document name
  started : later.started = manager.started + 1
  settings : later.settings = manager.settings

structure Strands (manager : Manager) (id : BufferId) (later : Manager) : Prop where
  sessions : ∀ stream, later.sessions.get? stream = manager.sessions.get? stream
  current : ∀ other, later.current.get? other =
    if other = id then none else manager.current.get? other
  listed : later.current.entries.Sublist manager.current.entries
  document : ∀ name, later.document name = manager.document name
  started : later.started = manager.started
  settings : later.settings = manager.settings

variable {next : Session} {after : Buffer} {events rest : List Event}
  {target : Option StreamId}

theorem Changes.one (own : target = some opened.session.stream)
    (turns : manager.Turns opened next after events later) :
    Changes target manager events later := by
  rw [← List.append_nil events]
  exact .more own turns (.none later)

theorem Changes.append (first : Changes target manager events middle)
    (second : Changes target middle rest later) :
    Changes target manager (events ++ rest) later := by
  induction first with
  | none manager => exact second
  | more own turns _ ih =>
      rw [List.append_assoc]
      exact .more own turns (ih second)

/-! ## The invariant is kept -/

theorem Turns.consistent (turns : manager.Turns opened next after events later)
    (consistent : manager.Consistent) : later.Consistent := by
  rcases consistent.filed turns.found with ⟨_, counted, orderly⟩
  have reports := turns.acts.reports orderly.coherent
  constructor
  · intro stream other found
    rw [turns.started]
    rw [turns.sessions] at found
    split at found
    · rename_i own
      rw [← Option.some.inj found, own]
      exact ⟨reports.stream, counted, orderly.acts turns.acts⟩
    · exact consistent.filed found
  · intro id stream current
    rw [turns.current] at current
    split at current
    · simp at current
    · rename_i kept
      rcases consistent.current current with ⟨other, found, bufferId, live⟩
      by_cases own : stream = opened.session.stream
      · subst own
        have equal : other = opened := Option.some.inj (found.symm.trans turns.found)
        subst equal
        refine ⟨_, by rw [turns.sessions, if_pos rfl], reports.bufferId.trans bufferId, ?_⟩
        exact fun idle => kept ⟨idle, bufferId.symm, current⟩
      · exact ⟨other, by rw [turns.sessions, if_neg own, found], bufferId, live⟩

theorem Consistent.setDocument (consistent : manager.Consistent) (name : String)
    (buffer : Buffer) : (manager.setDocument name buffer).Consistent :=
  ⟨consistent.filed, consistent.current⟩

theorem Changes.consistent (changes : Changes target manager events later)
    (consistent : manager.Consistent) : later.Consistent := by
  induction changes with
  | none manager => exact consistent
  | more _ turns _ ih => exact ih (turns.consistent consistent)

/-- What every turn keeps up with the log is kept up with it by all turns together. -/
theorem Changes.invariant {P : Manager → List Event → Prop}
    (turn : ∀ {manager opened next after events later log}, Consistent manager →
      target = some opened.session.stream → Turns manager opened next after events later →
      P manager log → P later (log ++ events))
    (changes : Changes target manager events later) (consistent : manager.Consistent)
    (log : List Event) (holds : P manager log) : P later (log ++ events) := by
  induction changes generalizing log with
  | none manager =>
      rw [List.append_nil]
      exact holds
  | more own turns _ ih =>
      rw [← List.append_assoc]
      exact ih (turns.consistent consistent) _ (turn consistent own turns holds)

theorem Opens.others {range : LineRange} {fresh : Opened} {other : BufferId}
    (opens : manager.Opens id range fresh later) (consistent : manager.Consistent)
    (current : manager.current.get? other = some stream) (foreign : other ≠ id) :
    later.sessions.get? stream = manager.sessions.get? stream := by
  rcases consistent.current current with ⟨opened, found, _⟩
  rw [opens.sessions, if_neg (consistent.known found), if_neg]
  exact fun shared => foreign (consistent.unshared current shared)

theorem Opens.consistent {range : LineRange} {fresh : Opened}
    (opens : manager.Opens id range fresh later) (consistent : manager.Consistent) :
    later.Consistent := by
  have opening := Session.start_opening opens.opened
  constructor
  · intro stream opened found
    rw [opens.started]
    rw [opens.sessions] at found
    split at found
    · rename_i own
      rw [← Option.some.inj found, own]
      exact ⟨opening.stream, Nat.le_refl _, Session.start_orderly opens.opened⟩
    · split at found
      · rcases Option.map_eq_some_iff.mp found with ⟨old, known, rfl⟩
        rcases consistent.filed known with ⟨keyed, counted, _⟩
        exact ⟨keyed, Nat.le_succ_of_le counted, Session.discard_orderly old.session⟩
      · rcases consistent.filed found with ⟨keyed, counted, orderly⟩
        exact ⟨keyed, Nat.le_succ_of_le counted, orderly⟩
  · intro other stream current
    rw [opens.current] at current
    split at current
    · rename_i own
      rw [← Option.some.inj current, own]
      refine ⟨fresh, by rw [opens.sessions, if_pos rfl], opening.bufferId, ?_⟩
      simp [opening.state]
    · rename_i foreign
      rcases consistent.current current with ⟨opened, found, bufferId, live⟩
      refine ⟨opened, ?_, bufferId, live⟩
      rw [opens.others consistent current foreign, found]

theorem Strands.consistent (strands : manager.Strands id later)
    (consistent : manager.Consistent) : later.Consistent := by
  constructor
  · intro stream opened found
    rw [strands.sessions] at found
    rw [strands.started]
    exact consistent.filed found
  · intro other stream current
    rw [strands.current] at current
    split at current
    · simp at current
    · rcases consistent.current current with ⟨opened, found, rest⟩
      exact ⟨opened, by rw [strands.sessions, found], rest⟩

/-! ## Requests -/

structure Notes (manager : Manager) (opened : Opened) (next : Session) (after : Buffer)
    (noted : Manager) : Prop where
  sessions : noted.sessions = (manager.setSession { opened with session := next }).sessions
  current : noted.current = manager.current
  document : ∀ name, noted.document name =
    if name = opened.document then after else manager.document name
  started : noted.started = manager.started
  settings : noted.settings = manager.settings

theorem notes_setSession (manager : Manager) (opened : Opened) (next : Session) :
    manager.Notes opened next (manager.document opened.document)
      (manager.setSession { opened with session := next }) := by
  refine ⟨rfl, rfl, fun name => ?_, rfl, rfl⟩
  split
  · rename_i own
    rw [own]
    rfl
  · rfl

theorem notes_setDocument (manager : Manager) (opened : Opened) (next : Session)
    (after : Buffer) : manager.Notes opened next after
      ((manager.setSession { opened with session := next }).setDocument opened.document after) :=
  ⟨rfl, rfl, fun name => by rw [document_setDocument, document_setSession], rfl, rfl⟩

variable {noted : Manager} {α : Type}

theorem Notes.sessions_eq (notes : manager.Notes opened next after noted)
    (consistent : manager.Consistent)
    (found : manager.sessions.get? opened.session.stream = some opened)
    (acts : opened.session.Acts (manager.document opened.document) next after events)
    (stream : StreamId) : noted.sessions.get? stream =
      if stream = opened.session.stream then some { opened with session := next }
      else manager.sessions.get? stream := by
  have reports := acts.reports (consistent.filed found).2.2.coherent
  rw [notes.sessions, get?_setSession, reports.stream]

theorem Notes.stays (notes : manager.Notes opened next after noted)
    (consistent : manager.Consistent)
    (found : manager.sessions.get? opened.session.stream = some opened)
    (acts : opened.session.Acts (manager.document opened.document) next after events)
    (before : next.state = .idle → opened.session.state = .idle) :
    manager.Turns opened next after events noted where
  found := found
  acts := acts
  sessions := notes.sessions_eq consistent found acts
  current id := by
    rw [notes.current, if_neg]
    rintro ⟨idle, _, current⟩
    rcases consistent.current current with ⟨other, same, _, live⟩
    rw [found] at same
    rw [← Option.some.inj same] at live
    exact live (before idle)
  listed := by rw [notes.current]
  document := notes.document
  started := notes.started
  settings := notes.settings

theorem Notes.leaves (notes : manager.Notes opened next after noted)
    (consistent : manager.Consistent)
    (found : manager.sessions.get? opened.session.stream = some opened)
    (acts : opened.session.Acts (manager.document opened.document) next after events)
    (idle : next.state = .idle) : manager.Turns opened next after events
      (noted.removeIfCurrent ⟨opened.session.bufferId, opened.session.stream⟩) where
  found := found
  acts := acts
  sessions stream := by
    rw [sessions_removeIfCurrent, notes.sessions_eq consistent found acts]
  current id := by simp only [get?_removeIfCurrent, notes.current, idle, true_and]
  listed := notes.current ▸ listed_removeIfCurrent noted _
  document name := by rw [document_removeIfCurrent, notes.document]
  started := by rw [started_removeIfCurrent, notes.started]
  settings := by rw [settings_removeIfCurrent, notes.settings]

theorem operate_eq_ok {turn : Session → Buffer → Except Fault (Turn α)} {reply : Reply α} :
    manager.operate opened turn = .ok reply ↔
      ∃ taken, turn opened.session (manager.document opened.document) = .ok taken ∧
        reply = ⟨(manager.setSession { opened with session := taken.session }).setDocument
          opened.document taken.buffer, taken.events, taken.outcome⟩ := by
  rw [operate, bind_eq_ok]
  constructor
  · rintro ⟨taken, turned, last⟩
    exact ⟨taken, turned, (Except.ok.inj last).symm⟩
  · rintro ⟨taken, turned, rfl⟩
    exact ⟨taken, turned, rfl⟩

theorem get?_discardCurrent (consistent : manager.Consistent) (id : BufferId)
    (stream : StreamId) : (manager.discardCurrent id).sessions.get? stream =
      if manager.current.get? id = some stream then
        (manager.sessions.get? stream).map fun opened =>
          { opened with session := opened.session.discard }
      else manager.sessions.get? stream := by
  rw [discardCurrent]
  cases known : manager.opened? id with
  | none =>
      simp only
      split
      · rename_i current
        rw [opened?, current, Option.bind_some] at known
        rw [known]
        rfl
      · rfl
  | some opened =>
      rcases consistent.on_table known with ⟨current, found, _⟩
      rw [current]
      simp only [get?_setSession, Session.discard, Option.some.injEq]
      by_cases own : stream = opened.session.stream
      · rw [own, if_pos rfl, if_pos rfl, found]
        rfl
      · rw [if_neg own, if_neg (Ne.symm own)]

@[simp] theorem current_discardCurrent (manager : Manager) (id : BufferId) :
    (manager.discardCurrent id).current = manager.current := by
  rw [discardCurrent]
  split <;> rfl

@[simp] theorem started_discardCurrent (manager : Manager) (id : BufferId) :
    (manager.discardCurrent id).started = manager.started := by
  rw [discardCurrent]
  split <;> rfl

@[simp] theorem settings_discardCurrent (manager : Manager) (id : BufferId) :
    (manager.discardCurrent id).settings = manager.settings := by
  rw [discardCurrent]
  split <;> rfl

@[simp] theorem document_discardCurrent (manager : Manager) (id : BufferId) (name : String) :
    (manager.discardCurrent id).document name = manager.document name := by
  rw [discardCurrent]
  split <;> rfl

/-- A session is opened in place of the one on the table, or nothing happens. -/
theorem Consistent.start (consistent : manager.Consistent) (id : BufferId) (document : String)
    (range : LineRange) :
    (∃ session later, manager.Opens id range ⟨session, document⟩ later ∧
      manager.start id document range = ⟨later, [], .ok ⟨id, ⟨manager.started + 1⟩⟩⟩) ∨
    manager.start id document range =
      ⟨manager, [], .error (.invalidRange range (manager.document document).lineCount)⟩ := by
  rw [Manager.start]
  cases opened : Session.start id ⟨manager.started + 1⟩ (manager.document document) range with
  | error error =>
      unfold Session.start at opened
      split at opened
      · simp at opened
      · rw [← Except.error.inj opened]
        exact .inr rfl
  | ok session =>
      have named := (Session.start_opening opened).stream
      refine .inl ⟨session, _, ⟨opened, ?_, ?_, ?_, ?_, ?_, ?_⟩, rfl⟩
      · intro stream
        simp only [get?_setSession, get?_discardCurrent consistent, named]
      · intro other
        simp only [Table.get?_set, current_setSession, current_discardCurrent]
      · rw [current_setSession, current_discardCurrent]
      · exact document_discardCurrent manager id
      · exact congrArg (· + 1) (started_discardCurrent manager id)
      · exact settings_discardCurrent manager id

theorem Consistent.serve_start (consistent : manager.Consistent) (id : BufferId)
    (document : String) (range : LineRange) :
    (∃ session later, manager.Opens id range ⟨session, document⟩ later ∧
      manager.serve (.start id document range) =
        .ok (later, [], .started ⟨id, ⟨manager.started + 1⟩⟩)) ∨
    manager.serve (.start id document range) =
      .ok (manager, [], .refused (.invalidRange range (manager.document document).lineCount)) := by
  rcases consistent.start id document range with ⟨session, next, opens, started⟩ | refused
  · refine .inl ⟨session, next, opens, ?_⟩
    rw [serve, started]
    rfl
  · refine .inr ?_
    rw [serve, refused]
    rfl

theorem Consistent.resolve (consistent : manager.Consistent) {block : BlockId} {accept : Bool}
    {reply : Reply Resolution} (resolved : manager.resolve id block accept = .ok reply) :
    Changes (manager.current.get? id) manager reply.events reply.manager := by
  rw [Manager.resolve] at resolved
  cases known : manager.opened? id with
  | none =>
      rw [known] at resolved
      rw [← Except.ok.inj resolved]
      exact .none manager
  | some opened =>
      rw [known] at resolved
      rcases consistent.on_table known with ⟨current, found, rfl, live⟩
      have coherent := (consistent.filed found).2.2.coherent
      rcases bind_eq_ok.mp resolved with ⟨operated, taken, last⟩
      rcases operate_eq_ok.mp taken with ⟨turn, turned, rfl⟩
      have notes := notes_setDocument manager opened turn.session turn.buffer
      have acts := Session.Acts.resolve turned
      simp only at last
      split at last
      · rename_i error refused
        rcases coherent.resolve_atomic block accept with ⟨other, same, atomic⟩
        rw [turned] at same
        have kept : turn.session = opened.session := by
          rw [← Except.ok.inj same] at atomic
          rw [atomic error refused]
          rfl
        rw [← Except.ok.inj last]
        exact .one current (notes.stays consistent found acts fun idle => kept ▸ idle)
      · rename_i resolution outcome
        have closed := coherent.resolve_closed turned outcome
        split at last
        · rename_i shut
          rw [← Except.ok.inj last]
          exact .one current (notes.leaves consistent found acts (closed.mp shut))
        · rename_i more
          rw [← Except.ok.inj last]
          exact .one current (notes.stays consistent found acts fun idle =>
            absurd (closed.mpr idle) more)

/-- A session that is cleared closes and leaves the table, or it refuses to be rejected and
leaves the table nevertheless. -/
theorem Consistent.clear (consistent : manager.Consistent) {accept : Bool}
    {reply : Reply Unit} (found : manager.opened? id = some opened)
    (cleared : manager.clear id accept = .ok reply) :
    (∃ after, manager.Turns opened (opened.session.close after).1 after reply.events
      reply.manager ∧ reply.outcome = .ok ()) ∨
    accept = false ∧ ∃ error, opened.session.clear (manager.document opened.document) false =
        .ok (opened.session.refuse (manager.document opened.document) error) ∧
      manager.Strands id reply.manager ∧ reply.events = [] ∧ reply.outcome = .error error := by
  rw [Manager.clear, found] at cleared
  rcases consistent.on_table found with ⟨current, held, rfl, live⟩
  have coherent := (consistent.filed held).2.2.coherent
  rcases bind_eq_ok.mp cleared with ⟨operated, taken, last⟩
  rcases operate_eq_ok.mp taken with ⟨turn, turned, rfl⟩
  have notes := notes_setDocument manager opened turn.session turn.buffer
  rw [← Except.ok.inj last]
  rcases coherent.clear_or_refuse turned with ⟨after, rfl⟩ | ⟨rfl, error, rfl⟩
  · exact .inl ⟨after, notes.leaves consistent held (.clear live turned) rfl, rfl⟩
  · refine .inr ⟨rfl, error, turned, ⟨?_, ?_, ?_, ?_, ?_, ?_⟩, rfl, rfl⟩
    · intro stream
      rw [sessions_removeIfCurrent, notes.sessions_eq consistent held (.clear live turned)]
      split
      · rename_i own
        rw [own, held]
        rfl
      · rfl
    · intro other
      rw [get?_removeIfCurrent, notes.current]
      by_cases own : other = opened.session.bufferId
      · simp [own, current]
      · simp [own]
    · exact notes.current ▸ listed_removeIfCurrent _ _
    · intro name
      rw [document_removeIfCurrent, notes.document]
      split
      · rename_i own
        rw [own]
        rfl
      · rfl
    · rw [started_removeIfCurrent, notes.started]
    · rw [settings_removeIfCurrent, notes.settings]

theorem Consistent.externalEdit (consistent : manager.Consistent) {line : Nat} {delta : Int}
    {reply : Reply Unit} (edited : manager.externalEdit id line delta = .ok reply) :
    Changes (manager.current.get? id) manager reply.events reply.manager := by
  rw [Manager.externalEdit] at edited
  cases known : manager.opened? id with
  | none =>
      rw [known] at edited
      rw [← Except.ok.inj edited]
      exact .none manager
  | some opened =>
      rw [known] at edited
      rcases consistent.on_table known with ⟨current, found, rfl, _⟩
      rcases bind_eq_ok.mp edited with ⟨turn, turned, last⟩
      have notes := notes_setDocument manager opened turn.session turn.buffer
      rw [← Except.ok.inj last]
      simp only
      split
      · rename_i idle
        exact .one current (notes.leaves consistent found (.edit turned) idle)
      · rename_i live
        exact .one current (notes.stays consistent found (.edit turned) fun idle =>
          absurd idle live)

theorem Consistent.fire (consistent : manager.Consistent) (stream : StreamId) :
    Changes (some stream) manager [] (manager.fire stream) := by
  rw [Manager.fire]
  cases found : manager.sessions.get? stream with
  | none => exact .none manager
  | some opened =>
      have own := (consistent.filed found).1
      subst own
      exact .one rfl ((notes_setSession manager opened _).stays consistent found .fire id)

def target? (manager : Manager) : Request → Option StreamId
  | .resolve id _ _ | .clear id _ | .externalEdit id _ _ | .textChange id _ | .cancel id =>
      manager.current.get? id
  | .fire stream => some stream
  | _ => none

/-- What a request comes to, or, if there is none, something else that goes on. It is only the
session it is meant for that acts. -/
inductive Effect (manager : Manager) (target : Option StreamId) :
    Option Request → List Event → Manager → Prop where
  | changes {request : Option Request} {events : List Event} {later : Manager} :
      Changes target manager events later → Effect manager target request events later
  | host {request : Request} {name : String} (buffer : Buffer) : request.document? = some name →
      Effect manager target (some request) [] (manager.setDocument name buffer)
  | opens {id : BufferId} {range : LineRange} {fresh : Opened} {handle : Handle}
      {later : Manager} :
      manager.serve (.start id fresh.document range) = .ok (later, [], .started handle) →
      Opens manager id range fresh later →
      Effect manager target (some (.start id fresh.document range)) [] later
  | strands {id : BufferId} {opened : Opened} {error : SessionError} {later : Manager} :
      manager.opened? id = some opened →
      opened.session.clear (manager.document opened.document) false =
        .ok (opened.session.refuse (manager.document opened.document) error) →
      manager.serve (.clear id false) = .ok (later, [], .refused error) →
      Strands manager id later → Effect manager target (some (.clear id false)) [] later

theorem of_answered {reply? : Except Fault (Reply α)} {wrap : α → Answer} {answer : Answer}
    (served : (do return answered (← reply?) wrap) = Except.ok (later, events, answer)) :
    ∃ reply, reply? = .ok reply ∧ reply.manager = later ∧ reply.events = events ∧
      (∀ outcome, reply.outcome = .ok outcome → answer = wrap outcome) ∧
      ∀ error, reply.outcome = .error error → answer = .refused error := by
  rcases bind_eq_ok.mp served with ⟨reply, replied, last⟩
  rcases Prod.mk.inj (Except.ok.inj last) with ⟨managers, rest⟩
  rcases Prod.mk.inj rest with ⟨told, answers⟩
  refine ⟨reply, replied, managers, told, ?_, ?_⟩
  · intro outcome carried
    rw [← answers, carried]
  · intro error refused
    rw [← answers, refused]

theorem Consistent.serve (consistent : manager.Consistent) {request : Request}
    {answer : Answer} (served : manager.serve request = .ok (later, events, answer)) :
    manager.Effect (manager.target? request) (some request) events later := by
  cases request with
  | start id document range =>
      rcases consistent.serve_start id document range with
        ⟨session, next, opens, starts⟩ | refused
      · rw [starts] at served
        cases served
        exact .opens starts opens
      · rw [refused] at served
        cases served
        exact .changes (.none manager)
  | resolve id block accept =>
      rcases of_answered served with ⟨reply, resolved, rfl, rfl, _⟩
      exact .changes (consistent.resolve resolved)
  | clear id accept =>
      rcases of_answered served with ⟨reply, cleared, rfl, rfl, _, refuses⟩
      cases known : manager.opened? id with
      | none =>
          rw [Manager.clear, known] at cleared
          rw [← Except.ok.inj cleared]
          exact .changes (.none manager)
      | some opened =>
          rcases consistent.clear known cleared with
            ⟨after, turns, _⟩ | ⟨rfl, error, refused, strands, silent, outcome⟩
          · exact .changes (.one (consistent.on_table known).1 turns)
          · -- No other request takes a session off the table as it is.
            rw [refuses error outcome, silent] at served
            rw [silent]
            exact .strands known refused served strands
  | externalEdit id line delta =>
      rcases of_answered served with ⟨reply, edited, rfl, rfl, _⟩
      exact .changes (consistent.externalEdit edited)
  | textChange id edit =>
      rcases of_answered served with ⟨reply, edited, rfl, rfl, _⟩
      exact .changes (consistent.externalEdit edited)
  | cancel id =>
      rw [Manager.serve, Manager.cancel] at served
      cases known : manager.opened? id with
      | none =>
          rw [known] at served
          cases served
          exact .changes (.none manager)
      | some opened =>
          rw [known] at served
          cases served
          have fires := consistent.fire opened.session.stream
          rw [← (consistent.on_table known).1] at fires
          exact .changes fires
  | fire stream =>
      cases served
      exact .changes (consistent.fire stream)
  | query id =>
      cases served
      exact .changes (.none manager)
  | count =>
      cases served
      exact .changes (.none manager)
  | describe =>
      cases served
      exact .changes (.none manager)
  | hostInsert name line lines =>
      rw [Manager.serve] at served
      split at served
      · cases served
        exact .host _ rfl
      · cases served
        exact .changes (.none manager)
  | hostDelete name line count =>
      rw [Manager.serve] at served
      split at served
      · cases served
        exact .host _ rfl
      · cases served
        exact .changes (.none manager)

theorem Effect.consistent {request : Option Request}
    (effect : manager.Effect target request events later) (consistent : manager.Consistent) :
    later.Consistent := by
  cases effect with
  | changes changes => exact changes.consistent consistent
  | host buffer _ => exact consistent.setDocument _ buffer
  | opens _ opens => exact opens.consistent consistent
  | strands _ _ _ strands => exact strands.consistent consistent

end Manager

end Redline
