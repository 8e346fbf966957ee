import Mathlib
import Redline.Proofs.Traffic

/-! Runs whose session has been replaced or cleared. Such a run still holds its session and goes
on making its moves, but nobody ever notices. -/

namespace Redline

/-- The number of applied lines that a log reports for a stream. -/
def streamed (stream : StreamId) (log : List Event) : Nat :=
  log.countP fun event =>
    match event with
    | .status update => decide (update.stream = stream ∧ update.status = .streaming)
    | .overlay _ _ => false

theorem streamed_append (stream : StreamId) (first second : List Event) :
    streamed stream (first ++ second) = streamed stream first + streamed stream second :=
  List.countP_append

theorem streamed_announce (session : Session) (buffer : Buffer) (status : Status)
    (stream : StreamId) : streamed stream (session.announce buffer status) =
      if stream = session.stream then status.lines else 0 := by
  by_cases own : stream = session.stream
  · subst own
    cases status <;> simp [streamed, Session.announce, Session.statusUpdate, Status.lines]
  · have other : session.stream ≠ stream := Ne.symm own
    simp [streamed, Session.announce, Session.statusUpdate, own, other]

namespace Manager

variable {manager later : Manager} {opened : Opened} {id : BufferId} {stream : StreamId}
  {events log : List Event} {target : Option StreamId} {request : Option Request} {count : Nat}

/-! ## Counting applied lines -/

def Counts (manager : Manager) (log : List Event) : Prop :=
  ∀ stream, streamed stream log =
    ((manager.sessions.get? stream).map fun opened => opened.session.applied).getD 0

theorem Turns.counts {next : Session} {after : Buffer}
    (turns : manager.Turns opened next after events later) (consistent : manager.Consistent)
    (counts : manager.Counts log) : later.Counts (log ++ events) := by
  have reports := turns.acts.reports (consistent.filed turns.found).2.2.coherent
  intro stream
  rw [streamed_append, counts stream, turns.sessions]
  by_cases own : stream = opened.session.stream
  · subst own
    rw [if_pos rfl, turns.found]
    rcases reports.told with ⟨silent, _, applied⟩ | ⟨status, told, applied⟩
    · rw [silent]
      simp [streamed, applied]
    · rw [told, streamed_announce, reports.stream, if_pos rfl]
      simp [applied]
  · rw [if_neg own]
    rcases reports.told with ⟨silent, _, _⟩ | ⟨status, told, _⟩
    · rw [silent]
      rfl
    · rw [told, streamed_announce, reports.stream, if_neg own, Nat.add_zero]

theorem Effect.counts (effect : manager.Effect target request events later)
    (consistent : manager.Consistent) (counts : manager.Counts log) :
    later.Counts (log ++ events) := by
  cases effect with
  | changes changes =>
      exact changes.invariant (fun consistent _ turns => turns.counts consistent) consistent log
        counts
  | host buffer _ =>
      rw [List.append_nil]
      exact counts
  | opens _ opens =>
      intro stream
      rw [List.append_nil, counts stream, opens.sessions]
      split
      · rename_i new
        rw [new, consistent.unknown]
        exact (Session.start_opening opens.opened).applied.symm
      · split
        · cases manager.sessions.get? stream with
          | none => rfl
          | some opened => rfl
        · rfl
  | strands _ _ _ strands =>
      intro stream
      rw [List.append_nil, counts stream, strands.sessions]

/-! ## Retired sessions -/

def Retired (manager : Manager) (stream : StreamId) (count : Nat) : Prop :=
  ∃ opened, manager.sessions.get? stream = some opened ∧ opened.session.state = .idle ∧
    opened.session.applied = count

theorem Turns.retired {next : Session} {after : Buffer}
    (turns : manager.Turns opened next after events later) (consistent : manager.Consistent)
    (retired : manager.Retired stream count) : later.Retired stream count := by
  rcases retired with ⟨other, found, idle, applied⟩
  by_cases own : stream = opened.session.stream
  · subst own
    have same : opened = other := Option.some.inj (turns.found.symm.trans found)
    subst same
    have reports := turns.acts.reports (consistent.filed found).2.2.coherent
    rcases reports.inert idle with ⟨still, _, silent⟩
    refine ⟨_, by rw [turns.sessions, if_pos rfl], still, ?_⟩
    rcases reports.told with ⟨_, _, kept⟩ | ⟨status, told, _⟩
    · exact kept.trans applied
    · rw [silent] at told
      simp [Session.announce] at told
  · exact ⟨other, by rw [turns.sessions, if_neg own, found], idle, applied⟩

theorem Effect.retired (effect : manager.Effect target request events later)
    (consistent : manager.Consistent) (retired : manager.Retired stream count) :
    later.Retired stream count := by
  cases effect with
  | changes changes =>
      exact changes.invariant (fun consistent _ turns => turns.retired consistent) consistent []
        retired
  | host buffer _ => exact retired
  | opens _ opens =>
      rcases retired with ⟨opened, found, idle, applied⟩
      rw [Retired, opens.sessions, if_neg (consistent.known found)]
      split
      · rw [found]
        exact ⟨_, rfl, rfl, applied⟩
      · exact ⟨opened, found, idle, applied⟩
  | strands _ _ _ strands =>
      rcases retired with ⟨opened, found, rest⟩
      exact ⟨opened, by rw [strands.sessions, found], rest⟩

end Manager

/-! ## Runs of retired sessions -/

namespace Run

variable {manager : Manager} {run : Run} {opened : Opened} {count : Nat}

/-- A move that nobody notices: at most the run's own session is touched, and a run that is
cancelled by the move answers with the given count. -/
structure Unnoticed (manager : Manager) (run : Run) (count : Nat) (progress : Progress) :
    Prop where
  manager : progress.manager = manager ∨
    ∃ opened, opened.session.stream = run.handle.stream ∧
      progress.manager = manager.setSession opened
  events : progress.events = []
  answer : ∀ applied, progress.run.stage = .ended (.cancelled applied) →
    run.stage = .ended (.cancelled applied) ∨ applied = count

theorem unnoticed_refl (manager : Manager) (run : Run) (count : Nat) :
    run.Unnoticed manager count ⟨manager, run, []⟩ :=
  ⟨.inl rfl, rfl, fun _ ended => .inl ended⟩

/-- A closed session has nothing left to end. -/
theorem conclude_retired (consistent : manager.Consistent)
    (retired : manager.Retired run.handle.stream count) (why : RunEnd) :
    ∃ progress, conclude manager run why = .ok progress ∧ run.Unnoticed manager count progress := by
  rcases retired with ⟨opened, found, idle, applied⟩
  have stream := (consistent.filed found).1
  have silent : opened.session.finish (manager.document opened.document) =
      ({ opened.session with running := false, openRun := none }, []) := by
    exact Session.finish_settled (by simp [idle]) _
  have still : (opened.session.ended (manager.document opened.document)).state = .idle := by
    rw [Session.ended, silent]
    exact idle
  have counted : (opened.session.ended (manager.document opened.document)).applied = count := by
    rw [Session.ended, silent]
    exact applied
  have named : (opened.session.ended (manager.document opened.document)).stream =
      run.handle.stream := by
    rw [Session.ended, silent]
    exact stream
  have same : finished manager run opened = manager.setSession { opened with
      session := opened.session.ended (manager.document opened.document) } := by
    rw [finished, if_pos still, Manager.removeIfCurrent, if_neg]
    intro current
    rcases consistent.current current with ⟨other, known, _, live⟩
    rw [found] at known
    rw [← Option.some.inj known] at live
    exact live idle
  rw [conclude_eq found, same, silent]
  cases why with
  | exhausted => exact ⟨_, rfl, .inr ⟨_, named, rfl⟩, rfl, fun _ ended => by cases ended⟩
  | failed error => exact ⟨_, rfl, .inr ⟨_, named, rfl⟩, rfl, fun _ ended => by cases ended⟩
  | cancelled =>
      simp only [still, ne_eq, not_true_eq_false, and_false, if_false]
      refine ⟨_, rfl, .inr ⟨_, named, rfl⟩, rfl, fun applied ended => .inr ?_⟩
      cases ended
      exact counted

theorem applyOne_retired (retired : manager.Retired run.handle.stream count) (line : DiffLine) :
    applyOne manager run line = .ok (manager, [], some .cancelled) := by
  rcases retired with ⟨opened, found, idle, _⟩
  rw [applyOne, found]
  simp [idle]

theorem applyAll_retired (retired : manager.Retired run.handle.stream count)
    (lines : List DiffLine) : ∃ why, applyAll manager run lines = .ok (manager, [], why) := by
  cases lines with
  | nil => exact ⟨_, rfl⟩
  | cons line rest =>
      refine ⟨.cancelled, ?_⟩
      rw [applyAll, applyOne_retired retired]
      rfl

theorem concludeAfter_retired (consistent : manager.Consistent)
    (retired : manager.Retired run.handle.stream count) (why : RunEnd) :
    ∃ progress, concludeAfter [] manager run why = .ok progress ∧
      run.Unnoticed manager count progress := by
  rcases conclude_retired consistent retired why with ⟨progress, concluded, unnoticed⟩
  refine ⟨progress, ?_, unnoticed⟩
  simp only [concludeAfter, concluded, ok_bind, List.nil_append]
  rfl

theorem receiveLine_retired (consistent : manager.Consistent)
    (retired : manager.Retired run.handle.stream count) (line : DiffLine) :
    ∃ progress, receiveLine manager run line = .ok progress ∧
      run.Unnoticed manager count progress := by
  rw [receiveLine]
  split
  · exact ⟨_, rfl, .inl rfl, rfl, fun _ ended => by cases ended⟩
  · rw [applyOne_retired retired]
    exact concludeAfter_retired consistent retired .cancelled

/-- A run goes on unnoticed once its session has closed. -/
theorem move_retired (consistent : manager.Consistent)
    (retired : manager.Retired run.handle.stream count) (move : Move) :
    ∃ progress, run.move manager move = .ok progress ∧ run.Unnoticed manager count progress := by
  have concludes := conclude_retired consistent retired
  have unmoved := unnoticed_refl manager run count
  cases move with
  | check =>
      rw [Run.move, check]
      split
      · split
        · exact concludes .cancelled
        · exact ⟨_, rfl, .inl rfl, rfl, fun _ ended => by cases ended⟩
      · exact ⟨_, rfl, unmoved⟩
  | interrupt =>
      rw [Run.move, interrupt]
      split
      · exact ⟨_, rfl, unmoved⟩
      · split
        · exact concludes .cancelled
        · exact ⟨_, rfl, unmoved⟩
  | receive supply =>
      rw [Run.move]
      unfold receive
      split
      · exact receiveLine_retired consistent retired _
      · exact concludes _
      · rcases applyAll_retired retired run.queued with ⟨why, applied⟩
        rw [applied]
        exact concludeAfter_retired consistent retired why
      · exact ⟨_, rfl, unmoved⟩
  | wake =>
      refine ⟨_, rfl, .inl rfl, rfl, fun applied ended => .inl ?_⟩
      simp only [wake] at ended
      split at ended
      · cases ended
      · exact ended

end Run

namespace Traffic

variable {traffic later : Traffic} {action : Action} {index count : Nat} {run : Run}

/-- Nothing that a host, an observer or another session can see has changed. -/
structure Unseen (traffic later : Traffic) : Prop where
  documents : later.manager.documents = traffic.manager.documents
  current : later.manager.current = traffic.manager.current
  opened : ∀ id, later.manager.opened? id = traffic.manager.opened? id
  log : later.log = traffic.log

/-- Whatever else goes on from here, a run makes its moves unseen, and if it answers that it was
cancelled, the answer tells so many applied lines. -/
def Inert (traffic : Traffic) (index count : Nat) : Prop :=
  ∀ actions later, traffic.performAll actions = .ok later →
    (∃ run, later.runs[index]? = some run ∧
      ∀ applied, run.stage = .ended (.cancelled applied) → applied = count) ∧
    ∀ move, ∃ after, later.perform (.move index move) = .ok after ∧ later.Unseen after

structure Dormant (traffic : Traffic) (index count : Nat) (run : Run) : Prop where
  consistent : traffic.Consistent
  found : traffic.runs[index]? = some run
  retired : traffic.manager.Retired run.handle.stream count
  answer : ∀ applied, run.stage = .ended (.cancelled applied) → applied = count

theorem Consistent.dormant (consistent : traffic.Consistent)
    (found : traffic.runs[index]? = some run) (underway : run.isOver = false)
    (retired : traffic.manager.Retired run.handle.stream count) :
    traffic.Dormant index count run where
  consistent := consistent
  found := found
  retired := retired
  answer applied ended := by
    rw [Run.isOver, ended] at underway
    exact Bool.noConfusion underway

theorem Dormant.move (dormant : traffic.Dormant index count run) (move : Run.Move) :
    ∃ progress, run.move traffic.manager move = .ok progress ∧
      run.Unnoticed traffic.manager count progress ∧
      traffic.perform (.move index move) =
        .ok ⟨progress.manager, traffic.runs.set index progress.run, traffic.log⟩ := by
  rcases Run.move_retired dormant.consistent.manager dormant.retired move with
    ⟨progress, moved, unnoticed⟩
  refine ⟨progress, moved, unnoticed, ?_⟩
  simp only [perform, dormant.found, moved, ok_bind, unnoticed.events, List.append_nil]
  rfl

theorem Dormant.unseen (dormant : traffic.Dormant index count run) (move : Run.Move) :
    ∃ after, traffic.perform (.move index move) = .ok after ∧ traffic.Unseen after := by
  rcases dormant.move move with ⟨progress, _, unnoticed, performed⟩
  refine ⟨_, performed, ?_⟩
  rcases unnoticed.manager with same | ⟨opened, own, same⟩
  · rw [same]
    exact ⟨rfl, rfl, fun _ => rfl, rfl⟩
  · rw [same]
    refine ⟨rfl, rfl, fun id => ?_, rfl⟩
    -- The run's session is not on the table, so no buffer's requests go to it.
    rw [Manager.opened?, Manager.opened?, Manager.current_setSession]
    cases current : traffic.manager.current.get? id with
    | none => rfl
    | some stream =>
        rcases dormant.retired with ⟨closed, known, idle, _⟩
        rcases dormant.consistent.manager.current current with ⟨other, found, _, live⟩
        rw [Option.bind_some, Option.bind_some, Manager.get?_setSession, if_neg]
        intro shared
        rw [shared, own, known] at found
        rw [← Option.some.inj found] at live
        exact live idle

theorem Dormant.perform (dormant : traffic.Dormant index count run)
    (performed : traffic.perform action = .ok later) : ∃ run, later.Dormant index count run := by
  have consistent := dormant.consistent.perform performed
  rcases dormant.consistent.effect performed with ⟨events, _, effect⟩
  have retired := effect.retired dormant.consistent.manager dormant.retired
  have found := dormant.found
  cases action with
  | request request =>
      rcases bind_eq_ok.mp performed with ⟨⟨manager, told, answer⟩, served, last⟩
      cases last
      exact ⟨run, consistent, found, retired, dormant.answer⟩
  | launch handle =>
      cases performed
      have inside := (List.getElem?_eq_some_iff.mp found).1
      refine ⟨run, consistent, ?_, retired, dormant.answer⟩
      rw [← found]
      exact List.getElem?_append_left inside
  | move other move =>
      by_cases own : other = index
      · subst own
        rcases dormant.move move with ⟨progress, moved, unnoticed, same⟩
        have handle := (Run.move_changes dormant.consistent.manager
          (dormant.consistent.attached run (List.mem_of_getElem? found)) moved).2
        rw [same] at performed
        cases performed
        have inside := (List.getElem?_eq_some_iff.mp found).1
        refine ⟨progress.run, consistent, List.getElem?_set_self inside, ?_,
          fun applied ended => ?_⟩
        · rw [handle]
          exact retired
        · rcases unnoticed.answer applied ended with before | now
          · exact dormant.answer applied before
          · exact now
      · refine ⟨run, consistent, ?_, retired, dormant.answer⟩
        rw [Traffic.perform] at performed
        cases known : traffic.runs[other]? with
        | none =>
            rw [known] at performed
            cases performed
            exact found
        | some moving =>
            rw [known] at performed
            rcases bind_eq_ok.mp performed with ⟨progress, moved, last⟩
            cases last
            rw [← found]
            exact List.getElem?_set_ne own

theorem Dormant.inert (dormant : traffic.Dormant index count run) :
    traffic.Inert index count := by
  intro actions later performed
  induction actions generalizing traffic run with
  | nil =>
      cases performed
      exact ⟨⟨run, dormant.found, dormant.answer⟩, dormant.unseen⟩
  | cons action rest ih =>
      rcases bind_eq_ok.mp performed with ⟨next, first, others⟩
      rcases dormant.perform first with ⟨moved, still⟩
      exact ih still others

theorem Reaches.counts {allowed : Traffic → Action → Prop} (reaches : Reaches allowed traffic) :
    traffic.manager.Counts traffic.log := by
  induction reaches with
  | start settings documents => exact fun _ => rfl
  | step reached _ performed ih =>
      rcases reached.consistent.effect performed with ⟨events, log, effect⟩
      rw [log]
      exact effect.counts reached.consistent.manager ih

/-- Starting another session for the buffer of a run, or clearing the run's session, makes the
run inert, and its answer is what it had applied by then. A start that is refused changes nothing
at all. -/
theorem superseded_run_is_inert (reachable : traffic.Reachable)
    (found : traffic.runs[index]? = some run) (underway : run.isOver = false)
    (current : traffic.manager.current.get? run.handle.buffer = some run.handle.stream) :
    (∀ document range,
      (∃ manager newer, traffic.manager.serve (.start run.handle.buffer document range) =
          .ok (manager, [], .started newer) ∧
        (∃ opened, manager.opened? run.handle.buffer = some opened ∧
          opened.session.stream = newer.stream ∧ opened.document = document ∧
          opened.session.initial =
            (traffic.manager.document document).linesIn range.first (range.last + 1)) ∧
        (∀ name, manager.document name = traffic.manager.document name) ∧
        Inert { traffic with manager } index (streamed run.handle.stream traffic.log)) ∨
      traffic.manager.serve (.start run.handle.buffer document range) =
          .ok (traffic.manager, [],
            .refused (.invalidRange range (traffic.manager.document document).lineCount)) ∧
        traffic.perform (.request (.start run.handle.buffer document range)) = .ok traffic) ∧
    ∀ accept manager events, traffic.manager.serve (.clear run.handle.buffer accept) =
        .ok (manager, events, .nothing) →
      Inert ⟨manager, traffic.runs, traffic.log ++ events⟩ index
        (streamed run.handle.stream traffic.log) := by
  have consistent := reachable.consistent
  rcases consistent.manager.current current with ⟨opened, held, owner, live⟩
  have known : traffic.manager.opened? run.handle.buffer = some opened :=
    Manager.opened?_eq_some.mpr ⟨_, current, held⟩
  have counted : opened.session.applied = streamed run.handle.stream traffic.log := by
    rw [reachable.counts, held]
    rfl
  constructor
  · intro document range
    rcases consistent.manager.serve_start run.handle.buffer document range with
      ⟨session, manager, opens, starts⟩ | refused
    · have performs := perform_request starts
      have opening := Session.start_opening opens.opened
      rw [List.append_nil] at performs
      refine .inl ⟨manager, _, starts, ⟨⟨session, document⟩, ?_, opening.stream, rfl,
        opening.initial⟩, opens.document, ?_⟩
      · rw [Manager.opened?, opens.current, if_pos rfl, Option.bind_some, opens.sessions,
          if_pos rfl]
      · apply ((consistent.perform performs).dormant found underway _).inert
        refine ⟨{ opened with session := opened.session.discard }, ?_, rfl, counted⟩
        rw [opens.sessions, if_neg (consistent.manager.known held), if_pos current, held]
        rfl
    · have performs := perform_request refused
      rw [List.append_nil] at performs
      exact .inr ⟨refused, performs⟩
  · intro accept manager events served
    have performs := perform_request served
    rcases Manager.of_answered served with ⟨reply, cleared, rfl, rfl, _, refuses⟩
    rcases consistent.manager.clear known cleared with
      ⟨after, turns, _⟩ | ⟨_, error, _, _, _, refused⟩
    · apply ((consistent.perform performs).dormant found underway _).inert
      have named := (consistent.manager.filed held).1
      refine ⟨{ opened with session := (opened.session.close after).1 }, ?_, rfl, counted⟩
      rw [turns.sessions, if_pos named.symm]
    · exact Answer.noConfusion (refuses error refused)

def oneAdded : Traffic where
  manager :=
    { settings := .standard
      documents := ⟨[("d", ⟨["x", "a"]⟩)]⟩
      sessions := ⟨[(⟨1⟩,
        { session :=
            { bufferId := ⟨"t"⟩
              stream := ⟨1⟩
              state := .streaming
              range := ⟨0, 0⟩
              initial := ["a"]
              tracker := ⟨[⟨0, 1⟩], []⟩
              registry := ⟨⟨1⟩, 1, [⟨⟨⟨1⟩, 0⟩, 0, 0, 1⟩]⟩
              cursor := 1
              openRun := some ⟨0, 0⟩
              committed := ["x"]
              applied := 1
              running := true
              listening := false
              cancelled := false }
          document := "d" })]⟩
      current := ⟨[(⟨"t"⟩, ⟨1⟩)]⟩
      started := 1 }
  runs := [⟨⟨⟨"t"⟩, ⟨1⟩⟩, [], .ready⟩]
  log := [.status ⟨⟨"t"⟩, ⟨1⟩, .streaming, 1, "x\na"⟩,
    .overlay ⟨"t"⟩ ⟨[⟨⟨⟨1⟩, 0⟩, 0, 0, 1⟩], [⟨0, 1⟩], []⟩]

theorem oneAdded_reachable : oneAdded.Reachable := by
  have blank : (ofDocuments .standard ⟨[("d", ⟨["a"]⟩)]⟩).Reachable := .start _ _
  apply @Reachable.run _ _ [.request (.start ⟨"t"⟩ "d" ⟨0, 0⟩), .launch ⟨⟨"t"⟩, ⟨1⟩⟩,
    .move 0 .check, .move 0 (.receive (.line ⟨.added, "x"⟩))] blank
  cbv

/-- Another session takes over while the run of the first waits for its stream. -/
theorem oneAdded_is_inert : oneAdded.Reachable ∧ oneAdded.manager.current.get? ⟨"t"⟩ = some ⟨1⟩ ∧
    ∃ manager newer, oneAdded.manager.serve (.start ⟨"t"⟩ "d" ⟨0, 1⟩) =
        .ok (manager, [], .started newer) ∧ Inert { oneAdded with manager } 0 1 := by
  refine ⟨oneAdded_reachable, rfl, ?_⟩
  have found : oneAdded.runs[0]? = some ⟨⟨⟨"t"⟩, ⟨1⟩⟩, [], .ready⟩ := rfl
  rcases superseded_run_is_inert oneAdded_reachable found rfl rfl with ⟨starts, _⟩
  rcases starts "d" ⟨0, 1⟩ with ⟨manager, newer, started, _, _, inert⟩ | ⟨refused, _⟩
  · exact ⟨manager, newer, started, inert⟩
  · have accepted : oneAdded.manager.serve (.start ⟨"t"⟩ "d" ⟨0, 1⟩) ≠
        .ok (oneAdded.manager, [], .refused (.invalidRange ⟨0, 1⟩ 2)) := by
      decide
    exact absurd refused accepted

end Traffic

end Redline
