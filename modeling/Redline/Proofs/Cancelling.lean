import Mathlib
import Redline.Proofs.Tokens

namespace Redline

/-! ## Courses -/

/-- A run with its source and the clock of its token: how often the source has been asked, and how
often it had been when the token fired. -/
structure Course where
  manager : Manager
  run : Run
  rest : List DiffLine
  asked : Nat
  fired : Option Nat

inductive Moment where
  | check
  | interrupt
  | deliver
  | wake
  | fire
  deriving DecidableEq, Repr

namespace Course

def supply (course : Course) : Supply :=
  match course.rest with
  | [] => .finished
  | line :: _ => .line line

def perform (course : Course) : Moment → Except Fault Course
  | .check => do
      let progress ← course.run.check course.manager
      let asks := course.run.stage = .ready ∧ progress.run.stage = .asking
      return { course with
        manager := progress.manager
        run := progress.run
        asked := if asks then course.asked + 1 else course.asked }
  | .interrupt => do
      let progress ← course.run.interrupt course.manager
      return { course with manager := progress.manager, run := progress.run }
  | .deliver =>
      if course.run.stage = .asking then do
        let progress ← course.run.receive course.manager course.supply
        return { course with
          manager := progress.manager, run := progress.run, rest := course.rest.tail }
      else .ok course
  | .wake => .ok { course with run := course.run.wake }
  | .fire => .ok { course with
      manager := course.manager.fire course.run.handle.stream
      fired := course.fired.or (some course.asked) }

def performAll (course : Course) : List Moment → Except Fault Course
  | [] => .ok course
  | moment :: later => do
      let next ← course.perform moment
      next.performAll later

def launch (manager : Manager) (handle : Handle) (stream : List DiffLine) (fired : Bool) : Course :=
  let manager := if fired then manager.fire handle.stream else manager
  let launched := Run.start manager handle
  ⟨launched.1, launched.2, stream, 0, if fired then some 0 else none⟩

variable {manager : Manager} {handle : Handle} {range : LineRange} {opened : Opened}
  {begun : Session} {stream : List DiffLine} {course next : Course} {read count : Nat}
  {direct : Turn Unit}

/-- A course that is under way has read the first `read` lines of its stream. A paced run has
applied them, an instant one keeps them in its queue. -/
structure Live (manager : Manager) (handle : Handle) (opened : Opened) (begun : Session)
    (stream : List DiffLine) (read : Nat) (direct : Turn Unit) (course : Course) : Prop where
  live : course.run.isOver = false
  owner : course.run.handle = handle
  within : read ≤ stream.length
  source : course.rest = stream.drop read
  queued : course.run.queued = if manager.settings.instant then stream.take read else []
  drives : begun.Drives (manager.document opened.document) stream
    (if manager.settings.instant then 0 else read) direct
  held : course.manager = (manager.setSession { opened with session := begun }).hold
    { opened with session := begun } (direct.session.flag course.fired.isSome) direct.buffer
  underway : course.manager.UnderWay handle
    { opened with session := direct.session.flag course.fired.isSome }
  asked : course.asked = if course.run.stage = .asking then read + 1 else read
  fired : ∀ asked, course.fired = some asked → asked = course.asked

/-- Whether `count` lines may have been applied if the source had been asked `asked` times when the
token fired. -/
def Timely (instant : Bool) (stream : List DiffLine) (count asked : Nat) : Prop :=
  if instant then asked ≤ stream.length → count = 0 else count ≤ asked

structure Over (manager : Manager) (handle : Handle) (opened : Opened) (begun : Session)
    (stream : List DiffLine) (count : Nat) (direct : Turn Unit) (course : Course) : Prop where
  drives : begun.Drives (manager.document opened.document) stream count direct
  ending : Run.Ending handle opened.document manager.settings.rejectOnCancel
    (manager.document opened.document) direct.buffer (stream.take count) count course.manager
    course.run
  asked : Timely manager.settings.instant stream count course.asked
  fired : ∀ asked, course.fired = some asked →
    Timely manager.settings.instant stream count asked

def Lawful (manager : Manager) (handle : Handle) (opened : Opened) (begun : Session)
    (stream : List DiffLine) (course : Course) : Prop :=
  (∃ read direct, Live manager handle opened begun stream read direct course) ∨
    ∃ count direct, Over manager handle opened begun stream count direct course

theorem Live.unasked (live : Live manager handle opened begun stream read direct course) :
    Timely manager.settings.instant stream
      (if manager.settings.instant then 0 else read) course.asked := by
  rw [Timely]
  split
  · exact fun _ => rfl
  · rw [live.asked]
    split
    · exact Nat.le_succ read
    · exact Nat.le_refl read

theorem Live.document (live : Live manager handle opened begun stream read direct course) :
    course.manager.document opened.document = direct.buffer := by
  rw [live.held, Manager.document_hold, if_pos rfl]

theorem Live.owned (live : Live manager handle opened begun stream read direct course) :
    course.manager.UnderWay course.run.handle
      { opened with session := direct.session.flag course.fired.isSome } := by
  rw [live.owner]
  exact live.underway

theorem Live.settings (live : Live manager handle opened begun stream read direct course) :
    course.manager.settings = manager.settings := by
  rw [live.held]
  rfl

/-- However a run ends that has nothing more to apply, it leaves what the lines before made. -/
theorem concludes (launched : manager.Launched handle range opened begun)
    (drives : begun.Drives (manager.document opened.document) stream count direct)
    {later : Manager} {fired : Bool} {run : Run} (owner : run.handle = handle)
    (held : later = (manager.setSession { opened with session := begun }).hold
      { opened with session := begun } (direct.session.flag fired) direct.buffer)
    (underway : later.UnderWay handle { opened with session := direct.session.flag fired })
    (why : RunEnd) : ∃ progress, Run.conclude later run why = .ok progress ∧
      Run.Ending handle opened.document manager.settings.rejectOnCancel
        (manager.document opened.document) direct.buffer (stream.take count) count
        progress.manager progress.run := by
  rcases launched.drives drives with ⟨applied, midway⟩
  have document : later.document opened.document = direct.buffer := by
    rw [held, Manager.document_hold, if_pos rfl]
  have settings : later.settings = manager.settings := by
    rw [held]
    rfl
  have current : later.current.get? handle.buffer = some handle.stream := by
    rw [held]
    exact launched.current
  rw [← owner] at underway current midway
  rw [← document] at midway
  rcases Run.conclude_ending underway current (midway.flag fired) why with
    ⟨progress, concluded, ending⟩
  rw [owner, settings, document] at ending
  have counted : (direct.session.flag fired).applied = count := applied
  simp only [counted] at ending
  exact ⟨progress, concluded, ending⟩

theorem Live.conclude (live : Live manager handle opened begun stream read direct course)
    (launched : manager.Launched handle range opened begun) (why : RunEnd) :
    ∃ progress, Run.conclude course.manager course.run why = .ok progress ∧
      progress.run.isOver = true ∧ ∀ rest, Lawful manager handle opened begun stream
        { course with manager := progress.manager, run := progress.run, rest } := by
  rcases concludes launched live.drives live.owner live.held live.underway why with
    ⟨progress, concluded, ending⟩
  refine ⟨progress, concluded, ending.halted,
    fun rest => .inr ⟨_, direct, live.drives, ending, live.unasked, ?_⟩⟩
  intro asked fired
  rw [live.fired asked fired]
  exact live.unasked

theorem Live.hasFired (live : Live manager handle opened begun stream read direct course) :
    course.manager.hasFired course.run.handle.stream = course.fired.isSome := live.owned.hasFired

theorem Live.check (live : Live manager handle opened begun stream read direct course)
    (launched : manager.Launched handle range opened begun) :
    ∃ next, course.perform .check = .ok next ∧
      Lawful manager handle opened begun stream next := by
  by_cases ready : course.run.stage = .ready
  · rw [perform, Run.check, ready]
    simp only [live.hasFired]
    cases fired : course.fired.isSome with
    | true =>
        rcases live.conclude launched .cancelled with ⟨progress, concluded, past, lawful⟩
        have unasked : progress.run.stage ≠ .asking := by
          intro asking
          rw [Run.isOver, asking] at past
          cases past
        rw [if_pos rfl, concluded]
        refine ⟨_, rfl, ?_⟩
        simp only [unasked, and_false, if_false]
        exact lawful course.rest
    | false =>
        have unfired : course.fired = none :=
          Option.isNone_iff_eq_none.mp (Option.isSome_eq_false_iff.mp fired)
        refine ⟨_, rfl, .inl ⟨read, direct, { live with live := rfl, asked := ?_, fired := ?_ }⟩⟩
        · have asked := live.asked
          rw [ready] at asked
          exact congrArg (· + 1) asked
        · intro asked same
          rw [unfired] at same
          cases same
  · have still : course.run.check course.manager = .ok ⟨course.manager, course.run, []⟩ := by
      rw [Run.check]
      split
      · rename_i now
        exact absurd now ready
      · rfl
    rw [perform, still]
    refine ⟨_, rfl, .inl ⟨read, direct, ?_⟩⟩
    simp only [ready, false_and, if_false]
    exact live

theorem Live.interrupt (live : Live manager handle opened begun stream read direct course)
    (launched : manager.Launched handle range opened begun) :
    ∃ next, course.perform .interrupt = .ok next ∧
      Lawful manager handle opened begun stream next := by
  rw [perform, Run.interrupt, live.live, live.hasFired]
  simp only [Bool.false_eq_true, if_false]
  split
  · rcases live.conclude launched .cancelled with ⟨progress, concluded, _, lawful⟩
    rw [concluded]
    exact ⟨_, rfl, lawful course.rest⟩
  · exact ⟨_, rfl, .inl ⟨read, direct, live⟩⟩

theorem Live.wake (live : Live manager handle opened begun stream read direct course) :
    ∃ next, course.perform .wake = .ok next ∧
      Lawful manager handle opened begun stream next := by
  refine ⟨_, rfl, .inl ⟨read, direct, ?_⟩⟩
  by_cases resting : course.run.stage = .resting
  · have woken : course.run.wake = { course.run with stage := .ready } := by
      rw [Run.wake, resting]
    rw [woken]
    refine { live with live := rfl, asked := ?_ }
    have asked := live.asked
    rw [resting] at asked
    exact asked
  · have still : course.run.wake = course.run := by
      rw [Run.wake]
      split
      · rename_i now
        exact absurd now resting
      · rfl
    rw [still]
    exact live

theorem Live.fire (live : Live manager handle opened begun stream read direct course) :
    ∃ next, course.perform .fire = .ok next ∧
      Lawful manager handle opened begun stream next := by
  have fires := live.underway.fire
  rw [← live.owner] at fires
  have noted : (course.fired.or (some course.asked)).isSome = true := by
    cases course.fired with
    | none => rfl
    | some asked => rfl
  refine ⟨_, rfl, .inl ⟨read, direct, { live with held := ?_, underway := ?_, fired := ?_ }⟩⟩
  · simp only [noted, fires, live.document]
    rw [live.held]
    exact Manager.hold_hold rfl
  · simp only [noted, fires]
    exact live.underway.hold .fire live.underway.state
  · intro asked same
    cases before : course.fired with
    | none =>
        rw [before] at same
        exact (Option.some.inj same).symm
    | some earlier =>
        rw [before] at same
        cases same
        exact live.fired asked before

theorem next_line {line : DiffLine} {more : List DiffLine}
    (ahead : stream.drop read = line :: more) : read < stream.length ∧
      stream.take (read + 1) = stream.take read ++ [line] ∧
      stream.drop (read + 1) = more := by
  have count := congrArg List.length ahead
  have found : stream[read]? = some line := by
    rw [← Nat.add_zero read, ← List.getElem?_drop, ahead]
    rfl
  rw [List.length_drop, List.length_cons] at count
  refine ⟨by omega, ?_, ?_⟩
  · rw [List.take_add_one, found]
    rfl
  · rw [← List.tail_drop, ahead]
    rfl

theorem Live.deliver_end (live : Live manager handle opened begun stream read direct course)
    (launched : manager.Launched handle range opened begun) (asking : course.run.stage = .asking)
    (none : course.rest = []) (paced : manager.settings.instant = false) :
    ∃ next, course.perform .deliver = .ok next ∧
      Lawful manager handle opened begun stream next := by
  have queued := live.queued
  rw [paced] at queued
  have received := @Run.receive_exhausted course.manager _ asking queued
  rcases live.conclude launched .exhausted with ⟨progress, concluded, _, lawful⟩
  rw [perform, if_pos asking, supply, none, received, concluded]
  exact ⟨_, rfl, lawful _⟩

/-- A line has come for an instant run, which puts it into its queue. -/
theorem Live.deliver_queued (live : Live manager handle opened begun stream read direct course)
    (asking : course.run.stage = .asking) {line : DiffLine} {more : List DiffLine}
    (ahead : course.rest = line :: more) (instant : manager.settings.instant = true) :
    ∃ next, course.perform .deliver = .ok next ∧
      Lawful manager handle opened begun stream next := by
  have queued := live.queued
  have asked := live.asked
  rw [instant] at queued
  rw [if_pos asking] at asked
  rcases next_line (live.source.symm.trans ahead) with ⟨inside, takes, drops⟩
  have received := Run.receive_queued asking (live.settings ▸ instant) line
  rw [perform, if_pos asking, supply, ahead, received]
  refine ⟨_, rfl, .inl ⟨read + 1, direct, ?_⟩⟩
  refine { live with
    live := rfl, within := inside, source := ?_, queued := ?_, drives := ?_, asked := ?_ }
  · exact drops.symm
  · rw [instant, takes]
    exact congrArg (· ++ [line]) queued
  · have drives := live.drives
    rw [instant] at drives ⊢
    exact drives
  · exact asked

def Goes (manager : Manager) (handle : Handle) (range : LineRange) (opened : Opened)
    (begun : Session) (stream : List DiffLine) (later : Except Fault Course) : Prop :=
  (∃ next, later = .ok next ∧ Lawful manager handle opened begun stream next) ∨
    rowLimit ≤ range.first + stream.length ∧ ∃ fault, later = .error fault

theorem Live.deliver_drained (live : Live manager handle opened begun stream read direct course)
    (launched : manager.Launched handle range opened begun) (asking : course.run.stage = .asking)
    (none : course.rest = []) (instant : manager.settings.instant = true) :
    Goes manager handle range opened begun stream (course.perform .deliver) := by
  have long : stream.length ≤ read := List.drop_eq_nil_iff.mp (live.source.symm.trans none)
  have queued := live.queued
  rw [if_pos instant, List.take_of_length_le long] at queued
  have driven := live.drives.driven
  rw [if_pos instant] at driven
  cases driven
  have received := Run.receive_finished live.owned asking
  rw [queued, live.document, Session.applyEach_flag] at received
  rw [perform, if_pos asking, supply, none]
  cases applied : begun.applyEach (manager.document opened.document) stream with
  | error fault =>
      rw [applied] at received
      refine .inr ⟨?_, fault, by rw [received]; rfl⟩
      by_contra small
      rcases launched.performs (Nat.lt_of_not_le small) with ⟨turn, performs⟩
      rw [applied] at performs
      cases performs
  | ok turn =>
      rcases launched.midway.streams.applyEach_part applied with ⟨count, few, part⟩
      have drives : begun.Drives (manager.document opened.document) stream count
        { turn with outcome := .ok () } := ⟨few, part, rfl⟩
      have continues := @Manager.UnderWay.lines _ _ _ (turn.flag course.fired.isSome) live.underway
        stream (by rw [live.document, Session.applyEach_flag, applied]; rfl)
      have held : course.manager.hold { opened with session := begun.flag course.fired.isSome }
          (turn.session.flag course.fired.isSome) turn.buffer =
            (manager.setSession { opened with session := begun }).hold
              { opened with session := begun } (turn.session.flag course.fired.isSome)
              turn.buffer := by
        rw [live.held]
        exact Manager.hold_hold (continues.stream.trans live.underway.stream.symm)
      rcases concludes launched drives live.owner held continues (Run.stop turn.outcome Option.none)
        with ⟨progress, concluded, ending⟩
      rw [applied] at received
      have ends := received.trans (Run.concludeAfter_ok concluded turn.events)
      -- The last pull was the one that found the end, so no token can have fired before it began.
      have late : Timely manager.settings.instant stream count course.asked := by
        rw [Timely, if_pos instant, live.asked, if_pos asking]
        intro early
        omega
      rw [ends]
      refine .inl ⟨_, rfl, .inr ⟨count, _, drives, ending, late, ?_⟩⟩
      intro asked fired
      rw [live.fired asked fired]
      exact late

theorem Live.deliver_line (live : Live manager handle opened begun stream read direct course)
    (launched : manager.Launched handle range opened begun) (asking : course.run.stage = .asking)
    {line : DiffLine} {more : List DiffLine} (ahead : course.rest = line :: more)
    (paced : manager.settings.instant = false) :
    Goes manager handle range opened begun stream (course.perform .deliver) := by
  rcases next_line (live.source.symm.trans ahead) with ⟨inside, takes, drops⟩
  have pace : course.manager.settings.instant = false := by rw [live.settings, paced]
  have drives : begun.Drives (manager.document opened.document) stream read direct := by
    simpa only [paced, Bool.false_eq_true, if_false] using live.drives
  have further := Session.applyEach_append drives.driven drives.outcome [line]
  rw [← takes] at further
  cases applied : direct.session.applyLine direct.buffer line with
  | error fault =>
      have flagged : (direct.session.flag course.fired.isSome).applyLine
          (course.manager.document opened.document) line = .error fault := by
        rw [live.document, Session.applyLine_flag, applied]
        rfl
      have received := Run.receive_fault live.owned asking pace flagged
      refine .inr ⟨?_, fault, ?_⟩
      · -- Driven directly, the session is abandoned at the same line, which small rows rule out.
        by_contra small
        rcases @Manager.Launched.performs _ _ _ _ _ launched (stream.take (read + 1))
          (by rw [List.length_take]; omega) with ⟨turn, performs⟩
        rw [further, Session.applyEach, applied] at performs
        cases performs
      · rw [perform, if_pos asking, supply, ahead, received]
        rfl
  | ok turn =>
      have flagged : (direct.session.flag course.fired.isSome).applyLine
          (course.manager.document opened.document) line =
            .ok (turn.flag course.fired.isSome) := by
        rw [live.document, Session.applyLine_flag, applied]
        rfl
      rcases live.underway.line flagged with ⟨error, refused⟩ | ⟨outcome, stays, _, continues⟩
      · rw [refused] at flagged
        have received := Run.receive_refused live.owned asking pace flagged
        rcases live.conclude launched (.failed error) with ⟨progress, concluded, _, lawful⟩
        rw [perform, if_pos asking, supply, ahead, received, concluded]
        exact .inl ⟨_, rfl, lawful _⟩
      · have asked := live.asked
        rw [if_pos asking] at asked
        have applies : turn.outcome = .ok () := outcome
        have received := Run.receive_applied live.owned asking pace flagged outcome
        let stage := if course.manager.settings.opDelay.isSome then RunStage.resting else .ready
        have calm : ({ course.run with stage } : Run).isOver = false ∧ stage ≠ .asking := by
          by_cases paused : course.manager.settings.opDelay.isSome = true
          · have same : stage = .resting := if_pos paused
            rw [same]
            exact ⟨rfl, RunStage.noConfusion⟩
          · have same : stage = .ready := if_neg paused
            rw [same]
            exact ⟨rfl, RunStage.noConfusion⟩
        let reached : Turn Unit :=
          ⟨turn.session, turn.buffer, direct.events ++ (turn.events ++ []), .ok ()⟩
        have driven : begun.applyEach (manager.document opened.document)
            (stream.take (read + 1)) = .ok reached := by
          rw [further, Session.applyEach_cons applied applies]
          rfl
        rw [perform, if_pos asking, supply, ahead, received]
        refine .inl ⟨_, rfl, .inl ⟨read + 1, reached, ?_⟩⟩
        refine ⟨calm.1, live.owner, inside, ?_, ?_, ?_, ?_, continues, ?_, live.fired⟩
        · exact drops.symm
        · have queued := live.queued
          rw [paced] at queued ⊢
          exact queued
        · simp only [paced, Bool.false_eq_true, if_false]
          exact ⟨inside, driven, rfl⟩
        · show course.manager.hold _ _ _ = _
          rw [live.held]
          exact Manager.hold_hold stays
        · rw [if_neg calm.2]
          exact asked

/-- Whatever happens next to a course under way, it goes on or ends lawfully. -/
theorem Live.perform (live : Live manager handle opened begun stream read direct course)
    (launched : manager.Launched handle range opened begun) (moment : Moment) :
    Goes manager handle range opened begun stream (course.perform moment) := by
  cases moment with
  | check => exact .inl (live.check launched)
  | interrupt => exact .inl (live.interrupt launched)
  | wake => exact .inl live.wake
  | fire => exact .inl live.fire
  | deliver =>
      by_cases asking : course.run.stage = .asking
      · cases pace : manager.settings.instant with
        | true =>
            cases ahead : course.rest with
            | nil => exact live.deliver_drained launched asking ahead pace
            | cons line more => exact .inl (live.deliver_queued asking ahead pace)
        | false =>
            cases ahead : course.rest with
            | nil => exact .inl (live.deliver_end launched asking ahead pace)
            | cons line more => exact live.deliver_line launched asking ahead pace
      · rw [Course.perform, if_neg asking]
        exact .inl ⟨course, rfl, .inl ⟨read, direct, live⟩⟩

theorem Over.perform (past : Over manager handle opened begun stream count direct course)
    (moment : Moment) : ∃ next, course.perform moment = .ok next ∧
      Over manager handle opened begun stream count direct next := by
  have still := Run.move_over past.ending.halted course.manager
  have stopped : course.run.stage ≠ .asking := by
    intro asking
    have halted := past.ending.halted
    rw [Run.isOver, asking] at halted
    cases halted
  cases moment with
  | check =>
      have checked : course.run.check course.manager = _ := still .check
      rw [Course.perform, checked]
      refine ⟨_, rfl, ?_⟩
      simp only [stopped, and_false, if_false]
      exact past
  | interrupt =>
      have interrupted : course.run.interrupt course.manager = _ := still .interrupt
      rw [Course.perform, interrupted]
      exact ⟨_, rfl, past⟩
  | deliver =>
      rw [Course.perform, if_neg stopped]
      exact ⟨_, rfl, past⟩
  | wake =>
      have woken : course.run.wake = course.run :=
        congrArg Progress.run (Except.ok.inj (still .wake))
      rw [Course.perform, woken]
      exact ⟨_, rfl, past⟩
  | fire =>
      refine ⟨_, rfl, past.drives, ?_, past.asked, ?_⟩
      · rw [past.ending.owner]
        exact past.ending.fire
      · intro asked same
        cases before : course.fired with
        | none =>
            rw [before] at same
            rw [← Option.some.inj same]
            exact past.asked
        | some earlier =>
            rw [before] at same
            cases same
            exact past.fired asked before

theorem Lawful.perform (lawful : Lawful manager handle opened begun stream course)
    (launched : manager.Launched handle range opened begun) (moment : Moment) :
    Goes manager handle range opened begun stream (course.perform moment) := by
  rcases lawful with ⟨read, direct, live⟩ | ⟨count, direct, past⟩
  · exact live.perform launched moment
  · rcases past.perform moment with ⟨next, performed, later⟩
    exact .inl ⟨next, performed, .inr ⟨count, direct, later⟩⟩

theorem Lawful.performAll (lawful : Lawful manager handle opened begun stream course)
    (launched : manager.Launched handle range opened begun) (moments : List Moment) :
    Goes manager handle range opened begun stream (course.performAll moments) := by
  induction moments generalizing course with
  | nil => exact .inl ⟨course, rfl, lawful⟩
  | cons moment later ih =>
      rcases lawful.perform launched moment with
        ⟨next, performed, lawful⟩ | ⟨large, fault, failed⟩
      · rw [Course.performAll, performed]
        exact ih lawful
      · rw [Course.performAll, failed]
        exact .inr ⟨large, fault, rfl⟩

/-! ## The first moment -/

theorem flag_false (quiet : begun.cancelled = false) : begun.flag false = begun := by
  rw [Session.flag, ← quiet]

theorem launch_live (launched : manager.Launched handle range opened begun)
    (stream : List DiffLine) :
    Live manager handle opened begun stream 0 ⟨begun, manager.document opened.document, [], .ok ()⟩
      (launch manager handle stream false) := by
  have course : launch manager handle stream false =
      ⟨manager.setSession { opened with session := begun }, ⟨handle, [], .ready⟩, stream, 0,
        none⟩ := by
    rw [launch]
    simp only [Bool.false_eq_true, if_false, launched.run]
  have same := flag_false launched.quiet
  have none : (if manager.settings.instant then 0 else 0) = 0 := ite_self 0
  rw [course]
  refine ⟨rfl, rfl, Nat.zero_le _, rfl, ?_, ⟨?_, ?_, rfl⟩, ?_, ?_, rfl, ?_⟩
  · rw [List.take_zero, ite_self]
  · rw [none]
    exact Nat.zero_le _
  · rw [none]
    rfl
  · simp only [Option.isSome_none, same]
    exact launched.underway.same.symm
  · simp only [Option.isSome_none, same]
    exact launched.underway
  · intro asked fired
    cases fired

/-- It is the same whether the token fires before the run begins or right behind. -/
theorem start_fire (fresh : manager.Fresh handle range opened)
    (launched : manager.Launched handle range opened begun) :
    Run.start (manager.fire handle.stream) handle =
      ((manager.setSession { opened with session := begun }).fire handle.stream,
        ⟨handle, [], .ready⟩) := by
  rcases fresh.consistent.on_table fresh.opens with ⟨_, found, _⟩
  have named := (Session.start_opening fresh.started).stream
  rw [named] at found
  have before : manager.fire handle.stream =
      manager.setSession { opened with session := opened.session.flag true } := by
    rw [Manager.fire, found]
    rfl
  have behind : (manager.setSession { opened with session := begun }).fire handle.stream =
      manager.setSession { opened with session := begun.flag true } := by
    rw [Manager.fire, launched.underway.found]
    exact Manager.setSession_setSession rfl
  have opens : (manager.fire handle.stream).opened? handle.buffer =
      some { opened with session := opened.session.flag true } := by
    rw [before]
    refine Manager.opened?_eq_some.mpr ⟨handle.stream, launched.current, ?_⟩
    rw [Manager.get?_setSession]
    exact if_pos named.symm
  have owned : (opened.session.flag true).stream = handle.stream := named
  have kept : begun.stream = opened.session.stream :=
    launched.underway.stream.trans named.symm
  rw [Run.start, opens, behind, before]
  simp only [owned, if_true, Session.beginRun_flag launched.begins]
  rw [Manager.setSession_setSession]
  exact kept

theorem launch_fired (fresh : manager.Fresh handle range opened)
    (launched : manager.Launched handle range opened begun) (stream : List DiffLine) :
    (launch manager handle stream false).perform .fire =
      .ok (launch manager handle stream true) := by
  rw [perform, launch, launch, if_pos rfl, start_fire fresh launched]
  simp only [Bool.false_eq_true, if_false, if_true, launched.run]
  rfl

end Course

namespace Traffic

variable {traffic : Traffic} {id : BufferId} {document : String} {range : LineRange}
  {manager : Manager} {handle : Handle}

/-- Whenever the token of a fresh session fires, what its run applies is a beginning of the stream.
A paced run applies no line that it asked for after that, and an instant one none at all unless it
had asked for the end of the stream before. A run that answers that it was cancelled keeps these
lines for review, or takes them back and leaves the text that it started with. -/
theorem cancelled_run_applies_prefix (reachable : traffic.Reachable)
    (started : traffic.manager.start id document range = ⟨manager, [], .ok handle⟩)
    (stream : List DiffLine) (early : Bool) (moments : List Moment) :
    let original := traffic.manager.document document
    let settings := manager.settings
    let performed := (Course.launch manager handle stream early).performAll moments
    ∃ session begun, manager.opened? id = some ⟨session, document⟩ ∧
      session.beginRun = .ok begun ∧
      (range.first + stream.length < rowLimit → ∃ course, performed = .ok course) ∧
      ∀ course, performed = .ok course →
        ∃ count direct left, count ≤ stream.length ∧
          begun.applyEach original (stream.take count) = .ok direct ∧ direct.outcome = .ok () ∧
          course.manager.sessions.get? handle.stream = some left ∧ left.session.applied = count ∧
          (∀ asked, course.fired = some asked →
            if settings.instant then asked ≤ stream.length → count = 0 else count ≤ asked) ∧
          ((∀ applied, course.run.stage ≠ .ended (.cancelled applied)) →
            course.manager.document document = direct.buffer) ∧
          ∀ applied, course.run.stage = .ended (.cancelled applied) → applied = count ∧
            if settings.rejectOnCancel then
              course.manager.document document = original ∧ course.manager.stream? id = none
            else
              course.manager.document document = direct.buffer ∧
                if (stream.take count).any DiffLine.isChange then
                  course.manager.stream? id = some handle.stream ∧
                    left.session.state = .reviewing
                else course.manager.stream? id = none ∧ left.session.state = .idle := by
  intro original settings performed
  rcases reachable.consistent.manager.fresh started with ⟨rfl, unchanged, session, fresh⟩
  rcases fresh.launched with ⟨begun, launched⟩
  have same : original = manager.document document := (unchanged document).symm
  clear_value original
  subst same
  -- A token that fires before the run begins could as well be the first thing to happen to it.
  have lawful : Course.Lawful manager handle ⟨session, document⟩ begun stream
      (Course.launch manager handle stream early) := by
    have live := Course.launch_live launched stream
    cases early with
    | false => exact .inl ⟨_, _, live⟩
    | true =>
        rcases live.fire with ⟨next, fired, lawful⟩
        rw [Course.launch_fired fresh launched] at fired
        cases fired
        exact lawful
  have goes := lawful.performAll launched moments
  refine ⟨session, begun, fresh.opens, launched.begins, ?_, ?_⟩
  · intro small
    rcases goes with ⟨course, reached, _⟩ | ⟨large, _⟩
    · exact ⟨course, reached⟩
    · exact absurd small (Nat.not_lt_of_le large)
  · intro course reached
    rcases goes with ⟨other, same, lawful⟩ | ⟨_, fault, failed⟩
    · cases reached.symm.trans same
      rcases lawful with ⟨read, direct, live⟩ | ⟨count, direct, past⟩
      · have going (applied : Nat) : course.run.stage ≠ .ended (.cancelled applied) := by
          intro ended
          have live := live.live
          rw [Run.isOver, ended] at live
          cases live
        refine ⟨_, direct, _, live.drives.few, live.drives.driven, live.drives.outcome,
          live.underway.found, (launched.drives live.drives).1, ?_, fun _ => live.document,
          fun applied ended => absurd ended (going applied)⟩
        intro asked fired
        rw [live.fired asked fired]
        exact live.unasked
      · rcases past.ending.filed with ⟨left, found, _, counted, settles⟩
        exact ⟨count, direct, left, past.drives.few, past.drives.driven, past.drives.outcome, found,
          counted, past.fired, past.ending.stays, settles⟩
    · cases reached.symm.trans failed

/-- The token fires during the pause after the first of two lines, which is taken back. -/
theorem oneReplaced_is_taken_back :
    let blank := Manager.ofDocuments ⟨false, 20, true, 256⟩ ⟨[("d", ⟨["a"]⟩)]⟩
    let manager := (blank.start ⟨"t"⟩ "d" ⟨0, 0⟩).manager
    let handle : Handle := ⟨⟨"t"⟩, ⟨1⟩⟩
    let moments : List Moment := [.check, .deliver, .fire, .interrupt]
    ∃ course, blank.start ⟨"t"⟩ "d" ⟨0, 0⟩ = ⟨manager, [], .ok handle⟩ ∧
      (Course.launch manager handle [⟨.removed, "a"⟩, ⟨.added, "x"⟩] false).performAll moments =
        .ok course ∧
      course.run.stage = .ended (.cancelled 1) ∧ course.manager.document "d" = ⟨["a"]⟩ ∧
      course.manager.stream? ⟨"t"⟩ = none := by
  intro blank manager handle moments
  have started : blank.start ⟨"t"⟩ "d" ⟨0, 0⟩ = ⟨manager, [], .ok handle⟩ := rfl
  have reachable : (ofDocuments ⟨false, 20, true, 256⟩ ⟨[("d", ⟨["a"]⟩)]⟩).Reachable := .start _ _
  rcases cancelled_run_applies_prefix reachable started [⟨.removed, "a"⟩, ⟨.added, "x"⟩] false
    moments with ⟨session, begun, _, _, performs, holds⟩
  rcases performs (by decide) with ⟨course, performed⟩
  rcases holds course performed with ⟨count, direct, left, _, _, _, _, _, _, _, settles⟩
  have stages : (do
      let course ← (Course.launch manager handle [⟨.removed, "a"⟩, ⟨.added, "x"⟩] false).performAll
        moments
      return course.run.stage) = Except.ok (.ended (.cancelled 1)) := by
    cbv
  rw [performed] at stages
  have stage := Except.ok.inj stages
  rcases settles 1 stage with ⟨_, text⟩
  have rejects : manager.settings.rejectOnCancel = true := rfl
  rw [if_pos rejects] at text
  exact ⟨course, started, performed, stage, text.1, text.2⟩

end Traffic

end Redline
