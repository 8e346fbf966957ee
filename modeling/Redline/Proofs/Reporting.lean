import Redline.Proofs.Reachability

namespace Redline

def Status.lines : Status → Nat
  | streaming => 1
  | _ => 0

namespace Session

def ended (session : Session) (buffer : Buffer) : Session :=
  (session.finish buffer).1.takeCommitted.2

/-- What happens to a session that is open, and what it says. Clearing closes a session for
good, so only a session that is still at work is cleared. -/
inductive Acts (session : Session) (buffer : Buffer) : Session → Buffer → List Event → Prop where
  | begin {next : Session} : session.beginRun = .ok next → Acts session buffer next buffer []
  | line {line : DiffLine} {turn : Turn Unit} : session.applyLine buffer line = .ok turn →
      Acts session buffer turn.session turn.buffer turn.events
  | finish : Acts session buffer (session.ended buffer) buffer (session.finish buffer).2
  | resolve {id : BlockId} {accept : Bool} {turn : Turn Resolution} :
      session.resolve buffer id accept = .ok turn →
      Acts session buffer turn.session turn.buffer turn.events
  | clear {accept : Bool} {turn : Turn Unit} : session.state ≠ .idle →
      session.clear buffer accept = .ok turn →
      Acts session buffer turn.session turn.buffer turn.events
  | edit {line : Nat} {delta : Int} {turn : Turn Bool} :
      session.applyEdit buffer line delta = .ok turn →
      Acts session buffer turn.session turn.buffer turn.events
  | fire : Acts session buffer { session with cancelled := true } buffer []

structure Reports (session : Session) (buffer : Buffer) (next : Session) (after : Buffer)
    (events : List Event) : Prop where
  bufferId : next.bufferId = session.bufferId
  stream : next.stream = session.stream
  told : events = [] ∧ next.overlay = session.overlay ∧ next.applied = session.applied ∨
    ∃ status, events = next.announce after status ∧
      next.applied = session.applied + status.lines
  kept : session.cancelled = true → next.cancelled = true
  fired : session.state ≠ .idle → next.state = .idle → next.cancelled = true
  inert : session.state = .idle → next.state = .idle ∧ after = buffer ∧ events = []

variable {session other next : Session} {draft : List Passage} {buffer after : Buffer}
  {events : List Event}

theorem Reports.quiet (bufferId : next.bufferId = session.bufferId)
    (stream : next.stream = session.stream) (overlay : next.overlay = session.overlay)
    (applied : next.applied = session.applied) (cancelled : next.cancelled = session.cancelled)
    (state : next.state = session.state) : session.Reports buffer next buffer [] where
  bufferId := bufferId
  stream := stream
  told := .inl ⟨rfl, overlay, applied⟩
  kept before := cancelled.trans before
  fired live idle := absurd (state.symm.trans idle) live
  inert idle := ⟨state.trans idle, rfl, rfl⟩

theorem Reports.refl (session : Session) (buffer : Buffer) :
    session.Reports buffer session buffer [] :=
  .quiet rfl rfl rfl rfl rfl rfl

theorem Reports.announced {status : Status} (live : session.state ≠ .idle)
    (bufferId : next.bufferId = session.bufferId) (stream : next.stream = session.stream)
    (applied : next.applied = session.applied + status.lines)
    (cancelled : next.cancelled = session.cancelled) (still : next.state ≠ .idle) :
    session.Reports buffer next after (next.announce after status) where
  bufferId := bufferId
  stream := stream
  told := .inr ⟨status, rfl, applied⟩
  kept before := cancelled.trans before
  fired _ idle := absurd idle still
  inert idle := absurd idle live

theorem Reports.closed (live : session.state ≠ .idle)
    (bufferId : other.bufferId = session.bufferId) (stream : other.stream = session.stream)
    (applied : other.applied = session.applied) :
    session.Reports buffer (other.close after).1 after (other.close after).2 where
  bufferId := bufferId
  stream := stream
  told := .inr ⟨.closed, rfl, applied⟩
  kept _ := rfl
  fired _ _ := rfl
  inert idle := absurd idle live

theorem Reports.concluded (draft : List Passage) (live : session.state ≠ .idle) :
    session.Reports buffer ((session.redraft draft).concluded after).1 after
      ((session.redraft draft).concluded after).2 := by
  rw [Session.concluded]
  split
  · exact .closed live rfl rfl rfl
  · exact .announced live rfl rfl rfl rfl live

theorem Reports.take (reports : session.Reports buffer next after events) :
    session.Reports buffer next.takeCommitted.2 after events where
  bufferId := reports.bufferId
  stream := reports.stream
  told := reports.told
  kept := reports.kept
  fired := reports.fired
  inert := reports.inert

theorem Acts.coherent (acts : session.Acts buffer next after events)
    (coherent : session.Coherent) : next.Coherent := by
  cases acts with
  | begin begun => exact coherent.begin begun
  | line applied => exact coherent.line applied
  | finish =>
      have taken : (session.finish buffer).1.perform buffer .take =
          .ok (session.ended buffer, buffer) := rfl
      exact (coherent.finish buffer).perform taken
  | resolve resolved => exact coherent.resolve resolved
  | clear _ cleared => exact coherent.clear cleared
  | edit applied => exact coherent.edit applied
  | fire => exact coherent.fire

theorem beginRun_state (begun : session.beginRun = .ok next) : next.state = session.state := by
  rcases beginRun_eq_ok begun with ⟨_, _, _, rfl⟩
  rfl

theorem begin_reports (begun : session.beginRun = .ok next) :
    session.Reports buffer next buffer [] := by
  rcases beginRun_eq_ok begun with ⟨_, _, _, rfl⟩
  exact .quiet rfl rfl rfl rfl rfl rfl

theorem Coherent.line_reports (coherent : session.Coherent) {line : DiffLine} {turn : Turn Unit}
    (applied : session.applyLine buffer line = .ok turn) :
    session.Reports buffer turn.session turn.buffer turn.events := by
  cases coherent.takes applied with
  | refused => exact .refl session buffer
  | recorded state =>
      have live : session.state ≠ .idle := by simp [state]
      exact .announced live rfl rfl rfl rfl live

theorem Coherent.line_state (coherent : session.Coherent) {line : DiffLine} {turn : Turn Unit}
    (applied : session.applyLine buffer line = .ok turn) : turn.session.state = session.state := by
  cases coherent.takes applied with
  | refused => rfl
  | recorded => rfl

theorem finish_reports (session : Session) (buffer : Buffer) :
    session.Reports buffer (session.finish buffer).1 buffer (session.finish buffer).2 := by
  by_cases state : session.state = .streaming
  · have live : session.state ≠ .idle := by simp [state]
    rcases finish_streaming state buffer with ⟨_, closed⟩ | ⟨_, _, rfl, reviewed⟩
    · rw [closed]
      exact .closed live rfl rfl rfl
    · rw [reviewed]
      exact .announced live rfl rfl rfl rfl (by simp)
  · rw [finish_settled state]
    exact .quiet rfl rfl rfl rfl rfl rfl

theorem concluded_idle (session : Session) (buffer : Buffer) (live : session.state ≠ .idle) :
    (session.concluded buffer).1.state = .idle ↔ session.registry.blocks.length = 0 := by
  rw [Session.concluded]
  split
  · rename_i none
    simp [none, close]
  · rename_i some
    simp [some, live]

theorem Coherent.resolve_closed (coherent : session.Coherent) {id : BlockId} {accept : Bool}
    {turn : Turn Resolution} {resolution : Resolution}
    (resolved : session.resolve buffer id accept = .ok turn)
    (outcome : turn.outcome = .ok resolution) :
    resolution.closed = true ↔ turn.session.state = .idle := by
  cases coherent.decides resolved with
  | refused => cases outcome
  | settled state =>
      rw [← Except.ok.inj outcome, concluded_idle _ _ (by simp [Session.redraft, state])]
      exact beq_iff_eq

theorem Coherent.resolve_reports (coherent : session.Coherent) {id : BlockId} {accept : Bool}
    {turn : Turn Resolution} (resolved : session.resolve buffer id accept = .ok turn) :
    session.Reports buffer turn.session turn.buffer turn.events := by
  cases coherent.decides resolved with
  | refused => exact .refl session buffer
  | settled state => exact .concluded _ (by simp [state])

/-- Clearing closes the session, or it is refused without a trace. Only a rejection is ever
refused. -/
theorem Coherent.clear_or_refuse (coherent : session.Coherent) {accept : Bool}
    {turn : Turn Unit} (cleared : session.clear buffer accept = .ok turn) :
    (∃ after, turn = ⟨(session.close after).1, after, (session.close after).2, .ok ()⟩) ∨
      accept = false ∧ ∃ error, turn = session.refuse buffer error := by
  cases accept with
  | true =>
      rw [clear_accept] at cleared
      exact .inl ⟨buffer, (Except.ok.inj cleared).symm⟩
  | false =>
      rcases coherent.tracks with ⟨draft, tracks⟩
      rcases tracks.clear_reject buffer with ⟨error, refused⟩ | closed
      · rw [refused] at cleared
        exact .inr ⟨rfl, error, (Except.ok.inj cleared).symm⟩
      · rw [closed] at cleared
        exact .inl ⟨_, (Except.ok.inj cleared).symm⟩

theorem Coherent.clear_reports (coherent : session.Coherent) (live : session.state ≠ .idle)
    {accept : Bool} {turn : Turn Unit} (cleared : session.clear buffer accept = .ok turn) :
    session.Reports buffer turn.session turn.buffer turn.events := by
  rcases coherent.clear_or_refuse cleared with ⟨after, rfl⟩ | ⟨_, error, rfl⟩
  · exact .closed live rfl rfl rfl
  · exact .refl session buffer

theorem Coherent.edit_reports (coherent : session.Coherent) {line : Nat} {delta : Int}
    {turn : Turn Bool} (applied : session.applyEdit buffer line delta = .ok turn) :
    session.Reports buffer turn.session turn.buffer turn.events := by
  cases coherent.hears applied with
  | ignored => exact .refl session buffer
  | still => exact .refl session buffer
  | followed state => exact .concluded _ (by simp [state])

theorem Acts.reports (acts : session.Acts buffer next after events)
    (coherent : session.Coherent) : session.Reports buffer next after events := by
  cases acts with
  | begin begun => exact begin_reports begun
  | line applied => exact coherent.line_reports applied
  | finish => exact (finish_reports session buffer).take
  | resolve resolved => exact coherent.resolve_reports resolved
  | clear live cleared => exact coherent.clear_reports live cleared
  | edit applied => exact coherent.edit_reports applied
  | fire =>
      exact ⟨rfl, rfl, .inl ⟨rfl, rfl, rfl⟩, fun _ => rfl, fun _ _ => rfl,
        fun idle => ⟨idle, rfl, rfl⟩⟩

end Session

end Redline
