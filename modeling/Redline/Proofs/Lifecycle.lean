import Redline.Proofs.Reporting
import Redline.Proofs.Soundness

/-! The life of a session: it streams, it may come under review, and it closes. What a host may
ask for depends on where in its life a session is, whatever was asked for before. -/

namespace Redline

inductive SessionState.Leads : SessionState → SessionState → Prop where
  | stays (state : SessionState) : Leads state state
  | reviews : Leads .streaming .reviewing
  | closes (state : SessionState) : Leads state .idle

theorem SessionState.Leads.trans {first second third : SessionState} (one : first.Leads second)
    (two : second.Leads third) : first.Leads third := by
  cases two with
  | stays => exact one
  | reviews =>
      cases one with
      | stays => exact .reviews
  | closes => exact .closes first

/-- An operation that was asked for, whether it was carried out, and the state it left. -/
structure Deed where
  operation : Operation
  accepted : Bool
  state : SessionState
  deriving DecidableEq, Repr

namespace Deed

def begins (deed : Deed) : Bool :=
  match deed.operation with
  | .begin => deed.accepted
  | _ => false

def ends (deed : Deed) : Bool :=
  match deed.operation with
  | .finish => true
  | .discard => true
  | .clear _ => deed.accepted
  | _ => false

def states (deeds : List Deed) : List SessionState := .streaming :: deeds.map state

end Deed

def Turn.succeeded {α : Type} : Except Fault (Turn α) → Bool
  | .ok turn => turn.outcome.isOk
  | .error _ => false

namespace Session

def accepts (session : Session) (buffer : Buffer) : Operation → Bool
  | .begin => session.beginRun.isOk
  | .line line => Turn.succeeded (session.applyLine buffer line)
  | .finish => true
  | .take => true
  | .resolve id accept => Turn.succeeded (session.resolve buffer id accept)
  | .clear accept => Turn.succeeded (session.clear buffer accept)
  | .discard => true
  | .edit line delta => Turn.succeeded (session.applyEdit buffer line delta)

/-- The sessions a host can bring about, with all it has asked them for. In between it changes
the buffer at will and fires the token when it likes. -/
inductive Lived : List Deed → Session → Buffer → Prop where
  | start {bufferId : BufferId} {stream : StreamId} {buffer : Buffer} {range : LineRange}
      {session : Session} : Session.start bufferId stream buffer range = .ok session →
      Lived [] session buffer
  | step {deeds : List Deed} {session next : Session} {buffer after : Buffer}
      {operation : Operation} : Lived deeds session buffer →
      session.perform buffer operation = .ok (next, after) →
      Lived (deeds ++ [⟨operation, session.accepts buffer operation, next.state⟩]) next after
  | host {deeds : List Deed} {session : Session} {buffer : Buffer} (other : Buffer) :
      Lived deeds session buffer → Lived deeds session other
  | fire {deeds : List Deed} {session : Session} {buffer : Buffer} :
      Lived deeds session buffer → Lived deeds { session with cancelled := true } buffer

variable {session next : Session} {buffer after : Buffer} {deeds : List Deed} {deed : Deed}

def record (session : Session) (buffer : Buffer) :
    List Operation → Except Fault (List Deed × Session × Buffer)
  | [] => .ok ([], session, buffer)
  | operation :: rest => do
      let (next, after) ← session.perform buffer operation
      let (deeds, last, final) ← next.record after rest
      return (⟨operation, session.accepts buffer operation, next.state⟩ :: deeds, last, final)

theorem Lived.run {session last : Session} {buffer final : Buffer} {deeds more : List Deed}
    {operations : List Operation} (lived : Lived deeds session buffer)
    (recorded : session.record buffer operations = .ok (more, last, final)) :
    Lived (deeds ++ more) last final := by
  induction operations generalizing session buffer deeds more with
  | nil =>
      cases recorded
      rw [List.append_nil]
      exact lived
  | cons operation rest ih =>
      rcases bind_eq_ok.mp recorded with ⟨⟨next, after⟩, performed, others⟩
      rcases bind_eq_ok.mp others with ⟨⟨later, last, final⟩, recorded, same⟩
      cases same
      have whole := ih (lived.step performed) recorded
      rw [List.append_assoc] at whole
      exact whole

theorem Lived.reachable (lived : Lived deeds session buffer) : Reachable session buffer := by
  induction lived with
  | start started => exact .start started
  | step _ performed ih => exact ih.step performed
  | host other _ ih => exact ih.host other
  | fire _ ih => exact ih.fire

inductive Moves (session next : Session) (deed : Deed) : Prop where
  | begins (state : session.state = .streaming) (fresh : session.running = false)
      (still : next.state = .streaming) (running : next.running = true)
      (begun : deed.begins = true) (goesOn : deed.ends = false)
  | stays (state : next.state = session.state) (cancelled : next.cancelled = session.cancelled)
      (running : next.running = session.running ∨
        next.running = false ∧ session.state ≠ .streaming)
      (idles : deed.begins = false) (ended : deed.ends = true → session.state ≠ .streaming)
  | reviews (before : session.state = .streaming) (state : next.state = .reviewing)
      (running : next.running = false) (idles : deed.begins = false) (ended : deed.ends = true)
  | closes (state : next.state = .idle) (cancelled : next.cancelled = true)
      (idles : deed.begins = false) (ended : deed.ends = true ∨ session.state = .reviewing)

theorem Moves.refl (session : Session) (idles : deed.begins = false) (goesOn : deed.ends = false) :
    session.Moves session deed :=
  .stays rfl rfl (.inl rfl) idles fun ended => Bool.noConfusion (goesOn.symm.trans ended)

theorem Moves.leads (moves : session.Moves next deed) : session.state.Leads next.state := by
  cases moves with
  | begins state _ still =>
      rw [state, still]
      exact .stays _
  | stays state =>
      rw [state]
      exact .stays _
  | reviews before state =>
      rw [before, state]
      exact .reviews
  | closes state =>
      rw [state]
      exact .closes _

theorem begin_moves (session : Session) (buffer : Buffer)
    (performed : session.perform buffer .begin = .ok (next, after)) (state : SessionState) :
    session.Moves next ⟨.begin, session.accepts buffer .begin, state⟩ := by
  rw [Session.perform] at performed
  rw [Session.accepts]
  cases begun : session.beginRun with
  | error error =>
      rw [begun] at performed
      cases performed
      exact .refl _ rfl rfl
  | ok other =>
      rw [begun] at performed
      cases performed
      rcases beginRun_eq_ok begun with ⟨quiet, _, streaming, rfl⟩
      exact .begins streaming quiet streaming rfl rfl rfl

theorem Coherent.line_moves (coherent : session.Coherent) {line : DiffLine}
    (performed : session.perform buffer (.line line) = .ok (next, after)) (accepted : Bool)
    (state : SessionState) : session.Moves next ⟨.line line, accepted, state⟩ := by
  rcases bind_eq_ok.mp performed with ⟨turn, applied, last⟩
  cases last
  cases coherent.takes applied with
  | refused => exact .refl session rfl rfl
  | recorded => exact .stays rfl rfl (.inl rfl) rfl fun ended => Bool.noConfusion ended

theorem finish_moves (session : Session) (buffer : Buffer) (accepted : Bool)
    (state : SessionState) :
    session.Moves (session.finish buffer).1 ⟨.finish, accepted, state⟩ := by
  by_cases streaming : session.state = .streaming
  · rcases finish_streaming streaming buffer with ⟨_, closed⟩ | ⟨_, _, rfl, reviewed⟩
    · rw [closed]
      exact .closes rfl rfl rfl (.inl rfl)
    · rw [reviewed]
      exact .reviews streaming rfl rfl rfl rfl
  · rw [finish_settled streaming]
    exact .stays rfl rfl (.inr ⟨rfl, streaming⟩) rfl fun _ => streaming

/-- A session under review goes on, or closes with its last block. -/
theorem concluded_moves (draft : List Passage) (reviewing : session.state = .reviewing)
    (buffer : Buffer) (idles : deed.begins = false) (goesOn : deed.ends = false) :
    session.Moves ((session.redraft draft).concluded buffer).1 deed := by
  rw [Session.concluded]
  split
  · exact .closes rfl rfl idles (.inr reviewing)
  · exact .stays rfl rfl (.inl rfl) idles fun ended => Bool.noConfusion (goesOn.symm.trans ended)

theorem Coherent.resolve_moves (coherent : session.Coherent) {id : BlockId} {accept : Bool}
    (performed : session.perform buffer (.resolve id accept) = .ok (next, after))
    (accepted : Bool) (state : SessionState) :
    session.Moves next ⟨.resolve id accept, accepted, state⟩ := by
  rcases bind_eq_ok.mp performed with ⟨turn, resolved, last⟩
  cases last
  cases coherent.decides resolved with
  | refused => exact .refl session rfl rfl
  | settled reviewing => exact concluded_moves _ reviewing _ rfl rfl

theorem Coherent.clear_moves (coherent : session.Coherent) {accept : Bool}
    (performed : session.perform buffer (.clear accept) = .ok (next, after))
    (state : SessionState) :
    session.Moves next ⟨.clear accept, session.accepts buffer (.clear accept), state⟩ := by
  rcases bind_eq_ok.mp performed with ⟨turn, cleared, last⟩
  cases last
  rw [Session.accepts, cleared]
  rcases coherent.clear_or_refuse cleared with ⟨after, rfl⟩ | ⟨_, error, rfl⟩
  · exact .closes rfl rfl rfl (.inl rfl)
  · exact .refl session rfl rfl

theorem Coherent.edit_moves (coherent : session.Coherent) {line : Nat} {delta : Int}
    (performed : session.perform buffer (.edit line delta) = .ok (next, after))
    (accepted : Bool) (state : SessionState) :
    session.Moves next ⟨.edit line delta, accepted, state⟩ := by
  rcases bind_eq_ok.mp performed with ⟨turn, applied, last⟩
  cases last
  cases coherent.hears applied with
  | ignored => exact .refl session rfl rfl
  | still => exact .refl session rfl rfl
  | followed reviewing => exact concluded_moves _ reviewing buffer rfl rfl

theorem Coherent.moves (coherent : session.Coherent) {operation : Operation}
    (performed : session.perform buffer operation = .ok (next, after)) (state : SessionState) :
    session.Moves next ⟨operation, session.accepts buffer operation, state⟩ := by
  cases operation with
  | begin => exact begin_moves session buffer performed state
  | line line => exact coherent.line_moves performed _ state
  | finish =>
      cases performed
      exact finish_moves session buffer _ state
  | take =>
      cases performed
      exact .stays rfl rfl (.inl rfl) rfl fun ended => Bool.noConfusion ended
  | resolve id accept => exact coherent.resolve_moves performed _ state
  | clear accept => exact coherent.clear_moves performed state
  | discard =>
      cases performed
      exact .closes rfl rfl rfl (.inl rfl)
  | edit line delta => exact coherent.edit_moves performed _ state

theorem running_of_accepts {line : DiffLine} (accepted : session.accepts buffer (.line line)) :
    session.running = true ∧ session.state = .streaming := by
  by_contra other
  rw [accepts, applyLine, if_neg other] at accepted
  exact Bool.noConfusion accepted

theorem reviewing_of_accepts {id : BlockId} {accept : Bool}
    (accepted : session.accepts buffer (.resolve id accept)) : session.state = .reviewing := by
  by_contra other
  rw [accepts, resolve, if_neg other] at accepted
  exact Bool.noConfusion accepted

theorem Coherent.edit_answers (coherent : session.Coherent) {line : Nat} {delta : Int}
    {turn : Turn Bool} (applied : session.applyEdit buffer line delta = .ok turn) :
    turn.buffer = buffer ∧ turn.outcome = .ok (decide (session.state = .reviewing)) ∧
      (session.state ≠ .reviewing → turn.session = session ∧ turn.events = []) := by
  cases coherent.hears applied with
  | ignored other =>
      rw [decide_eq_false other]
      exact ⟨rfl, rfl, fun _ => ⟨rfl, rfl⟩⟩
  | still reviewing | followed reviewing =>
      rw [decide_eq_true reviewing]
      exact ⟨rfl, rfl, fun other => absurd reviewing other⟩

structure Remembers (session : Session) (deeds : List Deed) : Prop where
  past : (Deed.states deeds).Pairwise SessionState.Leads
  now : (Deed.states deeds).getLast? = some session.state
  quiet : session.state = .reviewing → session.running = false
  fired : session.state = .idle → session.cancelled = true
  goesOn : session.state = .streaming ↔ ∀ deed ∈ deeds, deed.ends = false
  begun : session.state = .streaming →
    deeds.countP Deed.begins = if session.running then 1 else 0
  once : deeds.countP Deed.begins ≤ 1

theorem start_remembers {bufferId : BufferId} {stream : StreamId} {range : LineRange}
    (started : Session.start bufferId stream buffer range = .ok session) :
    session.Remembers [] := by
  unfold Session.start at started
  split at started
  · cases started
    refine ⟨List.pairwise_singleton _ _, rfl, ?_, ?_, ?_, fun _ => rfl, Nat.zero_le 1⟩
    · exact fun reviewing => SessionState.noConfusion reviewing
    · exact fun idle => SessionState.noConfusion idle
    · simp
  · cases started

theorem Remembers.leads (remembers : session.Remembers deeds) {state : SessionState}
    (member : state ∈ Deed.states deeds) : state.Leads session.state := by
  rcases List.getLast?_eq_some_iff.mp remembers.now with ⟨front, divided⟩
  have past := remembers.past
  rw [divided] at member past
  rcases List.mem_append.mp member with earlier | last
  · exact (List.pairwise_append.mp past).2.2 state earlier _ (List.mem_singleton_self _)
  · rw [List.mem_singleton.mp last]
    exact .stays _

theorem Remembers.states (remembers : session.Remembers deeds) (leads : session.state.Leads
    deed.state) : (Deed.states (deeds ++ [deed])).Pairwise SessionState.Leads := by
  rw [Deed.states, List.map_append, ← List.cons_append, List.pairwise_append]
  refine ⟨remembers.past, List.pairwise_singleton _ _, fun state member other last => ?_⟩
  rw [List.mem_singleton.mp last]
  exact (remembers.leads member).trans leads

/-- A session remembers one more deed. -/
theorem Remembers.step (remembers : session.Remembers deeds) (left : deed.state = next.state)
    (moves : session.Moves next deed) : next.Remembers (deeds ++ [deed]) := by
  have past := remembers.states (left ▸ moves.leads)
  have now : (Deed.states (deeds ++ [deed])).getLast? = some next.state := by
    rw [Deed.states, List.map_append, ← List.cons_append, List.map_singleton,
      List.getLast?_concat, left]
  have goesOn : (∀ other ∈ deeds ++ [deed], other.ends = false) ↔
      session.state = .streaming ∧ deed.ends = false := by
    rw [List.forall_mem_append, List.forall_mem_singleton, remembers.goesOn]
  have count : (deeds ++ [deed]).countP Deed.begins =
      deeds.countP Deed.begins + if deed.begins then 1 else 0 := by
    rw [List.countP_append, List.countP_singleton]
  -- Only a beginning is counted, and only an end takes away that lines can go on.
  cases moves with
  | begins state fresh still running begun lasts =>
      have first : (deeds ++ [deed]).countP Deed.begins = 1 := by
        rw [count, remembers.begun state, fresh, begun]
        rfl
      refine ⟨past, now, ?_, ?_, ?_, ?_, first.le⟩
      · simp [still]
      · simp [still]
      · exact iff_of_true still (goesOn.mpr ⟨state, lasts⟩)
      · rw [first, running]
        simp
  | stays state cancelled running idles ended =>
      have same : (deeds ++ [deed]).countP Deed.begins = deeds.countP Deed.begins := by
        rw [count, idles]
        rfl
      refine ⟨past, now, fun reviewing => ?_, fun idle => ?_, ?_, fun streaming => ?_, ?_⟩
      · rcases running with kept | ⟨stopped, _⟩
        · rw [kept, remembers.quiet (state.symm.trans reviewing)]
        · exact stopped
      · rw [cancelled, remembers.fired (state.symm.trans idle)]
      · rw [goesOn, state]
        refine ⟨fun streaming => ⟨streaming, ?_⟩, And.left⟩
        exact Bool.eq_false_iff.mpr fun ends => ended ends streaming
      · have before := state.symm.trans streaming
        rcases running with kept | ⟨_, other⟩
        · rw [same, kept, remembers.begun before]
        · exact absurd before other
      · rw [same]
        exact remembers.once
  | reviews before state running idles ended =>
      have same : (deeds ++ [deed]).countP Deed.begins = deeds.countP Deed.begins := by
        rw [count, idles]
        rfl
      refine ⟨past, now, fun _ => running, ?_, ?_, ?_, ?_⟩
      · simp [state]
      · rw [goesOn, state, ended]
        simp
      · simp [state]
      · rw [same]
        exact remembers.once
  | closes state cancelled idles ended =>
      have same : (deeds ++ [deed]).countP Deed.begins = deeds.countP Deed.begins := by
        rw [count, idles]
        rfl
      refine ⟨past, now, ?_, fun _ => cancelled, ?_, ?_, ?_⟩
      · simp [state]
      · rw [goesOn, state]
        refine ⟨fun streaming => SessionState.noConfusion streaming, ?_⟩
        rintro ⟨streaming, lasts⟩
        rcases ended with ends | reviewing
        · exact Bool.noConfusion (lasts.symm.trans ends)
        · exact SessionState.noConfusion (streaming.symm.trans reviewing)
      · simp [state]
      · rw [same]
        exact remembers.once

theorem Lived.remembers (lived : Lived deeds session buffer) : session.Remembers deeds := by
  induction lived with
  | start started => exact start_remembers started
  | step lived performed ih => exact ih.step rfl (lived.reachable.coherent.moves performed _)
  | host other _ ih => exact ih
  | fire _ ih => exact ⟨ih.past, ih.now, ih.quiet, fun _ => rfl, ih.goesOn, ih.begun, ih.once⟩

/-- A session streams, comes under review unless it closes right away, and closes for good. It
follows edits exactly while it is under review, and answers so; then it has blocks and no run. Once
it has closed, nothing is tracked and its token has fired. It runs once, lines are applied only from
the start of that run until the session is ended in one way or another, and blocks are resolved only
under review. -/
theorem follows_lifecycle (lived : Lived deeds session buffer) :
    ((Deed.states deeds).Pairwise SessionState.Leads ∧
      (Deed.states deeds).getLast? = some session.state) ∧
    (session.listening = true ↔ session.state = .reviewing) ∧
    (session.state = .reviewing → session.registry.blocks ≠ [] ∧ session.running = false) ∧
    (session.state = .idle →
      session.tracker = .empty ∧ session.registry.blocks = [] ∧ session.cancelled = true) ∧
    deeds.countP Deed.begins ≤ 1 ∧
    (∀ line, session.accepts buffer (.line line) = true →
      (∃ deed ∈ deeds, deed.begins = true) ∧ ∀ deed ∈ deeds, deed.ends = false) ∧
    (∀ id accept, session.accepts buffer (.resolve id accept) = true →
      session.state = .reviewing) ∧
    (∀ line delta turn, session.applyEdit buffer line delta = .ok turn →
      turn.buffer = buffer ∧ turn.outcome = .ok (decide (session.state = .reviewing)) ∧
        (session.state ≠ .reviewing → turn.session = session ∧ turn.events = [])) ∧
    ∀ line delta, session.RowsFit (.edit line delta) → (Operation.edit line delta).Short →
      ∃ turn, session.applyEdit buffer line delta = .ok turn := by
  have remembers := lived.remembers
  have coherent := lived.reachable.coherent
  refine ⟨⟨remembers.past, remembers.now⟩, ⟨coherent.state_of_listening, fun reviewing => ?_⟩,
    fun reviewing => ⟨coherent.blocks_ne_nil reviewing, remembers.quiet reviewing⟩,
    fun idle => ?_, remembers.once,
    fun line accepted => ?_, fun id accept accepted => reviewing_of_accepts accepted,
    fun line delta turn applied => coherent.edit_answers applied,
    fun line delta fits short => ?_⟩
  · rcases coherent.under_review reviewing with ⟨_, _, listens, _⟩
    exact listens
  · cases coherent with
    | streaming _ _ state => exact SessionState.noConfusion (state.symm.trans idle)
    | reviewing _ _ state => exact SessionState.noConfusion (state.symm.trans idle)
    | idle tracks => exact ⟨tracks.tracker, tracks.blocks, remembers.fired idle⟩
  · rcases running_of_accepts accepted with ⟨running, streaming⟩
    have begun := remembers.begun streaming
    rw [running] at begun
    exact ⟨List.countP_pos_iff.mp (begun ▸ Nat.one_pos), remembers.goesOn.mp streaming⟩
  · rcases coherent.tracks with ⟨draft, tracks⟩
    exact tracks.applyEdit_ok fits short

def oneChangeDeeds : List Deed :=
  [⟨.begin, true, .streaming⟩, ⟨.line ⟨.removed, "a"⟩, true, .streaming⟩,
    ⟨.line ⟨.added, "x"⟩, true, .streaming⟩, ⟨.finish, true, .reviewing⟩]

theorem oneChange_lived : Lived oneChangeDeeds oneChange ⟨["x", "b"]⟩ := by
  have started := @Lived.start ⟨"t"⟩ ⟨1⟩ ⟨["a", "b"]⟩ ⟨0, 1⟩ _ rfl
  apply @Lived.run _ _ _ _ _ oneChangeDeeds
    [.begin, .line ⟨.removed, "a"⟩, .line ⟨.added, "x"⟩, .finish] started
  cbv

/-- The block of the replaced line can be resolved, no line can follow, and an edit below the block
is followed. -/
theorem oneChange_follows_lifecycle : Lived oneChangeDeeds oneChange ⟨["x", "b"]⟩ ∧
    oneChange.accepts ⟨["x", "b"]⟩ (.resolve ⟨⟨1⟩, 0⟩ false) = true ∧
    oneChange.state = .reviewing ∧ oneChange.listening = true ∧
    oneChange.accepts ⟨["x", "b"]⟩ (.line ⟨.same, "b"⟩) = false ∧
    oneChange.RowsFit (.edit 1 (-1)) ∧ (Operation.edit 1 (-1)).Short ∧
    ∃ turn, oneChange.applyEdit ⟨["x", "b"]⟩ 1 (-1) = .ok turn ∧ turn.outcome = .ok true := by
  rcases follows_lifecycle oneChange_lived with
    ⟨_, listens, _, _, _, applies, resolves, answers, hears⟩
  have accepted : oneChange.accepts ⟨["x", "b"]⟩ (.resolve ⟨⟨1⟩, 0⟩ false) = true := by cbv
  have reviewing := resolves ⟨⟨1⟩, 0⟩ false accepted
  have refused : oneChange.accepts ⟨["x", "b"]⟩ (.line ⟨.same, "b"⟩) = false := by
    apply Bool.eq_false_iff.mpr
    intro applied
    have going := (applies ⟨.same, "b"⟩ applied).2 ⟨.finish, true, .reviewing⟩
    exact absurd (going (by simp [oneChangeDeeds])) (by decide)
  have fits : oneChange.RowsFit (.edit 1 (-1)) := by
    intro _
    exact ⟨fun positive => by omega, fun _ => ⟨by decide, by decide⟩⟩
  have short : (Operation.edit 1 (-1)).Short := by simp [Operation.Short, Tracker.rowListLimit]
  rcases hears 1 (-1) fits short with ⟨turn, applied⟩
  have answer := (answers 1 (-1) turn applied).2.1
  rw [decide_eq_true reviewing] at answer
  exact ⟨oneChange_lived, accepted, reviewing, listens.mpr reviewing, refused, fits, short, turn,
    applied, answer⟩

end Session

end Redline
