import Mathlib.Data.List.Permutation
import Redline.Proofs.Edits
import Redline.Proofs.Streaming

namespace Redline

inductive Operation where
  | begin
  | line (line : DiffLine)
  | finish
  | take
  | resolve (id : BlockId) (accept : Bool)
  | clear (accept : Bool)
  | discard
  | edit (line : Nat) (delta : Int)
  deriving DecidableEq, Repr

namespace Session

def perform (session : Session) (buffer : Buffer) :
    Operation → Except Fault (Session × Buffer)
  | .begin =>
      match session.beginRun with
      | .ok next => .ok (next, buffer)
      | .error _ => .ok (session, buffer)
  | .line line => do
      let turn ← session.applyLine buffer line
      return (turn.session, turn.buffer)
  | .finish => .ok ((session.finish buffer).1, buffer)
  | .take => .ok (session.takeCommitted.2, buffer)
  | .resolve id accept => do
      let turn ← session.resolve buffer id accept
      return (turn.session, turn.buffer)
  | .clear accept => do
      let turn ← session.clear buffer accept
      return (turn.session, turn.buffer)
  | .discard => .ok (session.discard, buffer)
  | .edit line delta => do
      let turn ← session.applyEdit buffer line delta
      return (turn.session, turn.buffer)

def performAll (session : Session) (buffer : Buffer) :
    List Operation → Except Fault (Session × Buffer)
  | [] => .ok (session, buffer)
  | operation :: rest => do
      let (next, after) ← session.perform buffer operation
      next.performAll after rest

/-- The host changes the buffer at will and fires the token of the session when it likes. -/
inductive Reachable : Session → Buffer → Prop where
  | start {bufferId : BufferId} {stream : StreamId} {buffer : Buffer} {range : LineRange}
      {session : Session} : Session.start bufferId stream buffer range = .ok session →
      Reachable session buffer
  | step {session next : Session} {buffer after : Buffer} {operation : Operation} :
      Reachable session buffer → session.perform buffer operation = .ok (next, after) →
      Reachable next after
  | host {session : Session} {buffer : Buffer} (other : Buffer) :
      Reachable session buffer → Reachable session other
  | fire {session : Session} {buffer : Buffer} :
      Reachable session buffer → Reachable { session with cancelled := true } buffer

theorem Reachable.run {session last : Session} {buffer after : Buffer}
    {operations : List Operation} (reachable : Reachable session buffer)
    (performed : session.performAll buffer operations = .ok (last, after)) :
    Reachable last after := by
  induction operations generalizing session buffer with
  | nil =>
      rcases Prod.mk.inj (Except.ok.inj performed) with ⟨rfl, rfl⟩
      exact reachable
  | cons operation rest ih =>
      rcases bind_eq_ok.mp performed with ⟨⟨next, middle⟩, first, later⟩
      exact ih (reachable.step first) later

/-- The first of two lines was replaced. -/
def oneChange : Session where
  bufferId := ⟨"t"⟩
  stream := ⟨1⟩
  state := .reviewing
  range := ⟨0, 1⟩
  initial := ["a", "b"]
  tracker := ⟨[⟨1, 1⟩], [⟨0, "a"⟩]⟩
  registry := ⟨⟨1⟩, 1, [⟨⟨⟨1⟩, 0⟩, 0, 1, 1⟩]⟩
  cursor := 2
  openRun := none
  committed := ["x"]
  applied := 2
  running := false
  listening := true
  cancelled := false

theorem oneChange_reachable : Reachable oneChange ⟨["x", "b"]⟩ := by
  have started := @Reachable.start ⟨"t"⟩ ⟨1⟩ ⟨["a", "b"]⟩ ⟨0, 1⟩ _ rfl
  apply @Reachable.run _ _ _ _
    [.begin, .line ⟨.removed, "a"⟩, .line ⟨.added, "x"⟩, .finish] started
  cbv

/-- A line was added above the first of two lines, and the second was replaced. -/
def twoChanges : Session where
  bufferId := ⟨"t"⟩
  stream := ⟨1⟩
  state := .reviewing
  range := ⟨0, 1⟩
  initial := ["a", "b"]
  tracker := ⟨[⟨0, 1⟩, ⟨3, 1⟩], [⟨2, "b"⟩]⟩
  registry := ⟨⟨1⟩, 2, [⟨⟨⟨1⟩, 0⟩, 0, 0, 1⟩, ⟨⟨⟨1⟩, 1⟩, 2, 1, 1⟩]⟩
  cursor := 4
  openRun := none
  committed := ["x", "a", "y"]
  applied := 4
  running := false
  listening := true
  cancelled := false

theorem twoChanges_reachable : Reachable twoChanges ⟨["x", "a", "y"]⟩ := by
  have started := @Reachable.start ⟨"t"⟩ ⟨1⟩ ⟨["a", "b"]⟩ ⟨0, 1⟩ _ rfl
  apply @Reachable.run _ _ _ _ [.begin, .line ⟨.added, "x"⟩, .line ⟨.same, "a"⟩,
    .line ⟨.removed, "b"⟩, .line ⟨.added, "y"⟩, .finish] started
  cbv

/-- What every reachable session keeps to. Only a session under review listens. -/
inductive Coherent (session : Session) : Prop where
  | streaming (draft : List Passage) (streams : session.Streams draft)
      (state : session.state = .streaming) (deaf : session.listening = false)
  | reviewing (draft : List Passage) (tracks : session.Tracks draft)
      (state : session.state = .reviewing) (listens : session.listening = true)
      (busy : Draft.ids draft ≠ [])
  | idle (tracks : session.Tracks []) (state : session.state = .idle)
      (deaf : session.listening = false)

variable {session next : Session} {draft : List Passage} {buffer after : Buffer}

theorem Tracks.congr (tracks : session.Tracks draft) (tracker : next.tracker = session.tracker)
    (registry : next.registry = session.registry) : next.Tracks draft where
  tracker := by rw [tracker, tracks.tracker]
  blocks := by rw [registry, tracks.blocks]
  fits := by rw [tracker, tracks.fits]
  filled := tracks.filled
  distinct := tracks.distinct
  minted := by rw [registry]; exact tracks.minted

theorem Streams.congr (streams : session.Streams draft) (tracker : next.tracker = session.tracker)
    (registry : next.registry = session.registry) (cursor : next.cursor = session.cursor)
    (openRun : next.openRun = session.openRun) : next.Streams draft where
  tracks := streams.tracks.congr tracker registry
  width := by rw [cursor, streams.width]
  opened := by rw [openRun, streams.opened]

theorem Coherent.tracks (coherent : session.Coherent) : ∃ draft, session.Tracks draft := by
  cases coherent with
  | streaming draft streams => exact ⟨draft, streams.tracks⟩
  | reviewing draft tracks => exact ⟨draft, tracks⟩
  | idle tracks => exact ⟨[], tracks⟩

theorem Coherent.under_way (coherent : session.Coherent) (state : session.state = .streaming) :
    ∃ draft, session.Streams draft ∧ session.listening = false := by
  cases coherent with
  | streaming draft streams _ deaf => exact ⟨draft, streams, deaf⟩
  | reviewing draft tracks other =>
      rw [state] at other
      exact SessionState.noConfusion other
  | idle tracks other =>
      rw [state] at other
      exact SessionState.noConfusion other

theorem Coherent.under_review (coherent : session.Coherent) (state : session.state = .reviewing) :
    ∃ draft, session.Tracks draft ∧ session.listening = true ∧ Draft.ids draft ≠ [] := by
  cases coherent with
  | streaming draft streams other =>
      rw [state] at other
      exact SessionState.noConfusion other
  | reviewing draft tracks _ listens busy => exact ⟨draft, tracks, listens, busy⟩
  | idle tracks other =>
      rw [state] at other
      exact SessionState.noConfusion other

theorem Coherent.blocks_ne_nil (coherent : session.Coherent)
    (state : session.state = .reviewing) : session.registry.blocks ≠ [] := by
  rcases coherent.under_review state with ⟨draft, tracks, _, busy⟩
  intro none
  have count := tracks.length_blocks
  rw [none] at count
  exact busy (List.eq_nil_of_length_eq_zero count.symm)

theorem Coherent.state_of_listening (coherent : session.Coherent)
    (listens : session.listening = true) : session.state = .reviewing := by
  cases coherent with
  | streaming draft streams _ deaf =>
      rw [listens] at deaf
      exact Bool.noConfusion deaf
  | reviewing draft tracks state => exact state
  | idle tracks _ deaf =>
      rw [listens] at deaf
      exact Bool.noConfusion deaf

/-! ## One operation -/

theorem close_coherent (session : Session) (buffer : Buffer) : (session.close buffer).1.Coherent :=
  .idle (Tracks.nothing rfl rfl) rfl rfl

theorem discard_coherent (session : Session) : session.discard.Coherent :=
  .idle (Tracks.nothing rfl rfl) rfl rfl

theorem start_streams {bufferId : BufferId} {stream : StreamId} {range : LineRange}
    (started : Session.start bufferId stream buffer range = .ok session) :
    session.Streams ((buffer.lines.take range.first).map .kept) := by
  unfold Session.start at started
  split at started
  · rename_i inside
    have same := (Except.ok.inj started).symm
    subst same
    have width : (buffer.lines.take range.first).length = range.first := by
      rw [List.length_take]
      unfold Buffer.lineCount at inside
      omega
    generalize buffer.lines.take range.first = texts at width
    refine ⟨⟨?_, ?_, rfl, Draft.filled_kept texts, ?_, ?_⟩, ?_, ?_⟩
    · simp [Draft.tracker, Tracker.empty]
    · simp [Registry.empty]
    · simp
    · simp
    · rw [Draft.size_kept, width]
    · rcases Draft.closed_or_open (texts.map .kept) with
        ⟨_, none⟩ | ⟨front, id, removed, added, same, _⟩
      · rw [none]
      · have plain := congrArg Draft.ids same
        simp at plain
  · simp at started

theorem start_coherent {bufferId : BufferId} {stream : StreamId} {range : LineRange}
    (started : Session.start bufferId stream buffer range = .ok session) : session.Coherent := by
  have streams := start_streams started
  unfold Session.start at started
  split at started
  · have same := (Except.ok.inj started).symm
    subst same
    exact .streaming _ streams rfl rfl
  · simp at started

theorem beginRun_eq_ok (begun : session.beginRun = .ok next) :
    session.running = false ∧ session.applied = 0 ∧ session.state = .streaming ∧
      next = { session with running := true, listening := false } := by
  unfold beginRun at begun
  split at begun
  · cases begun
  · rename_i fresh
    rcases not_or.mp fresh with ⟨quiet, rest⟩
    rcases not_or.mp rest with ⟨none, streaming⟩
    exact ⟨Bool.eq_false_iff.mpr quiet, Nat.eq_zero_of_not_pos none, not_not.mp streaming,
      (Except.ok.inj begun).symm⟩

theorem Coherent.begin (coherent : session.Coherent) (begun : session.beginRun = .ok next) :
    next.Coherent := by
  rcases beginRun_eq_ok begun with ⟨_, _, state, rfl⟩
  rcases coherent.under_way state with ⟨draft, streams, _⟩
  exact .streaming draft (streams.congr rfl rfl rfl rfl) state rfl

theorem finish_streaming (state : session.state = .streaming) (buffer : Buffer) :
    (session.registry.blocks = [] ∧ session.finish buffer =
      close { session with running := false, openRun := none, listening := true } buffer) ∨
    session.registry.blocks ≠ [] ∧ ∃ reviewed : Session,
      reviewed = { session with
        running := false, openRun := none, listening := true, state := .reviewing } ∧
      session.finish buffer = (reviewed, reviewed.announce buffer .done) := by
  rw [Session.finish]
  simp only [if_pos state, List.isEmpty_iff]
  split
  · rename_i none
    exact .inl ⟨none, rfl⟩
  · rename_i some
    exact .inr ⟨some, _, rfl, rfl⟩

theorem finish_settled (settled : session.state ≠ .streaming) (buffer : Buffer) :
    session.finish buffer = ({ session with running := false, openRun := none }, []) :=
  if_neg settled

theorem Coherent.finish (coherent : session.Coherent) (buffer : Buffer) :
    (session.finish buffer).1.Coherent := by
  cases coherent with
  | streaming draft streams state deaf =>
      rcases finish_streaming state buffer with ⟨_, closed⟩ | ⟨some, _, rfl, reviewed⟩
      · rw [closed]
        exact close_coherent _ buffer
      · rw [reviewed]
        refine .reviewing draft (streams.tracks.congr rfl rfl) rfl rfl fun plain => some ?_
        rw [streams.tracks.blocks, Draft.blocks_plain plain]
  | reviewing draft tracks state listens busy =>
      rw [finish_settled (by simp [state])]
      exact .reviewing draft (tracks.congr rfl rfl) state listens busy
  | idle tracks state deaf =>
      rw [finish_settled (by simp [state])]
      exact .idle (tracks.congr rfl rfl) state deaf

structure Draft.Grows (draft later : List Passage) (after : Buffer) : Prop where
  room : (Draft.lines later).length ≤ after.lineCount
  count : (Draft.ids later).length = (Draft.ids draft).length ∨
    (Draft.ids later).length = (Draft.ids draft).length + 1

theorem Draft.grows_kept {draft : List Passage} {text : String} {after : Buffer}
    (room : (Draft.lines (draft ++ [.kept text])).length ≤ after.lineCount) :
    Draft.Grows draft (draft ++ [.kept text]) after :=
  ⟨room, .inl (by simp)⟩

theorem Draft.grows_extend {draft : List Passage} {fresh : BlockId} {removed added : List String}
    {after : Buffer}
    (room : (Draft.lines (Draft.extend fresh removed added draft)).length ≤ after.lineCount) :
    Draft.Grows draft (Draft.extend fresh removed added draft) after := by
  refine ⟨room, ?_⟩
  rcases Draft.closed_or_open draft with ⟨closed, _⟩ | ⟨front, id, taken, put, rfl, _⟩
  · rw [Draft.extend_closed fresh closed]
    simp
  · rw [Draft.extend_open]
    simp

/-- A line is refused without a trace, or it is recorded and leads to the next draft. -/
theorem Streams.applyLine (streams : session.Streams draft) {line : DiffLine} {turn : Turn Unit}
    (applied : session.applyLine buffer line = .ok turn) :
    (∃ error, turn = session.refuse buffer error) ∨
      ∃ later minted committed after,
        (session.recorded later minted committed).Streams later ∧
          Draft.Grows draft later after ∧
          let next := session.recorded later minted committed
          turn = ⟨next, after, next.announce after .streaming, .ok ()⟩ := by
  unfold Session.applyLine at applied
  split at applied
  · simp only [streams.bufferLine_cursor] at applied
    split at applied
    · by_cases present : (Draft.lines draft).length < buffer.lineCount
      · rw [streams.applySame present line.text ""] at applied
        rw [← Except.ok.inj applied]
        refine .inr ⟨_, _, _, _, streams.kept "" _, Draft.grows_kept ?_, rfl⟩
        rw [Draft.lines_append, List.length_append]
        exact present
      · rw [Session.applySame, if_neg present] at applied
        exact .inl ⟨_, (Except.ok.inj applied).symm⟩
    · by_cases present : (Draft.lines draft).length < buffer.lineCount
      · have found := List.getElem?_eq_getElem present
        rcases (streams.applyRemoved found).mp applied with ⟨fits, rfl⟩
        refine .inr ⟨_, _, _, _, streams.extended rfl fits _, Draft.grows_extend ?_, rfl⟩
        rw [Draft.lines_extend, List.append_nil, Buffer.lineCount, List.length_append,
          List.length_take, List.length_drop]
        unfold Buffer.lineCount at present
        omega
      · rw [Session.applyRemoved, if_neg present] at applied
        exact .inl ⟨_, (Except.ok.inj applied).symm⟩
    · by_cases place : (Draft.lines draft).length ≤ buffer.lineCount
      · rcases (streams.applyAdded place line.text).mp applied with ⟨fits, rfl⟩
        refine .inr ⟨_, _, _, _, streams.extended rfl fits _, Draft.grows_extend ?_, rfl⟩
        simp only [Draft.lines_extend, Buffer.lineCount, List.length_append, List.length_take,
          List.length_drop, List.length_singleton]
        unfold Buffer.lineCount at place
        omega
      · rw [Session.applyAdded, Buffer.insert, if_neg place] at applied
        exact .inl ⟨_, (Except.ok.inj applied).symm⟩
  · exact .inl ⟨_, (Except.ok.inj applied).symm⟩

theorem applyLine_refused {line : DiffLine} (settled : session.state ≠ .streaming) :
    session.applyLine buffer line =
      .ok (session.refuse buffer (.invalidState "apply_line" session.state)) := by
  rw [Session.applyLine, if_neg fun both => settled both.2]

/-- What a line comes to: it is refused without a trace, or recorded in a draft. -/
inductive Takes (session : Session) (buffer : Buffer) : Turn Unit → Prop where
  | refused (error : SessionError) : Takes session buffer (session.refuse buffer error)
  | recorded {draft later : List Passage} {minted : Nat} {committed : List String}
      {after : Buffer} : session.state = .streaming → session.listening = false →
      session.Streams draft → (session.recorded later minted committed).Streams later →
      Draft.Grows draft later after →
      Takes session buffer ⟨session.recorded later minted committed, after,
        (session.recorded later minted committed).announce after .streaming, .ok ()⟩

theorem Coherent.takes (coherent : session.Coherent) {line : DiffLine} {turn : Turn Unit}
    (applied : session.applyLine buffer line = .ok turn) : session.Takes buffer turn := by
  by_cases state : session.state = .streaming
  · rcases coherent.under_way state with ⟨draft, streams, deaf⟩
    rcases streams.applyLine applied with ⟨error, rfl⟩ | ⟨_, _, _, _, continues, grows, rfl⟩
    · exact .refused error
    · exact .recorded state deaf streams continues grows
  · rw [applyLine_refused state] at applied
    cases applied
    exact .refused _

theorem Coherent.line (coherent : session.Coherent) {line : DiffLine} {turn : Turn Unit}
    (applied : session.applyLine buffer line = .ok turn) : turn.session.Coherent := by
  cases coherent.takes applied with
  | refused => exact coherent
  | recorded state deaf _ continues => exact .streaming _ continues state deaf

theorem Tracks.concluded (tracks : session.Tracks draft) (state : session.state = .reviewing)
    (listens : session.listening = true) (buffer : Buffer) :
    (session.concluded buffer).1.Coherent := by
  unfold Session.concluded
  split
  · exact close_coherent session buffer
  · rename_i some
    refine .reviewing draft tracks state listens fun plain => some ?_
    rw [tracks.length_blocks, plain]
    rfl

theorem Tracks.settle {front back : List Passage} {id : BlockId} {removed added : List String}
    (tracks : session.Tracks (front ++ .change id removed added :: back)) (buffer : Buffer)
    (accept : Bool) :
    (∃ error, session.settle buffer ⟨id, Draft.size front, removed.length, added.length⟩ accept =
      .ok (session.refuse buffer error)) ∨
    ∃ texts : List String, texts.length ≤ removed.length + added.length ∧ ∃ after,
      session.settle buffer ⟨id, Draft.size front, removed.length, added.length⟩ accept =
        .ok ⟨session.redraft (front ++ (texts.map .kept ++ back)), after, [], .ok ()⟩ := by
  cases accept with
  | true =>
      refine .inr ⟨List.replicate
        (removed.length + added.length - min removed.length countLimit) "", ?_, buffer,
        tracks.accept buffer List.length_replicate⟩
      rw [List.length_replicate]
      exact Nat.sub_le _ _
  | false =>
      by_cases room : (Draft.lines front).length + added.length ≤ buffer.lineCount
      · refine .inr ⟨List.replicate
          (removed.length + added.length - min added.length countLimit) "", ?_, _,
          tracks.restore room List.length_replicate⟩
        rw [List.length_replicate]
        exact Nat.sub_le _ _
      · exact .inl ⟨_, tracks.restore_refused room⟩

theorem Tracks.resolve (tracks : session.Tracks draft) (state : session.state = .reviewing)
    (buffer : Buffer) (id : BlockId) (accept : Bool) :
    (∃ error, session.resolve buffer id accept = .ok (session.refuse buffer error)) ∨
    ∃ later after block,
      ((session.redraft later).Tracks later ∧ (Draft.ids later).Sublist (Draft.ids draft)) ∧
      let next := session.redraft later
      session.resolve buffer id accept = .ok ⟨(next.concluded after).1, after,
        (next.concluded after).2, .ok ⟨block, next.registry.blocks.length,
          next.registry.blocks.length == 0⟩⟩ := by
  by_cases known : id ∈ Draft.ids draft
  · rcases Draft.mem_ids.mp known with ⟨front, removed, added, back, rfl⟩
    rcases tracks.settle buffer accept with ⟨error, refused⟩ | ⟨texts, narrow, after, settled⟩
    · exact .inl ⟨error, resolve_refused state tracks.get? refused⟩
    · have later := tracks.settled narrow
      exact .inr ⟨_, after, _, ⟨later, by simp⟩,
        resolve_eq state tracks.get? settled later.sync⟩
  · refine .inl ⟨.blockNotFound id, ?_⟩
    rw [Session.resolve, if_pos state, tracks.get?_eq_none known]

/-- What a decision comes to: it is refused without a trace, or leads to another draft. -/
inductive Decides (session : Session) (buffer : Buffer) : Turn Resolution → Prop where
  | refused (error : SessionError) : Decides session buffer (session.refuse buffer error)
  | settled {draft later : List Passage} {after : Buffer} {block : Block} :
      session.state = .reviewing → session.listening = true → session.Tracks draft →
      (session.redraft later).Tracks later → (Draft.ids later).Sublist (Draft.ids draft) →
      Decides session buffer ⟨((session.redraft later).concluded after).1, after,
        ((session.redraft later).concluded after).2,
        .ok ⟨block, (session.redraft later).registry.blocks.length,
          (session.redraft later).registry.blocks.length == 0⟩⟩

theorem Coherent.resolves (coherent : session.Coherent) (buffer : Buffer) (id : BlockId)
    (accept : Bool) : ∃ turn, session.resolve buffer id accept = .ok turn ∧
      session.Decides buffer turn := by
  by_cases state : session.state = .reviewing
  · rcases coherent.under_review state with ⟨draft, tracks, listens, _⟩
    rcases tracks.resolve state buffer id accept with
      ⟨error, refused⟩ | ⟨later, after, block, ⟨retracks, fewer⟩, settled⟩
    · exact ⟨_, refused, .refused error⟩
    · exact ⟨_, settled, .settled state listens tracks retracks fewer⟩
  · exact ⟨_, by rw [Session.resolve, if_neg state], .refused _⟩

theorem Coherent.decides (coherent : session.Coherent) {id : BlockId} {accept : Bool}
    {turn : Turn Resolution} (resolved : session.resolve buffer id accept = .ok turn) :
    session.Decides buffer turn := by
  rcases coherent.resolves buffer id accept with ⟨other, same, decides⟩
  rw [resolved] at same
  rw [Except.ok.inj same]
  exact decides

theorem Coherent.resolve (coherent : session.Coherent) {id : BlockId} {accept : Bool}
    {turn : Turn Resolution} (resolved : session.resolve buffer id accept = .ok turn) :
    turn.session.Coherent := by
  cases coherent.decides resolved with
  | refused => exact coherent
  | settled state listens _ retracks _ => exact retracks.concluded state listens _

theorem Coherent.clear (coherent : session.Coherent) {accept : Bool} {turn : Turn Unit}
    (cleared : session.clear buffer accept = .ok turn) : turn.session.Coherent := by
  cases accept with
  | true =>
      rw [clear_accept] at cleared
      rw [← Except.ok.inj cleared]
      exact close_coherent session buffer
  | false =>
      rcases coherent.tracks with ⟨draft, tracks⟩
      rcases tracks.clear_reject buffer with ⟨error, refused⟩ | closed
      · rw [refused] at cleared
        rw [← Except.ok.inj cleared]
        exact coherent
      · rw [closed] at cleared
        rw [← Except.ok.inj cleared]
        exact close_coherent session ⟨Draft.reverted draft buffer.lines⟩

/-- What a report of an edit comes to: nobody listens, there is nothing to follow, or the draft
follows it. -/
inductive Hears (session : Session) (buffer : Buffer) : Turn Bool → Prop where
  | ignored : session.state ≠ .reviewing → Hears session buffer ⟨session, buffer, [], .ok false⟩
  | still : session.state = .reviewing → Hears session buffer ⟨session, buffer, [], .ok true⟩
  | followed {draft later : List Passage} : session.state = .reviewing →
      session.listening = true → session.Tracks draft → (session.redraft later).Tracks later →
      (Draft.ids later).Sublist (Draft.ids draft) →
      Hears session buffer ⟨((session.redraft later).concluded buffer).1, buffer,
        ((session.redraft later).concluded buffer).2, .ok true⟩

theorem Coherent.hears (coherent : session.Coherent) {line : Nat} {delta : Int} {turn : Turn Bool}
    (applied : session.applyEdit buffer line delta = .ok turn) : session.Hears buffer turn := by
  by_cases state : session.state = .reviewing
  · rcases coherent.under_review state with ⟨draft, tracks, listens, _⟩
    by_cases edited : delta = 0
    · rw [applyEdit_still listens edited] at applied
      cases applied
      exact .still state
    · have width : (List.replicate delta.toNat "").length = delta.toNat := List.length_replicate
      obtain ⟨_, fits, rfl⟩ := (tracks.applyEdit listens edited width).mp applied
      exact .followed state listens tracks (tracks.edited fits)
        (Draft.ids_edited line delta _ draft)
  · have deaf : ¬session.listening = true := mt coherent.state_of_listening state
    rw [applyEdit, if_neg deaf] at applied
    cases applied
    exact .ignored state

theorem Coherent.edit (coherent : session.Coherent) {line : Nat} {delta : Int} {turn : Turn Bool}
    (applied : session.applyEdit buffer line delta = .ok turn) : turn.session.Coherent := by
  cases coherent.hears applied with
  | ignored => exact coherent
  | still => exact coherent
  | followed state listens _ follows _ => exact follows.concluded state listens buffer

/-- Every operation that is carried out leaves a coherent session. -/
theorem Coherent.perform (coherent : session.Coherent) {operation : Operation}
    (performed : session.perform buffer operation = .ok (next, after)) : next.Coherent := by
  cases operation with
  | begin =>
      simp only [Session.perform] at performed
      split at performed
      · rename_i begun
        rcases Prod.mk.inj (Except.ok.inj performed) with ⟨rfl, rfl⟩
        exact coherent.begin begun
      · rcases Prod.mk.inj (Except.ok.inj performed) with ⟨rfl, rfl⟩
        exact coherent
  | line line =>
      rcases bind_eq_ok.mp performed with ⟨turn, applied, last⟩
      rcases Prod.mk.inj (Except.ok.inj last) with ⟨rfl, rfl⟩
      exact coherent.line applied
  | finish =>
      rcases Prod.mk.inj (Except.ok.inj performed) with ⟨rfl, rfl⟩
      exact coherent.finish buffer
  | take =>
      rcases Prod.mk.inj (Except.ok.inj performed) with ⟨rfl, rfl⟩
      cases coherent with
      | streaming draft streams state deaf =>
          exact .streaming draft (streams.congr rfl rfl rfl rfl) state deaf
      | reviewing draft tracks state listens busy =>
          exact .reviewing draft (tracks.congr rfl rfl) state listens busy
      | idle tracks state deaf => exact .idle (tracks.congr rfl rfl) state deaf
  | resolve id accept =>
      rcases bind_eq_ok.mp performed with ⟨turn, resolved, last⟩
      rcases Prod.mk.inj (Except.ok.inj last) with ⟨rfl, rfl⟩
      exact coherent.resolve resolved
  | clear accept =>
      rcases bind_eq_ok.mp performed with ⟨turn, cleared, last⟩
      rcases Prod.mk.inj (Except.ok.inj last) with ⟨rfl, rfl⟩
      exact coherent.clear cleared
  | discard =>
      rcases Prod.mk.inj (Except.ok.inj performed) with ⟨rfl, rfl⟩
      exact discard_coherent session
  | edit line delta =>
      rcases bind_eq_ok.mp performed with ⟨turn, applied, last⟩
      rcases Prod.mk.inj (Except.ok.inj last) with ⟨rfl, rfl⟩
      exact coherent.edit applied

theorem Coherent.fire (coherent : session.Coherent) :
    Coherent { session with cancelled := true } := by
  cases coherent with
  | streaming draft streams state deaf =>
      exact .streaming draft (streams.congr rfl rfl rfl rfl) state deaf
  | reviewing draft tracks state listens busy =>
      exact .reviewing draft (tracks.congr rfl rfl) state listens busy
  | idle tracks state deaf => exact .idle (tracks.congr rfl rfl) state deaf

theorem Reachable.coherent (reachable : Reachable session buffer) : session.Coherent := by
  induction reachable with
  | start started => exact start_coherent started
  | step _ performed ih => exact ih.perform performed
  | host other _ ih => exact ih
  | fire _ ih => exact ih.fire

end Session

end Redline
