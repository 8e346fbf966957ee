import Redline.Proofs.Reachability

namespace Redline

/-- An error comes with the session and the buffer as they were, and without an event. -/
def Turn.Atomic {α : Type} (turn : Turn α) (session : Session) (buffer : Buffer) : Prop :=
  ∀ error, turn.outcome = .error error → turn = session.refuse buffer error

namespace Session

variable {session : Session} {draft : List Passage} {buffer : Buffer} {α : Type}

theorem refuse_atomic (error : SessionError) :
    (session.refuse buffer error : Turn α).Atomic session buffer := by
  intro other same
  rw [← Except.error.inj same]

theorem ok_atomic {turn : Turn α} {answer : α} (outcome : turn.outcome = .ok answer) :
    turn.Atomic session buffer := by
  intro error same
  rw [outcome] at same
  simp at same

theorem Coherent.line_atomic (coherent : session.Coherent) {line : DiffLine} {turn : Turn Unit}
    (applied : session.applyLine buffer line = .ok turn) : turn.Atomic session buffer := by
  cases coherent.takes applied with
  | refused error => exact refuse_atomic error
  | recorded => exact ok_atomic rfl

theorem Coherent.resolve_atomic (coherent : session.Coherent) (id : BlockId) (accept : Bool) :
    ∃ turn, session.resolve buffer id accept = .ok turn ∧ turn.Atomic session buffer := by
  rcases coherent.resolves buffer id accept with ⟨turn, resolved, decides⟩
  refine ⟨turn, resolved, ?_⟩
  cases decides with
  | refused error => exact refuse_atomic error
  | settled => exact ok_atomic rfl

theorem Coherent.clear_atomic (coherent : session.Coherent) (accept : Bool) :
    ∃ turn, session.clear buffer accept = .ok turn ∧ turn.Atomic session buffer := by
  rcases coherent.tracks with ⟨draft, tracks⟩
  cases accept with
  | true => exact ⟨_, clear_accept session buffer, ok_atomic rfl⟩
  | false =>
      rcases tracks.clear_reject buffer with ⟨error, refused⟩ | closed
      · exact ⟨_, refused, refuse_atomic error⟩
      · exact ⟨_, closed, ok_atomic rfl⟩

theorem rejectAll_cons {restored : Turn Unit} {block : Block}
    (restores : session.restore buffer block = .ok restored) (outcome : restored.outcome = .ok ())
    (blocks : List Block) : session.rejectAll buffer (block :: blocks) =
      restored.session.rejectAll restored.buffer blocks := by
  rw [rejectAll, restores, ok_bind, outcome]

theorem clear_of_rejected {rejected : Turn Unit}
    (rejects : session.rejectAll buffer session.registry.blocks.reverse = .ok rejected)
    (outcome : rejected.outcome = .ok ()) : session.clear buffer false =
      .ok ⟨(rejected.session.close rejected.buffer).1, rejected.buffer,
        (rejected.session.close rejected.buffer).2, .ok ()⟩ := by
  rw [Session.clear]
  simp only [Bool.false_eq_true, if_false, rejects, ok_bind, outcome]
  rfl

/-- Rejecting all blocks stands or falls with the last of them, which is the first to be tried. -/
def AllOrNothing (session : Session) (buffer : Buffer) : Prop :=
  ∀ above last, session.registry.blocks = above ++ [last] →
    (∃ error, session.restore buffer last = .ok (session.refuse buffer error) ∧
      session.clear buffer false = .ok (session.refuse buffer error)) ∨
    ∃ restored rejected closed, session.restore buffer last = .ok restored ∧
      restored.outcome = .ok () ∧
      restored.session.rejectAll restored.buffer above.reverse = .ok rejected ∧
      rejected.outcome = .ok () ∧
      session.clear buffer false = .ok closed ∧ closed.outcome = .ok () ∧
      closed.buffer = rejected.buffer ∧ closed.session.state = .idle

theorem Tracks.all_or_nothing (tracks : session.Tracks draft) (buffer : Buffer) :
    session.AllOrNothing buffer := by
  intro above last blocks
  rcases Draft.plain_or_last draft with plain | ⟨front, id, removed, added, tail, rfl, plain⟩
  · rw [tracks.blocks, Draft.blocks_plain plain] at blocks
    simp at blocks
  · have divided : above = Draft.blocks 0 front ∧
        last = ⟨id, Draft.size front, removed.length, added.length⟩ := by
      rw [tracks.blocks, Draft.blocks_append, Draft.blocks, Draft.blocks_plain plain,
        Nat.zero_add] at blocks
      rcases List.append_inj' blocks.symm rfl with ⟨same, ends⟩
      exact ⟨same, List.singleton_inj.mp ends⟩
    have reversed : session.registry.blocks.reverse = last :: above.reverse := by
      rw [blocks, List.reverse_append]
      rfl
    rcases divided with ⟨rfl, rfl⟩
    -- A buffer that has the lines of the last block has those of all blocks above it.
    by_cases room : (Draft.lines front).length + added.length ≤ buffer.lineCount
    · obtain ⟨texts, width⟩ : ∃ texts : List String, texts.length =
          removed.length + added.length - min added.length countLimit :=
        ⟨List.replicate _ "", List.length_replicate⟩
      have restored := tracks.restore room width
      have narrow : texts.length ≤ removed.length + added.length := by omega
      have short : (buffer.lines.take (Draft.lines front).length).length =
          (Draft.lines front).length := by
        rw [List.length_take]
        unfold Buffer.lineCount at room
        omega
      obtain ⟨next, rejected, _⟩ := @Tracks.rejectAll _ front _ (tracks.settled narrow)
        (by simp [plain]) ⟨buffer.lines.take (Draft.lines front).length ++
          (removed ++ buffer.lines.drop ((Draft.lines front).length + added.length))⟩
        (by simp [Buffer.lineCount, short])
      have whole := rejectAll_cons restored rfl (Draft.blocks 0 front).reverse
      rw [← reversed, rejected] at whole
      exact .inr ⟨_, _, _, restored, rfl, rejected, rfl, clear_of_rejected whole rfl, rfl, rfl, rfl⟩
    · exact .inl ⟨_, tracks.restore_refused room, tracks.clear_refused plain room⟩

theorem Reachable.errors_leave_no_trace (reachable : Reachable session buffer) :
    (∀ error, session.beginRun = .error error →
      session.perform buffer .begin = .ok (session, buffer)) ∧
    (∀ line turn, session.applyLine buffer line = .ok turn → turn.Atomic session buffer) ∧
    (∀ id accept, ∃ turn, session.resolve buffer id accept = .ok turn ∧
      turn.Atomic session buffer) ∧
    (∀ accept, ∃ turn, session.clear buffer accept = .ok turn ∧ turn.Atomic session buffer) ∧
    session.AllOrNothing buffer := by
  have coherent := reachable.coherent
  refine ⟨?_, fun _ _ => coherent.line_atomic, fun id accept => coherent.resolve_atomic id accept,
    fun accept => coherent.clear_atomic accept, ?_⟩
  · intro error refused
    simp only [perform, refused]
  · rcases coherent.tracks with ⟨draft, tracks⟩
    exact tracks.all_or_nothing buffer

/-- The host took the last line away behind the session's back. The block above could still be
rejected, but the last one cannot, so that rejecting them all leaves both as they are. -/
theorem twoChanges_leave_no_trace :
    Reachable twoChanges ⟨["x", "a"]⟩ ∧ twoChanges.AllOrNothing ⟨["x", "a"]⟩ ∧
      (∃ restored, twoChanges.restore ⟨["x", "a"]⟩ ⟨⟨⟨1⟩, 0⟩, 0, 0, 1⟩ = .ok restored ∧
        restored.outcome = .ok () ∧ restored.buffer = ⟨["a"]⟩) ∧
      twoChanges.clear ⟨["x", "a"]⟩ false =
        .ok (twoChanges.refuse ⟨["x", "a"]⟩ (.streamDesync 3 2)) := by
  have reachable : Reachable twoChanges ⟨["x", "a"]⟩ := twoChanges_reachable.host ⟨["x", "a"]⟩
  rcases reachable.errors_leave_no_trace with ⟨_, _, _, _, whole⟩
  have misfit : twoChanges.restore ⟨["x", "a"]⟩ ⟨⟨⟨1⟩, 1⟩, 2, 1, 1⟩ =
      .ok (twoChanges.refuse ⟨["x", "a"]⟩ (.streamDesync 3 2)) := rfl
  refine ⟨reachable, whole, ⟨_, rfl, rfl, rfl⟩, ?_⟩
  rcases whole [⟨⟨⟨1⟩, 0⟩, 0, 0, 1⟩] ⟨⟨⟨1⟩, 1⟩, 2, 1, 1⟩ rfl with
    ⟨error, refused, cleared⟩ | ⟨restored, _, _, succeeds, outcome, _⟩
  · rw [misfit] at refused
    rw [cleared, ← Except.ok.inj refused]
  · rw [misfit] at succeeds
    rw [← Except.ok.inj succeeds] at outcome
    cases outcome

end Session

end Redline
