import Redline.Proofs.Superseding

namespace Redline

namespace Manager

variable {manager later : Manager} {opened : Opened} {id : BufferId} {stream : StreamId}
  {events : List Event} {accept : Bool}

/-- Every session off the table has closed and fired its token. -/
def Tidy (manager : Manager) : Prop :=
  ∀ stream opened, manager.sessions.get? stream = some opened →
    manager.current.get? opened.session.bufferId ≠ some stream →
    opened.session.state = .idle ∧ opened.session.cancelled = true

theorem Turns.tidy {next : Session} {after : Buffer}
    (turns : manager.Turns opened next after events later) (consistent : manager.Consistent)
    (tidy : manager.Tidy) : later.Tidy := by
  have orderly := (consistent.filed turns.found).2.2
  have reports := turns.acts.reports orderly.coherent
  intro stream other found absent
  rw [turns.current] at absent
  rw [turns.sessions] at found
  by_cases own : stream = opened.session.stream
  · rw [if_pos own] at found
    rw [← Option.some.inj found] at absent ⊢
    simp only [reports.bufferId, own] at absent ⊢
    have idle : next.state = .idle := by
      split at absent
      · rename_i left
        exact left.1
      · exact (reports.inert (tidy _ opened turns.found absent).1).1
    exact ⟨idle, (orderly.acts turns.acts).fired idle⟩
  · rw [if_neg own] at found
    refine tidy stream other found fun current => absent ?_
    rw [if_neg, current]
    rintro ⟨_, _, shared⟩
    rw [current] at shared
    exact own (Option.some.inj shared)

theorem Opens.tidy {range : LineRange} {fresh : Opened}
    (opens : manager.Opens id range fresh later) (tidy : manager.Tidy) : later.Tidy := by
  have opening := Session.start_opening opens.opened
  intro stream opened found absent
  rw [opens.sessions] at found
  rw [opens.current] at absent
  split at found
  · rename_i new
    rw [← Option.some.inj found, if_pos opening.bufferId, new] at absent
    exact absurd rfl absent
  · split at found
    · rcases Option.map_eq_some_iff.mp found with ⟨old, _, rfl⟩
      exact ⟨rfl, rfl⟩
    · rename_i foreign
      refine tidy stream opened found fun current => ?_
      by_cases own : opened.session.bufferId = id
      · rw [own] at current
        exact foreign current
      · rw [if_neg own] at absent
        exact absent current

theorem Consistent.clear_answers (consistent : manager.Consistent)
    (known : manager.opened? id = some opened) (accept : Bool) :
    ∃ reply, manager.clear id accept = .ok reply := by
  rcases consistent.on_table known with ⟨_, found, _, _⟩
  rcases (consistent.filed found).2.2.coherent.clear_atomic accept with ⟨turn, turned, _⟩
  have operated : manager.operate opened (fun session buffer => session.clear buffer accept) =
      .ok _ := operate_eq_ok.mpr ⟨turn, turned, rfl⟩
  rw [Manager.clear, known]
  simp only [operated, ok_bind]
  exact ⟨_, rfl⟩

/-- What becomes of a session that a clear takes off the table: it has closed and fired its
token, or, having refused to be rejected, it is left as it is, still at work. -/
inductive Clears (manager : Manager) (opened : Opened) (later : Manager) :
    Bool → List Event → Answer → Prop where
  | retired {accept : Bool} {events : List Event} :
      later.Retired opened.session.stream opened.session.applied →
      later.hasFired opened.session.stream = true →
      Clears manager opened later accept events .nothing
  | stranded {error : SessionError} : opened.session.state ≠ .idle →
      later.sessions.get? opened.session.stream = some opened →
      (∀ name, later.document name = manager.document name) →
      Clears manager opened later false [] (.refused error)

theorem Consistent.clears (consistent : manager.Consistent)
    (known : manager.opened? id = some opened) (accept : Bool) :
    ∃ later events answer, manager.serve (.clear id accept) = .ok (later, events, answer) ∧
      later.current.get? id = none ∧ manager.Clears opened later accept events answer := by
  rcases consistent.on_table known with ⟨current, found, owner, live⟩
  rcases consistent.clear_answers known accept with ⟨reply, cleared⟩
  have serves : manager.serve (.clear id accept) =
      .ok (answered reply fun _ => .nothing) := by
    simp only [Manager.serve, cleared, ok_bind]
    rfl
  refine ⟨reply.manager, reply.events, _, serves, ?_⟩
  rcases consistent.clear known cleared with
    ⟨after, turns, outcome⟩ | ⟨rfl, error, _, strands, silent, outcome⟩
  · have closed := turns.sessions opened.session.stream
    rw [if_pos rfl] at closed
    rw [outcome]
    refine ⟨?_, .retired ⟨_, closed, rfl, rfl⟩ ?_⟩
    · rw [turns.current, if_pos ⟨rfl, owner.symm, current⟩]
    · rw [hasFired, closed]
      rfl
  · rw [outcome, silent]
    refine ⟨?_, .stranded live ?_ strands.document⟩
    · rw [strands.current, if_pos rfl]
    · rw [strands.sessions, found]

end Manager

namespace Traffic

variable {traffic later : Traffic} {action : Action}

def Strands (traffic : Traffic) (action : Action) : Prop :=
  ∃ id accept opened manager events error, action = .request (.clear id accept) ∧
    traffic.manager.opened? id = some opened ∧
    traffic.manager.serve (.clear id accept) = .ok (manager, events, .refused error)

theorem Consistent.tidy (consistent : traffic.Consistent) (tidy : traffic.manager.Tidy)
    (performed : traffic.perform action = .ok later) :
    later.manager.Tidy ↔ ¬traffic.Strands action := by
  constructor
  · -- A refused clear leaves a session at work that no entry leads to.
    rintro still ⟨id, accept, opened, manager, events, error, rfl, known, served⟩
    rcases consistent.manager.clears known accept with ⟨other, told, answer, same, gone, ends⟩
    rw [served] at same
    cases same
    rw [perform_request served] at performed
    cases performed
    cases ends with
    | stranded live found _ =>
        have owner := (consistent.manager.on_table known).2.2.1
        have absent : manager.current.get? opened.session.bufferId ≠
            some opened.session.stream := by
          rw [owner, gone]
          simp
        exact live (still _ opened found absent).1
  · intro harmless
    rcases consistent.effect performed with ⟨events, _, effect⟩
    generalize asked : action.request? = request at effect
    generalize later.manager = next at effect ⊢
    cases effect with
    | changes changes =>
        exact changes.invariant (fun consistent _ turns => turns.tidy consistent)
          consistent.manager [] tidy
    | host buffer _ => exact tidy
    | opens _ opens => exact opens.tidy tidy
    | strands known _ served _ =>
        cases action with
        | request request =>
            rw [Option.some.inj asked] at harmless
            exact absurd ⟨_, _, _, _, _, _, rfl, known, served⟩ harmless
        | launch handle => cases asked
        | move index move => cases asked

def Unstranded (traffic : Traffic) : Prop :=
  Reaches (fun traffic action => ¬traffic.Strands action) traffic

theorem Unstranded.tidy (unstranded : traffic.Unstranded) : traffic.manager.Tidy := by
  induction unstranded with
  | start settings documents =>
      intro stream opened found
      simp [ofDocuments, Manager.ofDocuments] at found
  | step reached harmless performed ih =>
      exact (reached.consistent.tidy ih performed).mpr harmless

/-- Accepting everything is never refused, so that only a clear that rejects can strand. -/
theorem Consistent.strands_rejects (consistent : traffic.Consistent)
    (strands : traffic.Strands action) : ∃ id, action = .request (.clear id false) := by
  rcases strands with ⟨id, accept, opened, manager, events, error, rfl, known, served⟩
  rcases consistent.manager.clears known accept with ⟨other, told, answer, same, _, ends⟩
  rw [served] at same
  cases same
  cases ends
  exact ⟨id, rfl⟩

theorem Unstranded.run {actions : List Action} (unstranded : traffic.Unstranded)
    (performed : traffic.performAll actions = .ok later)
    (harmless : ∀ id, .request (.clear id false) ∉ actions) : later.Unstranded := by
  induction actions generalizing traffic with
  | nil =>
      rw [← Except.ok.inj performed]
      exact unstranded
  | cons action rest ih =>
      rcases bind_eq_ok.mp performed with ⟨next, first, others⟩
      refine ih (.step unstranded ?_ first) others fun id later =>
        harmless id (List.mem_cons_of_mem _ later)
      intro strands
      rcases unstranded.consistent.strands_rejects strands with ⟨id, rfl⟩
      exact harmless id List.mem_cons_self

theorem Consistent.inert_of_tidy (consistent : traffic.Consistent)
    (counts : traffic.manager.Counts traffic.log) (tidy : traffic.manager.Tidy) {index : Nat}
    {run : Run} (found : traffic.runs[index]? = some run) (underway : run.isOver = false)
    (absent : traffic.manager.current.get? run.handle.buffer ≠ some run.handle.stream) :
    traffic.Inert index (streamed run.handle.stream traffic.log) := by
  rcases consistent.attached run (List.mem_of_getElem? found) underway with ⟨opened, held, owner⟩
  rw [← owner] at absent
  have counted : opened.session.applied = streamed run.handle.stream traffic.log := by
    rw [counts, held]
    rfl
  exact (consistent.dormant found underway
    ⟨opened, held, (tidy _ opened held absent).1, counted⟩).inert

/-- A clear that finds a session retires it or strands it. As long as none is stranded, every
session off the table has closed and fired its token, and the runs of such sessions are inert. -/
theorem clear_retires_or_strands (reachable : traffic.Reachable) :
    (∀ id opened accept, traffic.manager.opened? id = some opened →
      ∃ later events answer,
        traffic.manager.serve (.clear id accept) = .ok (later, events, answer) ∧
        later.current.get? id = none ∧
        traffic.manager.Clears opened later accept events answer) ∧
    (traffic.Unstranded → traffic.manager.Tidy ∧
      ∀ index run, traffic.runs[index]? = some run → run.isOver = false →
        traffic.manager.current.get? run.handle.buffer ≠ some run.handle.stream →
        traffic.Inert index (streamed run.handle.stream traffic.log)) := by
  have consistent := reachable.consistent
  refine ⟨fun id opened accept known => consistent.manager.clears known accept,
    fun unstranded => ?_⟩
  exact ⟨unstranded.tidy, fun index run found underway absent =>
    consistent.inert_of_tidy reachable.counts unstranded.tidy found underway absent⟩

def oneEmptied : Traffic := { oneAdded with manager := oneAdded.manager.setDocument "d" ⟨[]⟩ }

theorem oneEmptied_unstranded : oneEmptied.Unstranded := by
  have blank : (ofDocuments .standard ⟨[("d", ⟨["a"]⟩)]⟩).Unstranded := .start _ _
  refine @Unstranded.run _ _ [.request (.start ⟨"t"⟩ "d" ⟨0, 0⟩), .launch ⟨⟨"t"⟩, ⟨1⟩⟩,
    .move 0 .check, .move 0 (.receive (.line ⟨.added, "x"⟩)), .request (.hostDelete "d" 0 2)]
    blank ?_ (by simp)
  cbv

/-- The session is accepted as it is, and its run, which has not answered yet, is left inert. -/
theorem oneEmptied_clears : ∃ later,
    oneEmptied.perform (.request (.clear ⟨"t"⟩ true)) = .ok later ∧
      later.manager.current.get? ⟨"t"⟩ = none ∧ later.manager.hasFired ⟨1⟩ = true ∧
      later.Unstranded ∧ later.manager.Tidy ∧
      later.runs[0]? = some ⟨⟨⟨"t"⟩, ⟨1⟩⟩, [], .ready⟩ ∧
      later.Inert 0 (streamed ⟨1⟩ later.log) := by
  have emptied : oneEmptied.Reachable := oneEmptied_unstranded.mono fun _ _ _ => trivial
  rcases (clear_retires_or_strands emptied).1 ⟨"t"⟩ _ true rfl with
    ⟨manager, events, answer, served, gone, ends⟩
  have fired : manager.hasFired ⟨1⟩ = true := by
    cases ends
    assumption
  have performed := perform_request served
  have unstranded := @Unstranded.run _ _ [.request (.clear ⟨"t"⟩ true)] oneEmptied_unstranded
    (bind_eq_ok.mpr ⟨_, performed, rfl⟩) (by simp)
  have reachable : Reachable _ := unstranded.mono fun _ _ _ => trivial
  rcases (clear_retires_or_strands reachable).2 unstranded with ⟨tidy, inert⟩
  have absent : manager.current.get? ⟨"t"⟩ ≠ some ⟨1⟩ := by
    rw [gone]
    simp
  exact ⟨_, performed, gone, fired, unstranded, tidy, rfl, inert 0 _ rfl rfl absent⟩

/-- A block that no longer fits the document cannot be rejected. The session is off the table
then, but it is still streaming, and when the host has put a line back, its run goes on to change
the document and to tell about it. -/
theorem oneEmptied_strands : ∃ stranded,
    oneEmptied.manager.serve (.clear ⟨"t"⟩ false) =
        .ok (stranded.manager, [], .refused (.streamDesync 1 0)) ∧
      oneEmptied.perform (.request (.clear ⟨"t"⟩ false)) = .ok stranded ∧
      stranded.manager.opened? ⟨"t"⟩ = none ∧
      (stranded.manager.sessions.get? ⟨1⟩).map (fun opened => opened.session.state) =
        some .streaming ∧
      stranded.manager.hasFired ⟨1⟩ = false ∧
      ((stranded.performAll [.request (.hostInsert "d" 0 ["b"]), .move 0 .check,
          .move 0 (.receive (.line ⟨.added, "y"⟩))]).map fun later =>
        (later.manager.document "d", later.log.length - stranded.log.length)) =
          .ok (⟨["b", "y"]⟩, 2) := by
  refine ⟨{ oneEmptied with manager := { oneEmptied.manager with current := .empty } }, ?_⟩
  refine ⟨by cbv, by cbv, rfl, rfl, rfl, ?_⟩
  cbv

end Traffic

end Redline
