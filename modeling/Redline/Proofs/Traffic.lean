import Redline.Manager.Run
import Redline.Proofs.Managing

namespace Redline

namespace Run

/-- What a run does between two of its suspension points. -/
inductive Move where
  | check
  | interrupt
  | receive (supply : Supply)
  | wake
  deriving DecidableEq, Repr

def move (manager : Manager) (run : Run) : Move → Except Fault Progress
  | .check => run.check manager
  | .interrupt => run.interrupt manager
  | .receive supply => run.receive manager supply
  | .wake => .ok ⟨manager, run.wake, []⟩

end Run

/-- A manager at work, the runs it was asked for, and all it has told its observers. -/
structure Traffic where
  manager : Manager
  runs : List Run
  log : List Event
  deriving DecidableEq, Repr

inductive Action where
  | request (request : Request)
  | launch (handle : Handle)
  | move (index : Nat) (move : Run.Move)
  deriving DecidableEq, Repr

def Action.request? : Action → Option Request
  | .request asked => some asked
  | _ => none

namespace Traffic

def ofDocuments (settings : DiffSettings) (documents : Table String Buffer) : Traffic :=
  ⟨.ofDocuments settings documents, [], []⟩

def perform (traffic : Traffic) : Action → Except Fault Traffic
  | .request request => do
      let (manager, events, _) ← traffic.manager.serve request
      return { traffic with manager, log := traffic.log ++ events }
  | .launch handle =>
      let (manager, run) := Run.start traffic.manager handle
      .ok { traffic with manager, runs := traffic.runs ++ [run] }
  | .move index move =>
      match traffic.runs[index]? with
      | none => .ok traffic
      | some run => do
          let progress ← run.move traffic.manager move
          return ⟨progress.manager, traffic.runs.set index progress.run,
            traffic.log ++ progress.events⟩

theorem perform_request {traffic : Traffic} {request : Request} {manager : Manager}
    {events : List Event} {answer : Answer}
    (served : traffic.manager.serve request = .ok (manager, events, answer)) :
    traffic.perform (.request request) =
      .ok ⟨manager, traffic.runs, traffic.log ++ events⟩ := by
  simp only [perform, served, ok_bind]
  rfl

def performAll (traffic : Traffic) : List Action → Except Fault Traffic
  | [] => .ok traffic
  | action :: rest => do
      let next ← traffic.perform action
      next.performAll rest

/-- What a manager comes to if no action is performed that is not allowed. -/
inductive Reaches (allowed : Traffic → Action → Prop) : Traffic → Prop where
  | start (settings : DiffSettings) (documents : Table String Buffer) :
      Reaches allowed (ofDocuments settings documents)
  | step {traffic later : Traffic} {action : Action} : Reaches allowed traffic →
      allowed traffic action → traffic.perform action = .ok later → Reaches allowed later

def Reachable (traffic : Traffic) : Prop := Reaches (fun _ _ => True) traffic

theorem Reachable.run {traffic later : Traffic} {actions : List Action}
    (reachable : traffic.Reachable) (performed : traffic.performAll actions = .ok later) :
    later.Reachable := by
  induction actions generalizing traffic with
  | nil =>
      rw [← Except.ok.inj performed]
      exact reachable
  | cons action rest ih =>
      rcases bind_eq_ok.mp performed with ⟨next, first, later⟩
      exact ih (.step reachable trivial first) later

end Traffic

/-! ## Runs and their sessions -/

namespace Manager

variable {manager later : Manager} {events : List Event} {stream : StreamId} {opened : Opened}
  {target : Option StreamId}

def Keeps (manager later : Manager) : Prop :=
  ∀ {stream opened}, manager.sessions.get? stream = some opened →
    ∃ next, later.sessions.get? stream = some next ∧
      next.session.bufferId = opened.session.bufferId ∧ next.document = opened.document

theorem Turns.keeps {next : Session} {after : Buffer}
    (turns : manager.Turns opened next after events later) (consistent : manager.Consistent) :
    manager.Keeps later := by
  intro stream other found
  rw [turns.sessions]
  by_cases own : stream = opened.session.stream
  · subst own
    have same : opened = other := Option.some.inj (turns.found.symm.trans found)
    subst same
    have reports := turns.acts.reports (consistent.filed found).2.2.coherent
    exact ⟨_, if_pos rfl, reports.bufferId, rfl⟩
  · exact ⟨other, by rw [if_neg own, found], rfl, rfl⟩

theorem Keeps.trans {middle : Manager} (first : manager.Keeps middle)
    (second : middle.Keeps later) : manager.Keeps later := by
  intro stream opened found
  rcases first found with ⟨next, known, owner, document⟩
  rcases second known with ⟨last, final, still, same⟩
  exact ⟨last, final, still.trans owner, same.trans document⟩

theorem Changes.keeps (changes : Changes target manager events later)
    (consistent : manager.Consistent) : manager.Keeps later :=
  @Changes.invariant _ _ _ _ (fun middle _ => manager.Keeps middle)
    (fun consistent _ turns keeps => keeps.trans (turns.keeps consistent)) changes consistent []
    fun found => ⟨_, found, rfl, rfl⟩

theorem Effect.keeps {request : Option Request}
    (effect : manager.Effect target request events later) (consistent : manager.Consistent) :
    manager.Keeps later := by
  cases effect with
  | changes changes => exact changes.keeps consistent
  | host buffer _ => exact fun found => ⟨_, found, rfl, rfl⟩
  | opens _ opens =>
      intro stream opened found
      rw [opens.sessions, if_neg (consistent.known found)]
      split
      · rw [found]
        exact ⟨_, rfl, rfl, rfl⟩
      · exact ⟨opened, found, rfl, rfl⟩
  | strands _ _ _ strands =>
      intro stream opened found
      exact ⟨opened, by rw [strands.sessions, found], rfl, rfl⟩

end Manager

namespace Run

variable {manager later : Manager} {run : Run} {opened : Opened} {progress : Progress}
  {events : List Event}

def Attached (manager : Manager) (run : Run) : Prop :=
  ∃ opened, manager.sessions.get? run.handle.stream = some opened ∧
    opened.session.bufferId = run.handle.buffer

theorem Attached.keeps (attached : run.Attached manager) (keeps : manager.Keeps later) :
    run.Attached later := by
  rcases attached with ⟨opened, found, owner⟩
  rcases keeps found with ⟨next, known, still, _⟩
  exact ⟨next, known, still.trans owner⟩

theorem reject_changes (consistent : manager.Consistent)
    (found : manager.sessions.get? opened.session.stream = some opened)
    (owner : run.handle = ⟨opened.session.bufferId, opened.session.stream⟩)
    (live : opened.session.state ≠ .idle) {applied : Nat}
    (rejected : reject manager opened run applied = .ok progress) :
    manager.Changes (some run.handle.stream) progress.events progress.manager ∧
      progress.run.handle = run.handle := by
  rcases bind_eq_ok.mp rejected with ⟨operated, taken, last⟩
  rcases Manager.operate_eq_ok.mp taken with ⟨turn, turned, rfl⟩
  have coherent := (consistent.filed found).2.2.coherent
  have notes := Manager.notes_setDocument manager opened turn.session turn.buffer
  rcases coherent.clear_or_refuse turned with ⟨after, rfl⟩ | ⟨_, error, rfl⟩
  · rw [← Except.ok.inj last, owner]
    exact ⟨.one rfl (notes.leaves consistent found (.clear live turned) rfl), rfl⟩
  · rw [← Except.ok.inj last, owner]
    exact ⟨.one rfl (notes.stays consistent found (.clear live turned) id), rfl⟩

def finished (manager : Manager) (run : Run) (opened : Opened) : Manager :=
  let session := opened.session.ended (manager.document opened.document)
  let noted := manager.setSession { opened with session }
  if session.state = .idle then noted.removeIfCurrent run.handle else noted

theorem finished_turns (consistent : manager.Consistent)
    (found : manager.sessions.get? opened.session.stream = some opened)
    (owner : run.handle = ⟨opened.session.bufferId, opened.session.stream⟩) :
    manager.Turns opened (opened.session.ended (manager.document opened.document))
      (manager.document opened.document)
      (opened.session.finish (manager.document opened.document)).2
      (finished manager run opened) := by
  have notes := Manager.notes_setSession manager opened
    (opened.session.ended (manager.document opened.document))
  rw [finished]
  split
  · rename_i idle
    rw [owner]
    exact notes.leaves consistent found .finish idle
  · rename_i live
    exact notes.stays consistent found .finish fun idle => absurd idle live

theorem conclude_eq (found : manager.sessions.get? run.handle.stream = some opened)
    (why : RunEnd) : conclude manager run why =
      let session := opened.session.ended (manager.document opened.document)
      let events := (opened.session.finish (manager.document opened.document)).2
      let later := finished manager run opened
      match why with
      | .exhausted => .ok ⟨later, ended run.handle
          (.completed (opened.session.finish (manager.document opened.document)).1.committed),
          events⟩
      | .failed error => .ok ⟨later, ended run.handle (.failed error), events⟩
      | .cancelled =>
          if later.settings.rejectOnCancel ∧ session.state ≠ .idle then do
            let progress ← reject later { opened with session } run session.applied
            return { progress with events := events ++ progress.events }
          else .ok ⟨later, ended run.handle (.cancelled session.applied), events⟩ := by
  rw [conclude, found]
  rfl

theorem conclude_changes (consistent : manager.Consistent) (attached : run.Attached manager)
    {why : RunEnd} (concluded : conclude manager run why = .ok progress) :
    manager.Changes (some run.handle.stream) progress.events progress.manager ∧
      progress.run.handle = run.handle := by
  rcases attached with ⟨opened, found, owner⟩
  have stream := (consistent.filed found).1
  have handle : run.handle = ⟨opened.session.bufferId, opened.session.stream⟩ := by
    rw [owner, stream]
  rw [conclude_eq found] at concluded
  rw [← stream] at found
  have turns := finished_turns consistent found handle
  have first : manager.Changes (some run.handle.stream)
      (opened.session.finish (manager.document opened.document)).2 (finished manager run opened) :=
    .one (congrArg some stream.symm) turns
  cases why with
  | exhausted =>
      rw [← Except.ok.inj concluded]
      exact ⟨first, rfl⟩
  | failed error =>
      rw [← Except.ok.inj concluded]
      exact ⟨first, rfl⟩
  | cancelled =>
      simp only at concluded
      split at concluded
      · rename_i rejects
        rcases bind_eq_ok.mp concluded with ⟨rejected, rejection, last⟩
        have kin := turns.acts.reports (consistent.filed found).2.2.coherent
        have known := turns.sessions opened.session.stream
        rw [if_pos rfl, ← kin.stream] at known
        rw [← kin.stream, ← kin.bufferId] at handle
        rcases reject_changes (turns.consistent consistent) known handle rejects.2 rejection with
          ⟨second, same⟩
        rw [← Except.ok.inj last]
        exact ⟨first.append second, same⟩
      · rw [← Except.ok.inj concluded]
        exact ⟨first, rfl⟩

theorem applyOne_changes (consistent : manager.Consistent) {line : DiffLine}
    {stop : Option RunEnd} (applied : applyOne manager run line = .ok (later, events, stop)) :
    manager.Changes (some run.handle.stream) events later := by
  rw [applyOne] at applied
  cases found : manager.sessions.get? run.handle.stream with
  | none =>
      rw [found] at applied
      cases applied
      exact .none manager
  | some opened =>
      rcases consistent.filed found with ⟨stream, _, orderly⟩
      rw [found] at applied
      rw [← stream] at found
      simp only at applied
      split at applied
      · rcases bind_eq_ok.mp applied with ⟨operated, taken, last⟩
        rcases Manager.operate_eq_ok.mp taken with ⟨turn, turned, rfl⟩
        have notes := Manager.notes_setDocument manager opened turn.session turn.buffer
        have still := orderly.coherent.line_state turned
        have turns := notes.stays consistent found (.line turned) fun idle => still ▸ idle
        simp only at last
        split at last
        · cases last
          exact .one (congrArg some stream.symm) turns
        · cases last
          exact .one (congrArg some stream.symm) turns
      · cases applied
        exact .none manager

theorem applyAll_changes (consistent : manager.Consistent) {lines : List DiffLine} {why : RunEnd}
    (applied : applyAll manager run lines = .ok (later, events, why)) :
    manager.Changes (some run.handle.stream) events later := by
  induction lines generalizing manager events with
  | nil =>
      cases applied
      exact .none _
  | cons line rest ih =>
      rcases bind_eq_ok.mp applied with ⟨⟨middle, told, stop⟩, first, last⟩
      have changes := applyOne_changes consistent first
      cases stop with
      | some why =>
          cases last
          exact changes
      | none =>
          rcases bind_eq_ok.mp last with ⟨⟨final, more, why⟩, others, last⟩
          cases last
          exact changes.append (ih (changes.consistent consistent) others)

theorem concludeAfter_changes (consistent : manager.Consistent) (attached : run.Attached manager)
    (changes : manager.Changes (some run.handle.stream) events later) {why : RunEnd}
    (concluded : concludeAfter events later run why = .ok progress) :
    manager.Changes (some run.handle.stream) progress.events progress.manager ∧
      progress.run.handle = run.handle := by
  rcases bind_eq_ok.mp concluded with ⟨last, first, same⟩
  rcases conclude_changes (changes.consistent consistent)
    (attached.keeps (changes.keeps consistent)) first with ⟨rest, handle⟩
  rw [← Except.ok.inj same]
  exact ⟨changes.append rest, handle⟩

theorem move_over (halted : run.isOver = true) (manager : Manager) (move : Move) :
    run.move manager move = .ok ⟨manager, run, []⟩ := by
  rcases run with ⟨handle, queued, stage⟩
  cases stage with
  | ended outcome =>
      cases move with
      | receive supply => cases supply <;> rfl
      | _ => rfl
  | _ => simp [isOver] at halted

theorem receiveLine_changes (consistent : manager.Consistent) (attached : run.Attached manager)
    {line : DiffLine} (received : run.receiveLine manager line = .ok progress) :
    manager.Changes (some run.handle.stream) progress.events progress.manager ∧
      progress.run.handle = run.handle := by
  rw [receiveLine] at received
  split at received
  · cases received
    exact ⟨.none manager, rfl⟩
  · rcases bind_eq_ok.mp received with ⟨⟨later, events, stop⟩, applied, last⟩
    have changes := applyOne_changes consistent applied
    cases stop with
    | some why => exact concludeAfter_changes consistent attached changes last
    | none =>
        cases last
        exact ⟨changes, rfl⟩

/-- Whatever a run does, it is its session that acts. -/
theorem move_changes (consistent : manager.Consistent)
    (attached : run.isOver = false → run.Attached manager) {move : Move}
    (moved : run.move manager move = .ok progress) :
    manager.Changes (some run.handle.stream) progress.events progress.manager ∧
      progress.run.handle = run.handle := by
  have unmoved : (.ok ⟨manager, run, []⟩ : Except Fault Progress) = .ok progress →
      manager.Changes (some run.handle.stream) progress.events progress.manager ∧
      progress.run.handle = run.handle := by
    intro same
    rw [← Except.ok.inj same]
    exact ⟨.none manager, rfl⟩
  cases halted : run.isOver with
  | true => exact unmoved ((move_over halted manager move).symm.trans moved)
  | false =>
      have attached := attached halted
      cases move with
      | check =>
          rw [Run.move, check] at moved
          split at moved
          · split at moved
            · exact conclude_changes consistent attached moved
            · cases moved
              exact ⟨.none manager, rfl⟩
          · exact unmoved moved
      | interrupt =>
          rw [Run.move, interrupt, halted] at moved
          simp only [Bool.false_eq_true, if_false] at moved
          split at moved
          · exact conclude_changes consistent attached moved
          · exact unmoved moved
      | receive supply =>
          rw [Run.move] at moved
          unfold receive at moved
          split at moved
          · exact receiveLine_changes consistent attached moved
          · exact conclude_changes consistent attached moved
          · rcases bind_eq_ok.mp moved with ⟨⟨later, events, why⟩, applied, last⟩
            exact concludeAfter_changes consistent attached
              (applyAll_changes consistent applied) last
          · exact unmoved moved
      | wake =>
          cases moved
          refine ⟨.none manager, ?_⟩
          rw [wake]
          split <;> rfl

theorem start_changes (consistent : manager.Consistent) (handle : Handle) :
    manager.Changes ((manager.current.get? handle.buffer).filter (· = handle.stream)) []
        (Run.start manager handle).1 ∧
      ((Run.start manager handle).2.isOver = false →
        (Run.start manager handle).2.Attached (Run.start manager handle).1) := by
  have idle (error : SessionError) :
      manager.Changes ((manager.current.get? handle.buffer).filter (· = handle.stream)) []
        manager ∧
      ((ended handle (.failed error)).isOver = false →
        (ended handle (.failed error)).Attached manager) :=
    ⟨.none manager, fun under => Bool.noConfusion under⟩
  rw [Run.start]
  cases known : manager.opened? handle.buffer with
  | none => exact idle _
  | some opened =>
      rcases consistent.on_table known with ⟨current, found, owner, _⟩
      simp only
      split
      · rename_i own
        have meant : (manager.current.get? handle.buffer).filter (· = handle.stream) =
            some opened.session.stream := by
          simp [current, own]
        cases begun : opened.session.beginRun with
        | error error => exact idle _
        | ok session =>
            have acts : opened.session.Acts (manager.document opened.document) session
              (manager.document opened.document) [] := .begin begun
            have reports := acts.reports (consistent.filed found).2.2.coherent
            have turns := (Manager.notes_setSession manager opened session).stays consistent found
              acts fun idle => (Session.beginRun_state begun).symm.trans idle
            refine ⟨.one meant turns, fun _ => ?_⟩
            refine ⟨{ opened with session }, ?_, reports.bufferId.trans owner⟩
            rw [turns.sessions, if_pos own.symm]
      · exact idle _

end Run

namespace Traffic

variable {traffic later : Traffic} {action : Action}

/-- The invariant of a manager at work: every run that is not over has its session. -/
structure Consistent (traffic : Traffic) : Prop where
  manager : traffic.manager.Consistent
  attached : ∀ run ∈ traffic.runs, run.isOver = false → run.Attached traffic.manager

theorem ofDocuments_consistent (settings : DiffSettings) (documents : Table String Buffer) :
    (ofDocuments settings documents).Consistent where
  manager := Manager.ofDocuments_consistent settings documents
  attached run member := by simp [ofDocuments] at member

def target? (traffic : Traffic) : Action → Option StreamId
  | .request request => traffic.manager.target? request
  | .launch handle =>
      (traffic.manager.current.get? handle.buffer).filter (· = handle.stream)
  | .move index _ =>
      (traffic.runs[index]?).bind fun run => if run.isOver then none else some run.handle.stream

/-- What the manager does, whatever is asked of it. -/
theorem Consistent.effect (consistent : traffic.Consistent)
    (performed : traffic.perform action = .ok later) :
    ∃ events, later.log = traffic.log ++ events ∧
      traffic.manager.Effect (traffic.target? action) action.request? events later.manager := by
  cases action with
  | request request =>
      rcases bind_eq_ok.mp performed with ⟨⟨manager, events, answer⟩, served, last⟩
      cases last
      exact ⟨events, rfl, consistent.manager.serve served⟩
  | launch handle =>
      cases performed
      exact ⟨[], (List.append_nil _).symm,
        .changes (Run.start_changes consistent.manager handle).1⟩
  | move index move =>
      rw [perform] at performed
      cases found : traffic.runs[index]? with
      | none =>
          rw [found] at performed
          cases performed
          exact ⟨[], (List.append_nil _).symm, .changes (.none _)⟩
      | some run =>
          rw [found] at performed
          rcases bind_eq_ok.mp performed with ⟨progress, moved, last⟩
          have attached := consistent.attached run (List.mem_of_getElem? found)
          cases last
          refine ⟨progress.events, rfl, .changes ?_⟩
          rw [target?, found, Option.bind_some]
          split
          · rename_i halted
            rw [Run.move_over halted] at moved
            rw [← Except.ok.inj moved]
            exact .none _
          · exact (Run.move_changes consistent.manager attached moved).1

theorem Consistent.perform (consistent : traffic.Consistent)
    (performed : traffic.perform action = .ok later) : later.Consistent := by
  rcases consistent.effect performed with ⟨events, _, effect⟩
  refine ⟨effect.consistent consistent.manager, ?_⟩
  have known (run : Run) (member : run ∈ traffic.runs) (under : run.isOver = false) :
      run.Attached later.manager :=
    (consistent.attached run member under).keeps (effect.keeps consistent.manager)
  intro run member under
  cases action with
  | request request =>
      rcases bind_eq_ok.mp performed with ⟨⟨manager, events, answer⟩, served, last⟩
      cases last
      exact known run member under
  | launch handle =>
      cases performed
      rcases List.mem_append.mp member with old | new
      · exact known run old under
      · rw [List.mem_singleton.mp new] at under ⊢
        exact (Run.start_changes consistent.manager handle).2 under
  | move index move =>
      rw [Traffic.perform] at performed
      cases found : traffic.runs[index]? with
      | none =>
          rw [found] at performed
          cases performed
          exact known run member under
      | some old =>
          rw [found] at performed
          rcases bind_eq_ok.mp performed with ⟨progress, moved, last⟩
          have present := List.mem_of_getElem? found
          have handle :=
            (Run.move_changes consistent.manager (consistent.attached old present) moved).2
          cases last
          rcases List.mem_or_eq_of_mem_set member with other | own
          · exact known run other under
          · -- A halted run stays halted, so a run that is under way now was so before its move.
            have unfinished : old.isOver = false := by
              cases halted : old.isOver with
              | false => rfl
              | true =>
                  rw [Run.move_over halted] at moved
                  rw [own, ← Except.ok.inj moved, halted] at under
                  exact under
            have attached := known old present unfinished
            rw [Run.Attached, ← handle, ← own] at attached
            exact attached

theorem Reaches.mono {allowed permitted : Traffic → Action → Prop}
    (reaches : Reaches allowed traffic)
    (permits : ∀ traffic action, allowed traffic action → permitted traffic action) :
    Reaches permitted traffic := by
  induction reaches with
  | start settings documents => exact .start settings documents
  | step _ allows performed ih => exact .step ih (permits _ _ allows) performed

theorem Reaches.consistent {allowed : Traffic → Action → Prop}
    (reaches : Reaches allowed traffic) : traffic.Consistent := by
  induction reaches with
  | start settings documents => exact ofDocuments_consistent settings documents
  | step _ _ performed ih => exact ih.perform performed

end Traffic

end Redline
