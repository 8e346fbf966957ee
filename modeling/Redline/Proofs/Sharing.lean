import Redline.Proofs.Excerpts

namespace Redline

namespace Manager

variable {names : Renaming} {owner : String → BufferId} {mine : BufferId} {gap : Nat}
  {full part manager later : Manager} {opened : Opened} {next : Session} {after : Buffer}
  {events : List Event} {target : Option StreamId} {kind : BufferId → Prop}
  {request : Option Request}

/-! ## What an action is about -/

def Meant (manager : Manager) (target : Option StreamId) (kind : BufferId → Prop) : Prop :=
  ∀ ⦃stream opened⦄, target = some stream → manager.sessions.get? stream = some opened →
    kind opened.session.bufferId

theorem Turns.meant (turns : manager.Turns opened next after events later)
    (consistent : manager.Consistent) (meant : manager.Meant target kind) :
    later.Meant target kind := by
  intro stream other aimed found
  rw [turns.sessions] at found
  split at found
  · rename_i own
    subst own
    have reports := turns.acts.reports (consistent.filed turns.found).2.2.coherent
    rw [← Option.some.inj found, reports.bufferId]
    exact meant aimed turns.found
  · exact meant aimed found

theorem Turns.addressed (turns : manager.Turns opened next after events later)
    (consistent : manager.Consistent) (concerned : kind opened.session.bufferId) :
    ∀ event ∈ events, kind event.buffer := by
  intro event member
  have reports := turns.acts.reports (consistent.filed turns.found).2.2.coherent
  rcases reports.told with ⟨rfl, _⟩ | ⟨status, rfl, _⟩
  · cases member
  · rw [← reports.bufferId] at concerned
    simp only [Session.announce, List.mem_cons, List.not_mem_nil, or_false] at member
    rcases member with rfl | rfl
    · exact concerned
    · exact concerned

theorem Changes.addressed (changes : Changes target manager events later)
    (consistent : manager.Consistent) (meant : manager.Meant target kind) :
    ∀ event ∈ events, kind event.buffer := by
  induction changes with
  | none manager => simp
  | more own turns _ ih =>
      intro event member
      rcases List.mem_append.mp member with first | rest
      · exact turns.addressed consistent (meant own turns.found) event first
      · exact ih (turns.consistent consistent) (turns.meant consistent meant) event rest

theorem Effect.addressed (effect : manager.Effect target request events later)
    (consistent : manager.Consistent) (meant : manager.Meant target kind) :
    ∀ event ∈ events, kind event.buffer := by
  cases effect with
  | changes changes => exact changes.addressed consistent meant
  | host | opens | strands => simp

theorem Changes.started (changes : Changes target manager events later) :
    later.started = manager.started := by
  induction changes with
  | none manager => rfl
  | more _ turns _ ih => exact ih.trans turns.started

theorem Effect.started (effect : manager.Effect target request events later) :
    later.started = manager.started ∨ later.started = manager.started + 1 := by
  cases effect with
  | changes changes => exact .inl changes.started
  | host => exact .inl rfl
  | opens _ opens => exact .inr opens.started
  | strands _ _ _ strands => exact .inl strands.started

theorem Effect.owned (effect : manager.Effect target request events later)
    (consistent : manager.Consistent) (owned : manager.Owned owner)
    (respects : ∀ asked, request = some asked → asked.Respects owner) : later.Owned owner := by
  cases effect with
  | changes changes => exact changes.owned consistent owned
  | host => exact owned
  | opens _ opens =>
      intro stream opened found
      rw [opens.sessions] at found
      split at found
      · rw [← Option.some.inj found, (Session.start_opening opens.opened).bufferId]
        exact respects _ rfl
      · split at found
        · rcases Option.map_eq_some_iff.mp found with ⟨old, known, rfl⟩
          have same := owned known
          exact same
        · exact owned found
  | strands _ _ _ strands =>
      intro stream opened found
      rw [strands.sessions] at found
      exact owned found

theorem Consistent.concern (consistent : manager.Consistent) {request : Request}
    {stream : StreamId} (aimed : manager.target? request = some stream)
    (found : manager.sessions.get? stream = some opened) :
    manager.concern? owner request = some opened.session.bufferId := by
  have current {id : BufferId} (known : manager.current.get? id = some stream) :
      some id = some opened.session.bufferId := by
    rcases consistent.current known with ⟨other, same, rfl, _⟩
    rw [found] at same
    rw [Option.some.inj same]
  cases request with
  | resolve | clear | externalEdit | textChange | cancel => exact current aimed
  | fire other =>
      cases aimed
      rw [concern?, found, Option.map_some]
  | start | query | count | describe | hostInsert | hostDelete => cases aimed

/-! ## What is done for other buffers -/

theorem filter_foreign (foreign : opened.session.bufferId ≠ mine) :
    ((some opened).filter fun opened => opened.session.bufferId = mine) = none :=
  Option.filter_some_neg (decide_eq_false foreign)

theorem Excerpt.skip_turns (excerpt : Excerpt names owner mine gap full part)
    (owned : full.Owned owner) (consistent : full.Consistent)
    (turns : full.Turns opened next after events later)
    (foreign : opened.session.bufferId ≠ mine) : Excerpt names owner mine gap later part where
  settings := excerpt.settings.trans turns.settings.symm
  documents name own := by
    rw [turns.document, if_neg, excerpt.documents name own]
    rintro rfl
    exact foreign ((owned turns.found).symm.trans own)
  sessions stream := by
    rw [turns.sessions, excerpt.sessions]
    split
    · rename_i own
      have reports := turns.acts.reports (consistent.filed turns.found).2.2.coherent
      have still : ({ opened with session := next } : Opened).session.bufferId ≠ mine :=
        reports.bufferId.symm ▸ foreign
      rw [own, turns.found, filter_foreign foreign, filter_foreign still]
    · rfl
  current := by
    rw [turns.current, excerpt.current, if_neg]
    exact fun left => foreign left.2.1.symm
  started := excerpt.started.trans turns.started.symm

theorem Excerpt.skip_changes (changes : Changes target full events later)
    (excerpt : Excerpt names owner mine gap full part) (owned : full.Owned owner)
    (consistent : full.Consistent) (meant : full.Meant target (· ≠ mine)) :
    Excerpt names owner mine gap later part := by
  induction changes with
  | none manager => exact excerpt
  | more own turns _ ih =>
      exact ih (excerpt.skip_turns owned consistent turns (meant own turns.found))
        (turns.owned consistent owned) (turns.consistent consistent)
        (turns.meant consistent meant)

theorem Excerpt.skip_opens (excerpt : Excerpt names owner mine gap full part)
    (consistent : full.Consistent) {id : BufferId} {range : LineRange} {fresh : Opened}
    (opens : full.Opens id range fresh later) (foreign : id ≠ mine) :
    Excerpt names owner mine (gap + 1) later part where
  settings := excerpt.settings.trans opens.settings.symm
  documents name own := by rw [opens.document, excerpt.documents name own]
  sessions stream := by
    rw [opens.sessions, excerpt.sessions]
    split
    · rename_i new
      have aside : fresh.session.bufferId ≠ mine :=
        (Session.start_opening opens.opened).bufferId.symm ▸ foreign
      rw [new, consistent.unknown, filter_foreign aside, Option.filter_none]
    · split
      · rename_i replaced
        rcases consistent.current replaced with ⟨old, found, rfl, _⟩
        have still : ({ old with session := old.session.discard } : Opened).session.bufferId ≠
          mine := foreign
        rw [found, Option.map_some, filter_foreign foreign, filter_foreign still]
      · rfl
  current := by rw [opens.current, excerpt.current, if_neg (Ne.symm foreign)]
  started := by rw [opens.started, ← excerpt.started, Nat.add_assoc]

theorem Excerpt.skip_strands (excerpt : Excerpt names owner mine gap full part) {id : BufferId}
    (strands : full.Strands id later) (foreign : id ≠ mine) :
    Excerpt names owner mine gap later part where
  settings := excerpt.settings.trans strands.settings.symm
  documents name own := by rw [strands.document, excerpt.documents name own]
  sessions stream := by rw [strands.sessions, excerpt.sessions]
  current := by rw [strands.current, excerpt.current, if_neg (Ne.symm foreign)]
  started := excerpt.started.trans strands.started.symm

theorem Excerpt.skip_host (excerpt : Excerpt names owner mine gap full part) {name : String}
    (buffer : Buffer) (foreign : owner name ≠ mine) :
    Excerpt names owner mine gap (full.setDocument name buffer) part where
  settings := excerpt.settings
  documents other own := by
    rw [document_setDocument, if_neg, excerpt.documents other own]
    rintro rfl
    exact foreign own
  sessions := excerpt.sessions
  current := excerpt.current
  started := excerpt.started

theorem Excerpt.skip (excerpt : Excerpt names owner mine gap full part) (owned : full.Owned owner)
    (consistent : full.Consistent) (effect : full.Effect target request events later)
    (meant : full.Meant target (· ≠ mine))
    (foreign : ∀ asked, request = some asked → full.concern? owner asked ≠ some mine) :
    ∃ wider, Excerpt names owner mine wider later part := by
  cases effect with
  | changes changes => exact ⟨gap, .skip_changes changes excerpt owned consistent meant⟩
  | @host asked name buffer changed =>
      refine ⟨gap, excerpt.skip_host buffer fun own => foreign asked rfl ?_⟩
      cases asked with
      | hostInsert | hostDelete =>
          cases changed
          exact congrArg some own
      | _ => cases changed
  | opens _ opens =>
      exact ⟨gap + 1, excerpt.skip_opens consistent opens fun own =>
        foreign _ rfl (congrArg some own)⟩
  | strands _ _ _ strands =>
      exact ⟨gap, excerpt.skip_strands strands fun own => foreign _ rfl (congrArg some own)⟩

end Manager

/-! ## Some elements of a list -/

section Selected

variable {α : Type} {selected : α → Bool} {elements : List α} {index : Nat} {element other : α}

theorem filter_around (found : elements[index]? = some element) :
    elements.filter selected = (elements.take index).filter selected ++
      ([element].filter selected ++ (elements.drop (index + 1)).filter selected) := by
  rcases List.getElem?_eq_some_iff.mp found with ⟨inside, rfl⟩
  rw [← List.filter_append, ← List.filter_append, List.singleton_append,
    List.getElem_cons_drop inside, List.take_append_drop]

theorem filter_set (found : elements[index]? = some element) :
    (elements.set index other).filter selected = (elements.take index).filter selected ++
      ([other].filter selected ++ (elements.drop (index + 1)).filter selected) := by
  rcases List.getElem?_eq_some_iff.mp found with ⟨inside, rfl⟩
  rw [← List.filter_append, ← List.filter_append, List.singleton_append,
    List.set_eq_take_append_cons_drop, if_pos inside]

theorem getElem?_selected (found : elements[index]? = some element)
    (holds : selected element = true) :
    (elements.filter selected)[(elements.take index).countP selected]? = some element := by
  rw [filter_around found, List.filter_singleton, holds, List.countP_eq_length_filter,
    List.getElem?_append_right (Nat.le_refl _), Nat.sub_self]
  rfl

theorem set_selected (found : elements[index]? = some element)
    (holds : selected element = true) (still : selected other = true) :
    (elements.set index other).filter selected =
      (elements.filter selected).set ((elements.take index).countP selected) other := by
  rw [filter_set found, filter_around found, List.filter_singleton, List.filter_singleton, holds,
    still, List.countP_eq_length_filter, List.set_append_right _ _ (Nat.le_refl _), Nat.sub_self]
  rfl

theorem set_unselected (found : elements[index]? = some element)
    (fails : selected element = false) (still : selected other = false) :
    (elements.set index other).filter selected = elements.filter selected := by
  rw [filter_set found, filter_around found, List.filter_singleton, List.filter_singleton, fails,
    still]
  rfl

end Selected

/-! ## Many runs -/

namespace Run

theorem start_handle (manager : Manager) (handle : Handle) :
    (start manager handle).2.handle = handle := by
  rw [start]
  cases manager.opened? handle.buffer with
  | none => rfl
  | some opened =>
      simp only
      split
      · cases opened.session.beginRun with
        | error error => rfl
        | ok session => rfl
      · rfl

end Run

def Renaming.action (names : Renaming) (mine : BufferId) (runs : List Run) : Action → Action
  | .request request => .request (names.request request)
  | .launch handle => .launch (names.handle handle)
  | .move index move => .move ((runs.take index).countP (·.handle.buffer = mine)) move

def Action.Respects (owner : String → BufferId) : Action → Prop
  | .request asked => asked.Respects owner
  | _ => True

namespace Traffic

def concern? (traffic : Traffic) (owner : String → BufferId) : Action → Option BufferId
  | .request request => traffic.manager.concern? owner request
  | .launch handle => some handle.buffer
  | .move index _ => (traffic.runs[index]?).map fun run => run.handle.buffer

def answer? (traffic : Traffic) : Action → Option Answer
  | .request request =>
      match traffic.manager.serve request with
      | .ok (_, _, answer) => some answer
      | .error _ => none
  | _ => none

/-- A manager at work that is, under other names, what another one is to one buffer, and nothing
else. -/
structure Excerpt (names : Renaming) (owner : String → BufferId) (mine : BufferId) (gap : Nat)
    (full part : Traffic) : Prop where
  manager : Manager.Excerpt names owner mine gap full.manager part.manager
  runs : part.runs = (full.runs.filter (·.handle.buffer = mine)).map names.run
  log : part.log = (full.log.filter (·.buffer = mine)).map names.event

variable {names : Renaming} {owner : String → BufferId} {mine : BufferId} {gap : Nat}
  {full part traffic later : Traffic} {action : Action}

theorem Consistent.concern (consistent : traffic.Consistent) {stream : StreamId} {opened : Opened}
    (aimed : traffic.target? action = some stream)
    (found : traffic.manager.sessions.get? stream = some opened) :
    traffic.concern? owner action = some opened.session.bufferId := by
  cases action with
  | request request => exact consistent.manager.concern aimed found
  | launch handle =>
      rcases Option.filter_eq_some_iff.mp aimed with ⟨current, _⟩
      rcases consistent.manager.current current with ⟨other, same, bufferId, _⟩
      rw [found] at same
      rw [concern?, ← bufferId, Option.some.inj same]
  | move index move =>
      rcases Option.bind_eq_some_iff.mp aimed with ⟨run, known, own⟩
      split at own
      · cases own
      · rename_i under
        cases own
        rcases consistent.attached run (List.mem_of_getElem? known) (by simpa using under) with
          ⟨other, same, bufferId⟩
        rw [found] at same
        rw [concern?, known, Option.map_some, ← bufferId, Option.some.inj same]

theorem Consistent.meant (consistent : traffic.Consistent) {kind : BufferId → Prop}
    (concerned : ∀ id, traffic.concern? owner action = some id → kind id) :
    traffic.manager.Meant (traffic.target? action) kind :=
  fun _ _ aimed found => concerned _ (consistent.concern aimed found)

/-- What is told while something is done for a buffer is told of that buffer. -/
theorem Consistent.told (consistent : traffic.Consistent) {kind : BufferId → Prop}
    (concerned : ∀ id, traffic.concern? owner action = some id → kind id)
    (performed : traffic.perform action = .ok later) {events : List Event}
    (log : later.log = traffic.log ++ events) : ∀ event ∈ events, kind event.buffer := by
  rcases consistent.effect performed with ⟨others, same, effect⟩
  rw [List.append_cancel_left (log.symm.trans same)]
  exact effect.addressed consistent.manager (consistent.meant concerned)

theorem Consistent.owned (consistent : traffic.Consistent) (owned : traffic.manager.Owned owner)
    (performed : traffic.perform action = .ok later) (respects : action.Respects owner) :
    later.manager.Owned owner := by
  rcases consistent.effect performed with ⟨events, _, effect⟩
  refine effect.owned consistent.manager owned fun asked same => ?_
  cases action with
  | request request =>
      cases same
      exact respects
  | launch | move => cases same

/-! ## One step -/

theorem Excerpt.speak (excerpt : Excerpt names owner mine gap full part) {events : List Event}
    (own : ∀ event ∈ events, event.buffer = mine) :
    part.log ++ events.map names.event =
      ((full.log ++ events).filter (·.buffer = mine)).map names.event := by
  have kept : events.filter (·.buffer = mine) = events :=
    List.filter_eq_self.mpr fun event member => decide_eq_true (own event member)
  rw [excerpt.log, List.filter_append, kept, List.map_append]

theorem Excerpt.move (excerpt : Excerpt names owner mine gap full part)
    (consistent : full.Consistent) (owned : full.manager.Owned owner) {index : Nat} {run : Run}
    (found : full.runs[index]? = some run) (own : run.handle.buffer = mine) (move : Run.Move) :
    Alike (Excerpt names owner mine gap) (full.perform (.move index move))
      (part.perform (names.action mine full.runs (.move index move))) := by
  have picked : decide (run.handle.buffer = mine) = true := decide_eq_true own
  have known : part.runs[(full.runs.take index).countP (·.handle.buffer = mine)]? =
      some (names.run run) := by
    have same := @getElem?_selected _ (fun run : Run => decide (run.handle.buffer = mine)) _ _ _
      found picked
    rw [excerpt.runs, List.getElem?_map, same, Option.map_some]
  have attached := consistent.attached run (List.mem_of_getElem? found)
  have concerned (id : BufferId)
      (concern : full.concern? owner (.move index move) = some id) : id = mine := by
    rw [concern?, found, Option.map_some, own] at concern
    exact (Option.some.inj concern).symm
  rw [Renaming.action, perform, perform, found, known]
  refine (excerpt.manager.move (fun under => ⟨consistent.manager, owned, attached under, own⟩)
    move).known.bind ?_
  rintro first second ⟨moved, managers, same, events⟩
  have performed : full.perform (.move index move) =
      .ok ⟨first.manager, full.runs.set index first.run, full.log ++ first.events⟩ := by
    rw [perform, found]
    simp only [moved, ok_bind]
    rfl
  have handle := (Run.move_changes consistent.manager attached moved).2
  have still : decide (first.run.handle.buffer = mine) = true := by
    rw [handle]
    exact picked
  refine .ok ⟨managers, ?_, ?_⟩
  · have set := @set_selected _ (fun run : Run => decide (run.handle.buffer = mine)) _ _ _ _
      found picked still
    rw [set, List.map_set, ← excerpt.runs, same]
  · rw [events]
    exact excerpt.speak (consistent.told concerned performed rfl)

theorem Excerpt.launch (excerpt : Excerpt names owner mine gap full part)
    (consistent : full.Consistent) {handle : Handle} (own : handle.buffer = mine) :
    Alike (Excerpt names owner mine gap) (full.perform (.launch handle))
      (part.perform (.launch (names.handle handle))) := by
  rcases excerpt.manager.launch consistent.manager own with ⟨managers, run⟩
  have kept : decide ((Run.start full.manager handle).2.handle.buffer = mine) = true := by
    rw [Run.start_handle]
    exact decide_eq_true own
  refine .ok ⟨managers, ?_, excerpt.log⟩
  show part.runs ++ [(Run.start part.manager (names.handle handle)).2] =
    ((full.runs ++ [(Run.start full.manager handle).2]).filter (·.handle.buffer = mine)).map
      names.run
  rw [run, excerpt.runs, List.filter_append, List.filter_singleton, kept, List.map_append]
  rfl

theorem Excerpt.serve (excerpt : Excerpt names owner mine gap full part)
    (consistent : full.Consistent) {request : Request}
    (own : full.concern? owner (.request request) = some mine)
    (serves : Alike (Manager.Serves names owner mine gap) (full.manager.serve request)
      (part.manager.serve (names.request request))) :
    Alike (Excerpt names owner mine gap) (full.perform (.request request))
        (part.perform (.request (names.request request))) ∧
      part.answer? (.request (names.request request)) =
        (full.answer? (.request request)).map names.answer := by
  have concerned (id : BufferId) (concern : full.concern? owner (.request request) = some id) :
      id = mine := Option.some.inj (concern.symm.trans own)
  constructor
  · refine serves.known.bind ?_
    rintro ⟨manager, events, answer⟩ ⟨other, _, _⟩ ⟨served, managers, rfl, rfl⟩
    have told := consistent.told concerned (perform_request served) rfl
    exact .ok ⟨managers, excerpt.runs, excerpt.speak told⟩
  · rw [answer?, answer?]
    generalize full.manager.serve request = first at serves
    generalize part.manager.serve (names.request request) = second at serves
    cases serves with
    | error _ => rfl
    | ok same => exact congrArg some same.answer

/-- What is done for a buffer is done to its excerpt as well. -/
theorem Excerpt.perform (excerpt : Excerpt names owner mine gap full part)
    (consistent : full.Consistent) (owned : full.manager.Owned owner)
    (own : full.concern? owner action = some mine) (respects : action.Respects owner)
    (fresh : ∀ later, full.perform action = .ok later →
      later.manager.started ≠ full.manager.started →
      names.stream ⟨full.manager.started + 1⟩ = ⟨part.manager.started + 1⟩) :
    Alike (Excerpt names owner mine gap) (full.perform action)
        (part.perform (names.action mine full.runs action)) ∧
      part.answer? (names.action mine full.runs action) =
        (full.answer? action).map names.answer := by
  cases action with
  | request request =>
      exact excerpt.serve consistent own (excerpt.manager.serve consistent.manager owned own
        respects fun served succeeds new => fresh _ (perform_request succeeds) new)
  | launch handle => exact ⟨excerpt.launch consistent (Option.some.inj own), rfl⟩
  | move index move =>
      rcases Option.map_eq_some_iff.mp own with ⟨run, found, mine⟩
      exact ⟨excerpt.move consistent owned found mine move, rfl⟩

theorem selected_runs (consistent : traffic.Consistent)
    (foreign : traffic.concern? owner action ≠ some mine)
    (performed : traffic.perform action = .ok later) :
    later.runs.filter (·.handle.buffer = mine) = traffic.runs.filter (·.handle.buffer = mine) := by
  cases action with
  | request request =>
      rcases bind_eq_ok.mp performed with ⟨served, _, last⟩
      cases last
      rfl
  | launch handle =>
      have out : decide ((Run.start traffic.manager handle).2.handle.buffer = mine) = false := by
        rw [Run.start_handle]
        simpa [concern?] using foreign
      cases performed
      show (traffic.runs ++ [(Run.start traffic.manager handle).2]).filter _ = _
      rw [List.filter_append, List.filter_singleton, out, cond_false, List.append_nil]
  | move index move =>
      rw [Traffic.perform] at performed
      cases found : traffic.runs[index]? with
      | none =>
          rw [found] at performed
          cases performed
          rfl
      | some run =>
          rw [found] at performed
          rcases bind_eq_ok.mp performed with ⟨progress, moved, last⟩
          have attached := consistent.attached run (List.mem_of_getElem? found)
          have handle := (Run.move_changes consistent.manager attached moved).2
          have out : decide (run.handle.buffer = mine) = false := by
            simpa [concern?, found] using foreign
          have still : decide (progress.run.handle.buffer = mine) = false := by
            rw [handle]
            exact out
          cases last
          exact @set_unselected _ (fun run : Run => decide (run.handle.buffer = mine)) _ _ _ _
            found out still

/-- What is done for other buffers leaves the excerpt as it is. -/
theorem Excerpt.skip (excerpt : Excerpt names owner mine gap full part)
    (consistent : full.Consistent) (owned : full.manager.Owned owner)
    (foreign : full.concern? owner action ≠ some mine)
    (performed : full.perform action = .ok later) :
    ∃ wider, Excerpt names owner mine wider later part := by
  have concerned (id : BufferId) (concern : full.concern? owner action = some id) : id ≠ mine :=
    fun same => foreign (same ▸ concern)
  rcases consistent.effect performed with ⟨events, log, effect⟩
  have aside (asked : Request) (same : action.request? = some asked) :
      full.manager.concern? owner asked ≠ some mine := by
    cases action with
    | request request =>
        cases same
        exact foreign
    | launch | move => cases same
  rcases excerpt.manager.skip owned consistent.manager effect (consistent.meant concerned) aside
    with ⟨wider, managers⟩
  have out : events.filter (·.buffer = mine) = [] :=
    List.filter_eq_nil_iff.mpr fun event member => by
      simpa using consistent.told concerned performed log event member
  refine ⟨wider, managers, ?_, ?_⟩
  · rw [selected_runs consistent foreign performed, excerpt.runs]
  · rw [log, List.filter_append, out, List.append_nil, excerpt.log]

end Traffic

end Redline
