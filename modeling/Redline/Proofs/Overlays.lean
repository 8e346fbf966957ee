import Redline.Proofs.Stranding

/-! Whether the overlay that was published last is the one a manager would answer with. Whoever
changes tracked rows says so, with two exceptions: a session that is replaced is silenced, and a
session that is stranded goes without a word. -/

namespace Redline

def lastOverlay (id : BufferId) (log : List Event) : Option Overlay :=
  (log.filterMap fun event =>
    match event with
    | .overlay buffer overlay => if buffer = id then some overlay else none
    | .status _ => none).getLast?

theorem lastOverlay_append (id : BufferId) (first second : List Event) :
    lastOverlay id (first ++ second) = (lastOverlay id second).or (lastOverlay id first) := by
  rw [lastOverlay, List.filterMap_append, List.getLast?_append]
  rfl

theorem lastOverlay_announce (session : Session) (buffer : Buffer) (status : Status)
    (id : BufferId) : lastOverlay id (session.announce buffer status) =
      if session.bufferId = id then some session.overlay else none := by
  by_cases own : session.bufferId = id <;> simp [lastOverlay, Session.announce, own]

def shown (id : BufferId) (log : List Event) : Overlay := (lastOverlay id log).getD .empty

theorem shown_announce (log : List Event) (session : Session) (buffer : Buffer) (status : Status)
    (id : BufferId) : shown id (log ++ session.announce buffer status) =
      if session.bufferId = id then session.overlay else shown id log := by
  rw [shown, lastOverlay_append, lastOverlay_announce]
  split
  · rfl
  · rfl

theorem Session.Coherent.blank {session : Session} (coherent : session.Coherent)
    (idle : session.state = .idle) : session.overlay = .empty := by
  cases coherent with
  | streaming _ _ state =>
      rw [state] at idle
      exact SessionState.noConfusion idle
  | reviewing _ _ state =>
      rw [state] at idle
      exact SessionState.noConfusion idle
  | idle tracks =>
      rw [Session.overlay, tracks.tracker, tracks.blocks]
      rfl

theorem Session.overlay_of_refused {session : Session} {buffer : Buffer} {error : SessionError}
    (refused : session.clear buffer false = .ok (session.refuse buffer error)) :
    session.overlay ≠ .empty := by
  intro blank
  have none : session.registry.blocks = [] := congrArg Overlay.blocks blank
  rw [Session.clear] at refused
  simp only [Bool.false_eq_true, if_false, none, List.reverse_nil, Session.rejectAll,
    ok_bind] at refused
  have outcome := congrArg Turn.outcome (Except.ok.inj refused)
  simp [Session.refuse] at outcome

namespace Manager

variable {manager later : Manager} {opened : Opened} {id : BufferId} {stream : StreamId}
  {events log : List Event}

def view (manager : Manager) (id : BufferId) : Overlay := (manager.overlay? id).getD .empty

theorem view_eq (manager : Manager) (id : BufferId) : manager.view id =
    ((manager.opened? id).map fun opened => opened.session.overlay).getD .empty := rfl

def Shown (manager : Manager) (log : List Event) : Prop := ∀ id, shown id log = manager.view id

theorem view_congr (current : later.current.get? id = manager.current.get? id)
    (sessions : ∀ stream, manager.current.get? id = some stream →
      later.sessions.get? stream = manager.sessions.get? stream) :
    later.view id = manager.view id := by
  rw [view_eq, view_eq, opened?, opened?, current]
  cases found : manager.current.get? id with
  | none => rfl
  | some stream => rw [Option.bind_some, Option.bind_some, sessions stream found]

theorem view_of_opened (known : manager.opened? id = some opened) :
    manager.view id = opened.session.overlay := by
  rw [view_eq, known]
  rfl

theorem Turns.shows {next : Session} {after : Buffer}
    (turns : manager.Turns opened next after events later) (consistent : manager.Consistent)
    (tidy : manager.Tidy) (before : manager.Shown log) : later.Shown (log ++ events) := by
  have orderly := (consistent.filed turns.found).2.2
  have reports := turns.acts.reports orderly.coherent
  intro id
  by_cases own : manager.current.get? id = some opened.session.stream
  · have known : manager.opened? id = some opened := opened?_eq_some.mpr ⟨_, own, turns.found⟩
    have owner := (consistent.on_table known).2.2.1
    have now : later.view id = next.overlay := by
      by_cases idle : next.state = .idle
      · rw [(orderly.acts turns.acts).coherent.blank idle, view_eq, opened?, turns.current,
          if_pos ⟨idle, owner.symm, own⟩]
        rfl
      · rw [view_eq, opened?, turns.current, if_neg fun left => idle left.1, own,
          Option.bind_some, turns.sessions, if_pos rfl]
        rfl
    rw [now]
    rcases reports.told with ⟨silent, same, _⟩ | ⟨status, told, _⟩
    · rw [silent, List.append_nil, before id, view_of_opened known, same]
    · rw [told, shown_announce, if_pos (reports.bufferId.trans owner)]
  · have still : later.view id = manager.view id := by
      apply view_congr
      · rw [turns.current, if_neg fun left => own left.2.2]
      · intro stream current
        rw [turns.sessions, if_neg]
        intro same
        rw [same] at current
        exact own current
    rw [still, ← before id]
    rcases reports.told with ⟨silent, _, _⟩ | ⟨status, told, _⟩
    · rw [silent, List.append_nil]
    · rw [told, shown_announce, if_neg]
      -- A session of this buffer that is not on the table has closed, so it says nothing.
      intro owner
      rw [← owner, reports.bufferId] at own
      have idle := (tidy _ opened turns.found own).1
      rw [(reports.inert idle).2.2] at told
      simp [Session.announce] at told

theorem Opens.blank {range : LineRange} {fresh : Opened}
    (opens : manager.Opens id range fresh later) : later.view id = .empty := by
  rw [view_eq, opened?, opens.current, if_pos rfl, Option.bind_some, opens.sessions, if_pos rfl]
  exact (Session.start_opening opens.opened).overlay

theorem Opens.shows {range : LineRange} {fresh : Opened}
    (opens : manager.Opens id range fresh later) (consistent : manager.Consistent)
    (before : manager.Shown log) (blank : manager.view id = .empty) : later.Shown log := by
  intro other
  by_cases own : other = id
  · rw [own, opens.blank, before id, blank]
  · rw [before other]
    symm
    apply view_congr
    · rw [opens.current, if_neg own]
    · exact fun stream current => opens.others consistent current own

theorem Strands.blank (strands : manager.Strands id later) : later.view id = .empty := by
  rw [view_eq, opened?, strands.current, if_pos rfl]
  rfl

end Manager

namespace Traffic

variable {traffic later : Traffic} {action : Action}

/-- The overlay that was published last for a buffer is the one of its session, or empty if
there is no session. -/
def UpToDate (traffic : Traffic) : Prop :=
  ∀ id overlay, lastOverlay id traffic.log = some overlay →
    overlay = (traffic.manager.overlay? id).getD .empty

/-- What takes blocks off the table without a word: replacing a session that shows something,
and a clear that is refused. -/
inductive Silences (traffic : Traffic) : Action → Prop where
  | start {id : BufferId} {document : String} {range : LineRange} {manager : Manager}
      {events : List Event} {handle : Handle} :
      (traffic.manager.overlay? id).getD .empty ≠ .empty →
      traffic.manager.serve (.start id document range) = .ok (manager, events, .started handle) →
      Silences traffic (.request (.start id document range))
  | clear {action : Action} : traffic.Strands action → Silences traffic action

/-- Histories in which blocks leave the table only with a word. -/
def Told (traffic : Traffic) : Prop :=
  Reaches (fun traffic action => ¬traffic.Silences action) traffic

theorem upToDate_of_shown (shows : traffic.manager.Shown traffic.log) : traffic.UpToDate := by
  intro id overlay last
  have same := shows id
  rw [shown, last] at same
  exact same

/-- What is on the screen for a buffer is the answer of a manager that is up to date, unless
nothing was published for the buffer. -/
theorem shown_of_upToDate (upToDate : traffic.UpToDate) {id : BufferId}
    (some : shown id traffic.log ≠ .empty) : shown id traffic.log = traffic.manager.view id := by
  rw [shown] at some ⊢
  cases last : lastOverlay id traffic.log with
  | none =>
      rw [last] at some
      exact absurd rfl some
  | some overlay => exact upToDate id overlay last

/-- What has left the table without a word is still on the screen. -/
theorem stale_of_blank (before : traffic.manager.Shown traffic.log)
    (silent : later.log = traffic.log) {id : BufferId}
    (visible : traffic.manager.view id ≠ .empty) (blank : later.manager.view id = .empty) :
    ¬later.UpToDate := by
  intro upToDate
  have visible : shown id later.log ≠ .empty := by
    rw [silent, before id]
    exact visible
  exact visible ((shown_of_upToDate upToDate visible).trans blank)

theorem Consistent.shows (consistent : traffic.Consistent) (tidy : traffic.manager.Tidy)
    (before : traffic.manager.Shown traffic.log)
    (performed : traffic.perform action = .ok later) (told : ¬traffic.Silences action) :
    later.manager.Shown later.log := by
  rcases consistent.effect performed with ⟨events, log, effect⟩
  rw [log]
  have asked {request : Request} (same : action.request? = some request) :
      action = .request request := by
    cases action with
    | request other => rw [Option.some.inj same]
    | launch handle => cases same
    | move index move => cases same
  generalize request : action.request? = request at effect
  generalize later.manager = next at effect ⊢
  cases effect with
  | changes changes =>
      -- A turn keeps the screen up to date as long as nothing off the table can speak.
      have both := @Manager.Changes.invariant _ _ _ _
        (fun manager log => manager.Tidy ∧ manager.Shown log)
        (fun consistent _ turns holds =>
          ⟨turns.tidy consistent holds.1, turns.shows consistent holds.1 holds.2⟩)
        changes consistent.manager traffic.log ⟨tidy, before⟩
      exact both.2
  | host buffer _ =>
      rw [List.append_nil]
      exact before
  | opens served opens =>
      rw [List.append_nil]
      apply opens.shows consistent.manager before
      by_contra visible
      rw [asked request] at told
      exact told (.start visible served)
  | strands known _ served _ =>
      rw [asked request] at told
      exact absurd (.clear ⟨_, _, _, _, _, _, rfl, known, served⟩) told

theorem Consistent.stale (consistent : traffic.Consistent)
    (before : traffic.manager.Shown traffic.log)
    (performed : traffic.perform action = .ok later) (silenced : traffic.Silences action) :
    ¬later.UpToDate := by
  cases silenced with
  | @start id document range manager events handle visible served =>
      rw [perform_request served] at performed
      cases performed
      rcases consistent.manager.serve_start id document range with
        ⟨session, next, opens, started⟩ | refused
      · rw [started] at served
        cases served
        exact stale_of_blank before (List.append_nil _) visible opens.blank
      · rw [refused] at served
        cases served
  | clear strands =>
      rcases strands with ⟨id, accept, opened, manager, events, error, rfl, known, served⟩
      rw [perform_request served] at performed
      cases performed
      rcases Manager.of_answered served with ⟨reply, cleared, rfl, rfl, accepts, _⟩
      rcases consistent.manager.clear known cleared with
        ⟨after, _, outcome⟩ | ⟨_, _, refused, strands, silent, _⟩
      · exact Answer.noConfusion (accepts () outcome)
      · have visible : traffic.manager.view id ≠ .empty := by
          rw [Manager.view_of_opened known]
          exact Session.overlay_of_refused refused
        refine stale_of_blank before ?_ visible strands.blank
        rw [silent, List.append_nil]

theorem Told.unstranded (told : traffic.Told) : traffic.Unstranded :=
  Reaches.mono told fun _ _ allowed strands => allowed (.clear strands)

theorem Told.shows (told : traffic.Told) : traffic.manager.Shown traffic.log := by
  induction told with
  | start settings documents => exact fun _ => rfl
  | step reached allowed performed ih =>
      exact reached.consistent.shows (Told.unstranded reached).tidy ih performed allowed

/-- As long as blocks leave the table only with a word, the overlay that was published last is
the one a manager answers with, and the first action that takes blocks off the table in silence
leaves the last overlay stale. -/
theorem overlays_up_to_date_until_silence (told : traffic.Told) :
    traffic.UpToDate ∧ ∀ action later, traffic.perform action = .ok later →
      (later.UpToDate ↔ ¬traffic.Silences action) := by
  have consistent := told.consistent
  refine ⟨upToDate_of_shown told.shows, fun action later performed => ⟨fun upToDate silenced => ?_,
    fun careful => ?_⟩⟩
  · exact consistent.stale told.shows performed silenced upToDate
  · exact upToDate_of_shown
      (consistent.shows told.unstranded.tidy told.shows performed careful)

theorem launch_told (traffic : Traffic) (handle : Handle) : ¬traffic.Silences (.launch handle) := by
  rintro (_ | ⟨_, _, _, _, _, _, asked, _⟩)
  cases asked

theorem move_told (traffic : Traffic) (index : Nat) (move : Run.Move) :
    ¬traffic.Silences (.move index move) := by
  rintro (_ | ⟨_, _, _, _, _, _, asked, _⟩)
  cases asked

theorem oneAdded_told : oneAdded.Told := by
  have blank : (ofDocuments .standard ⟨[("d", ⟨["a"]⟩)]⟩).Told := .start _ _
  have first : ¬(ofDocuments .standard ⟨[("d", ⟨["a"]⟩)]⟩).Silences
      (.request (.start ⟨"t"⟩ "d" ⟨0, 0⟩)) := by
    rintro (⟨visible, _⟩ | ⟨_, _, _, _, _, _, asked, _⟩)
    · exact visible rfl
    · cases asked
  have opened := Reaches.step blank first rfl
  have launched := Reaches.step opened (launch_told _ ⟨⟨"t"⟩, ⟨1⟩⟩) rfl
  have asking := Reaches.step launched (move_told _ 0 .check) rfl
  apply Reaches.step asking (move_told _ 0 (.receive (.line ⟨.added, "x"⟩)))
  cbv

/-- The line that was added is on the screen, and another session takes over in silence. -/
theorem oneAdded_up_to_date : oneAdded.UpToDate ∧
    oneAdded.Silences (.request (.start ⟨"t"⟩ "d" ⟨0, 1⟩)) := by
  rcases overlays_up_to_date_until_silence oneAdded_told with ⟨upToDate, _⟩
  refine ⟨upToDate, @Silences.start oneAdded ⟨"t"⟩ "d" ⟨0, 1⟩ _ _ _ (by decide) rfl⟩

/-- The line stays on the screen for good, although the new session has nothing to show. -/
theorem oneAdded_stale : ∃ later,
    oneAdded.perform (.request (.start ⟨"t"⟩ "d" ⟨0, 1⟩)) = .ok later ∧
      later.manager.overlay? ⟨"t"⟩ = some .empty ∧
      lastOverlay ⟨"t"⟩ later.log = some ⟨[⟨⟨⟨1⟩, 0⟩, 0, 0, 1⟩], [⟨0, 1⟩], []⟩ ∧
      ¬later.UpToDate := by
  refine ⟨_, rfl, rfl, rfl, fun upToDate => ?_⟩
  have same := upToDate ⟨"t"⟩ _ rfl
  cases same

end Traffic

end Redline
