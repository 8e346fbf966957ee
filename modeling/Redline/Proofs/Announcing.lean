import Redline.Proofs.Bulletins
import Redline.Proofs.Superseding

namespace Redline

def Request.edit? : Request → Option (BufferId × Int)
  | externalEdit id _ delta => some (id, delta)
  | textChange id edit => some (id, edit.lineDelta)
  | _ => none

namespace Manager

variable {manager later : Manager} {opened : Opened} {next : Session} {after : Buffer}
  {events : List Event} {target : Option StreamId} {request : Option Request}
  {told : List Bulletin}

/-- The session of a stream acts, as often as it likes. After each act it publishes at most one
bulletin, of itself and its document as the act has left them. -/
inductive Publishes (target : Option StreamId) : Manager → List Bulletin → Manager → Prop where
  | nothing (manager : Manager) : Publishes target manager [] manager
  | turn {manager middle later : Manager} {opened : Opened} {next : Session} {after : Buffer}
      {said rest : List Bulletin} : target = some opened.session.stream →
      Turns manager opened next after (said.flatMap Bulletin.events) middle → said.length ≤ 1 →
      (∀ bulletin ∈ said, bulletin.Describes middle { opened with session := next }) →
      Publishes target middle rest later → Publishes target manager (said ++ rest) later

structure Heard (manager : Manager) (told : List Bulletin) : Prop where
  spoken : ∀ {stream opened}, manager.sessions.get? stream = some opened →
    Bulletin.Spoken opened.session.state opened.session.unresolved (Bulletin.ofStream stream told)
  silent : ∀ {stream}, manager.sessions.get? stream = none → Bulletin.ofStream stream told = []

theorem Heard.protocol (heard : manager.Heard told) (stream : StreamId) :
    Bulletin.Protocol (Bulletin.ofStream stream told) := by
  cases found : manager.sessions.get? stream with
  | none =>
      rw [heard.silent found]
      exact .silent
  | some opened => exact (heard.spoken found).protocol

theorem Heard.congr (heard : manager.Heard told)
    (same : ∀ stream, later.sessions.get? stream = manager.sessions.get? stream) :
    later.Heard told where
  spoken found := heard.spoken ((same _).symm.trans found)
  silent absent := heard.silent ((same _).symm.trans absent)

theorem Turns.describes (turns : manager.Turns opened next after events later)
    (consistent : manager.Consistent) {said : List Bulletin}
    (speaks : opened.session.Speaks next after said) :
    ∀ bulletin ∈ said, bulletin.Describes later { opened with session := next } := by
  intro bulletin member
  have reports := turns.acts.reports (consistent.filed turns.found).2.2.coherent
  rcases speaks.bulletin member with ⟨status, rfl⟩
  refine ⟨?_, rfl, ?_, rfl, rfl⟩
  · exact (turns.sessions _).trans (if_pos reports.stream)
  · rw [turns.document, if_pos rfl]
    rfl

theorem Turns.heard (turns : manager.Turns opened next after events later)
    (consistent : manager.Consistent) {said : List Bulletin}
    (speaks : opened.session.Speaks next after said)
    (heard : manager.Heard told) : later.Heard (told ++ said) := by
  have reports := turns.acts.reports (consistent.filed turns.found).2.2.coherent
  have own : ∀ bulletin ∈ said, bulletin.update.stream = opened.session.stream := by
    intro bulletin member
    rcases speaks.bulletin member with ⟨status, rfl⟩
    exact reports.stream
  have mine : Bulletin.ofStream opened.session.stream said = said :=
    List.filter_eq_self.mpr fun bulletin member => decide_eq_true (own bulletin member)
  have others {stream : StreamId} (other : stream ≠ opened.session.stream) :
      Bulletin.ofStream stream (told ++ said) = Bulletin.ofStream stream told := by
    have none : Bulletin.ofStream stream said = [] :=
      List.filter_eq_nil_iff.mpr fun bulletin member same =>
        other ((of_decide_eq_true same).symm.trans (own bulletin member))
    rw [Bulletin.ofStream, List.filter_append, ← Bulletin.ofStream, ← Bulletin.ofStream, none,
      List.append_nil]
  constructor
  · intro stream found held
    rw [turns.sessions] at held
    split at held
    · rename_i same
      rw [← Option.some.inj held, same, Bulletin.ofStream, List.filter_append,
        ← Bulletin.ofStream, ← Bulletin.ofStream, mine]
      exact speaks.spoken (heard.spoken turns.found)
    · rename_i other
      rw [others other]
      exact heard.spoken held
  · intro stream absent
    rw [turns.sessions] at absent
    split at absent
    · cases absent
    · rename_i other
      rw [others other]
      exact heard.silent absent

theorem Changes.heard (changes : Changes target manager events later)
    (consistent : manager.Consistent) (heard : manager.Heard told) :
    ∃ bulletins, events = bulletins.flatMap Bulletin.events ∧
      Publishes target manager bulletins later ∧ later.Heard (told ++ bulletins) := by
  induction changes generalizing told with
  | none manager =>
      refine ⟨[], rfl, .nothing manager, ?_⟩
      rw [List.append_nil]
      exact heard
  | more own turns _ ih =>
      rcases turns.acts.tells (consistent.filed turns.found).2.2.coherent with ⟨said, rfl, speaks⟩
      rcases ih (turns.consistent consistent) (turns.heard consistent speaks heard) with
        ⟨rest, rfl, publishes, heard⟩
      refine ⟨said ++ rest, List.flatMap_append.symm,
        .turn own turns speaks.length_le_one (turns.describes consistent speaks) publishes, ?_⟩
      rw [← List.append_assoc]
      exact heard

theorem Opens.heard {id : BufferId} {range : LineRange} {fresh : Opened}
    (opens : manager.Opens id range fresh later) (consistent : manager.Consistent)
    (heard : manager.Heard told) : later.Heard told := by
  have opening := Session.start_opening opens.opened
  constructor
  · intro stream opened found
    rw [opens.sessions] at found
    split at found
    · rename_i new
      have none : fresh.session.unresolved = 0 :=
        congrArg (fun overlay => overlay.blocks.length) opening.overlay
      rw [← Option.some.inj found, opening.state, none, new, heard.silent consistent.unknown]
      exact .opened
    · split at found
      · rcases Option.map_eq_some_iff.mp found with ⟨old, known, rfl⟩
        exact .superseded (heard.spoken known)
      · exact heard.spoken found
  · intro stream absent
    rw [opens.sessions] at absent
    split at absent
    · cases absent
    · split at absent
      · exact heard.silent (Option.map_eq_none_iff.mp absent)
      · exact heard.silent absent

theorem Effect.heard (effect : manager.Effect target request events later)
    (consistent : manager.Consistent) (heard : manager.Heard told) :
    ∃ bulletins, events = bulletins.flatMap Bulletin.events ∧
      (bulletins = [] ∨ Publishes target manager bulletins later) ∧
      later.Heard (told ++ bulletins) := by
  have nothing (still : later.Heard told) : ∃ bulletins,
      [] = bulletins.flatMap Bulletin.events ∧
      (bulletins = [] ∨ Publishes target manager bulletins later) ∧
      later.Heard (told ++ bulletins) :=
    ⟨[], rfl, .inl rfl, by rw [List.append_nil]; exact still⟩
  cases effect with
  | changes changes =>
      rcases changes.heard consistent heard with ⟨bulletins, same, publishes, heard⟩
      exact ⟨bulletins, same, .inr publishes, heard⟩
  | host buffer _ => exact nothing (heard.congr fun _ => rfl)
  | opens _ opens => exact nothing (opens.heard consistent heard)
  | strands _ _ _ strands => exact nothing (heard.congr strands.sessions)

variable {answer : Answer} {id : BufferId}

/-- What observers are not told of: refusals, edits that move nothing or that no session follows,
and the opening of sessions, also in the place of others. -/
inductive Unheard (manager : Manager) : Request → Answer → Prop where
  | refused (request : Request) (error : SessionError) : Unheard manager request (.refused error)
  | outOfRange (request : Request) (error : BufferError) :
      Unheard manager request (.outOfRange error)
  | still {request : Request} {id : BufferId} (answer : Answer) : request.edit? = some (id, 0) →
      Unheard manager request answer
  | ignored {request : Request} {id : BufferId} {delta : Int} (answer : Answer) :
      request.edit? = some (id, delta) →
      (∀ opened, manager.opened? id = some opened → opened.session.listening = false) →
      Unheard manager request answer
  | opens (id : BufferId) (document : String) (range : LineRange) (answer : Answer) :
      Unheard manager (.start id document range) answer

theorem externalEdit_silent {line : Nat} {delta : Int} {reply : Reply Unit}
    (edited : manager.externalEdit id line delta = .ok reply)
    (ignored : delta = 0 ∨
      (∀ opened, manager.opened? id = some opened → opened.session.listening = false) ∨
      ∃ error, reply.outcome = .error error) : reply.events = [] := by
  rw [Manager.externalEdit] at edited
  cases known : manager.opened? id with
  | none =>
      rw [known] at edited
      rw [← Except.ok.inj edited]
  | some opened =>
      rw [known] at edited
      rcases bind_eq_ok.mp edited with ⟨turn, turned, last⟩
      rw [← Except.ok.inj last] at ignored ⊢
      rcases ignored with still | deaf | ⟨error, refused⟩
      · exact Session.applyEdit_silent (.inl still) turned
      · exact Session.applyEdit_silent (.inr (deaf opened known)) turned
      · cases refused

theorem Consistent.resolve_silent (consistent : manager.Consistent) {block : BlockId}
    {accept : Bool} {reply : Reply Resolution} {error : SessionError}
    (resolved : manager.resolve id block accept = .ok reply)
    (refused : reply.outcome = .error error) : reply.events = [] := by
  rw [Manager.resolve] at resolved
  cases known : manager.opened? id with
  | none =>
      rw [known] at resolved
      rw [← Except.ok.inj resolved]
  | some opened =>
      rw [known] at resolved
      rcases consistent.on_table known with ⟨_, found, _, _⟩
      have coherent := (consistent.filed found).2.2.coherent
      rcases bind_eq_ok.mp resolved with ⟨operated, taken, last⟩
      rcases operate_eq_ok.mp taken with ⟨turn, turned, rfl⟩
      rcases coherent.resolve_atomic block accept with ⟨other, same, atomic⟩
      rw [turned] at same
      rw [← Except.ok.inj same] at atomic
      simp only at last
      split at last
      · rename_i error outcome
        rw [← Except.ok.inj last, atomic error outcome]
        rfl
      · rename_i resolution outcome
        split at last
        · rw [← Except.ok.inj last, outcome] at refused
          cases refused
        · rw [← Except.ok.inj last, outcome] at refused
          cases refused

theorem Consistent.clear_silent (consistent : manager.Consistent) {accept : Bool}
    {reply : Reply Unit} {error : SessionError} (cleared : manager.clear id accept = .ok reply)
    (refused : reply.outcome = .error error) : reply.events = [] := by
  cases known : manager.opened? id with
  | none =>
      rw [Manager.clear, known] at cleared
      rw [← Except.ok.inj cleared]
  | some opened =>
      rcases consistent.clear known cleared with ⟨_, _, accepted⟩ | ⟨_, _, _, _, silent, _⟩
      · rw [accepted] at refused
        cases refused
      · exact silent

theorem Unheard.edit {request : Request} {delta : Int} (edits : request.edit? = some (id, delta))
    {reply : Reply Unit} (answers : ∀ outcome, reply.outcome = .ok outcome → answer = .nothing)
    (unheard : manager.Unheard request answer) : delta = 0 ∨
      (∀ opened, manager.opened? id = some opened → opened.session.listening = false) ∨
      ∃ error, reply.outcome = .error error := by
  cases outcome : reply.outcome with
  | error error => exact .inr (.inr ⟨error, rfl⟩)
  | ok carried =>
      rw [answers carried outcome] at unheard
      cases unheard with
      | still _ same =>
          rw [edits] at same
          cases same
          exact .inl rfl
      | ignored _ same deaf =>
          rw [edits] at same
          cases same
          exact .inr (.inl deaf)
      | opens id document range answer => cases edits

theorem Consistent.unheard (consistent : manager.Consistent) {request : Request}
    (served : manager.serve request = .ok (later, events, answer))
    (unheard : manager.Unheard request answer) : events = [] := by
  cases request with
  | start id document range =>
      rcases consistent.serve_start id document range with ⟨_, _, _, starts⟩ | refused
      · rw [starts] at served
        cases served
        rfl
      · rw [refused] at served
        cases served
        rfl
  | resolve id block accept =>
      rcases of_answered served with ⟨reply, resolved, rfl, rfl, accepts, _⟩
      cases outcome : reply.outcome with
      | error error => exact consistent.resolve_silent resolved outcome
      | ok resolution =>
          rw [accepts _ outcome] at unheard
          rcases unheard with _ | _ | ⟨_, edits⟩ | ⟨_, edits, _⟩ | _ <;> cases edits
  | clear id accept =>
      rcases of_answered served with ⟨reply, cleared, rfl, rfl, accepts, _⟩
      cases outcome : reply.outcome with
      | error error => exact consistent.clear_silent cleared outcome
      | ok carried =>
          rw [accepts _ outcome] at unheard
          rcases unheard with _ | _ | ⟨_, edits⟩ | ⟨_, edits, _⟩ | _ <;> cases edits
  | externalEdit id line delta =>
      rcases of_answered served with ⟨reply, edited, rfl, rfl, accepts, _⟩
      exact externalEdit_silent edited (unheard.edit rfl accepts)
  | textChange id edit =>
      rcases of_answered served with ⟨reply, edited, rfl, rfl, accepts, _⟩
      exact externalEdit_silent edited (unheard.edit rfl accepts)
  | cancel id | fire stream | query id | count | describe =>
      cases served
      rfl
  | hostInsert name line lines | hostDelete name line count =>
      rw [Manager.serve] at served
      split at served <;> cases served <;> rfl

end Manager

namespace Traffic

variable {traffic : Traffic}

theorem Reaches.heard {allowed : Traffic → Action → Prop} (reaches : Reaches allowed traffic) :
    ∃ told, traffic.log = told.flatMap Bulletin.events ∧ traffic.manager.Heard told := by
  induction reaches with
  | start settings documents =>
      refine ⟨[], rfl, fun found => ?_, fun _ => rfl⟩
      simp [ofDocuments, Manager.ofDocuments] at found
  | step reached _ performed ih =>
      rcases ih with ⟨told, log, heard⟩
      rcases reached.consistent.effect performed with ⟨events, more, effect⟩
      rcases effect.heard reached.consistent.manager heard with ⟨bulletins, same, _, heard⟩
      exact ⟨told ++ bulletins, by rw [more, log, same, List.flatMap_append], heard⟩

/-- All that observers are told is a sequence of bulletins, each of which tells, right after an act
of a session, of this session and of the text of its document. Those of one stream keep to the
protocol: first it goes line by line, which may add a block each time, then through a review in
which blocks only get fewer, and at most once it is closed and empty. Refusals, edits that are
ignored or move nothing, and sessions that take over are not published. -/
theorem streams_keep_to_protocol (reachable : traffic.Reachable) :
    ∃ told, traffic.log = told.flatMap Bulletin.events ∧
      (∀ stream, Bulletin.Protocol (Bulletin.ofStream stream told)) ∧
      (∀ action later, traffic.perform action = .ok later → ∃ bulletins,
        later.log = traffic.log ++ bulletins.flatMap Bulletin.events ∧
        (bulletins = [] ∨
          Manager.Publishes (traffic.target? action) traffic.manager bulletins later.manager)) ∧
      ∀ request manager events answer,
        traffic.manager.serve request = .ok (manager, events, answer) →
        traffic.manager.Unheard request answer → events = [] := by
  rcases reachable.heard with ⟨told, log, heard⟩
  refine ⟨told, log, heard.protocol, fun action later performed => ?_,
    fun request manager events answer served unheard =>
      reachable.consistent.manager.unheard served unheard⟩
  rcases reachable.consistent.effect performed with ⟨events, more, effect⟩
  rcases effect.heard reachable.consistent.manager heard with ⟨bulletins, same, publishes, _⟩
  exact ⟨bulletins, by rw [more, same], publishes⟩

def oneRejected : List Action :=
  [.move 0 .check, .move 0 (.receive .finished), .request (.resolve ⟨"t"⟩ ⟨⟨1⟩, 0⟩ false)]

/-- The added line, its review and the end of it are told in three bulletins, and the host's edit
of a session that streams is not told at all. -/
theorem oneRejected_keeps_to_protocol : ∃ later told,
    oneAdded.performAll oneRejected = .ok later ∧
      later.log = told.flatMap Bulletin.events ∧ told.length = 3 ∧
      Bulletin.Protocol (Bulletin.ofStream ⟨1⟩ told) ∧
      ∃ manager events answer,
        oneAdded.manager.serve (.externalEdit ⟨"t"⟩ 0 1) = .ok (manager, events, answer) ∧
          events = [] := by
  have length : (oneAdded.performAll oneRejected).map (fun later => later.log.length) = .ok 6 := by
    cbv
  cases performed : oneAdded.performAll oneRejected with
  | error fault =>
      rw [performed] at length
      cases length
  | ok later =>
      rw [performed] at length
      have reachable := oneAdded_reachable.run performed
      rcases streams_keep_to_protocol reachable with ⟨told, log, protocol, _⟩
      rcases streams_keep_to_protocol oneAdded_reachable with ⟨_, _, _, _, unheard⟩
      have served : oneAdded.manager.serve (.externalEdit ⟨"t"⟩ 0 1) =
          .ok (oneAdded.manager, [], .nothing) := by cbv
      have ignored : oneAdded.manager.Unheard (.externalEdit ⟨"t"⟩ 0 1) .nothing := by
        refine .ignored _ rfl fun opened known => ?_
        cases known
        rfl
      refine ⟨later, told, rfl, log, ?_, protocol ⟨1⟩, _, _, _, served,
        unheard _ _ _ _ served ignored⟩
      have count : later.log.length = 6 := Except.ok.inj length
      rw [log, Bulletin.length_events] at count
      omega

end Traffic

end Redline
