import Mathlib
import Redline.Proofs.Sharing

namespace Redline

namespace Traffic

variable {names : Renaming} {owner : String → BufferId} {mine : BufferId}
  {traffic later : Traffic} {action : Action}

/-- The actions of a history, and what each of them finds. A history ends where an action is
abandoned. -/
def steps (traffic : Traffic) : List Action → List (Traffic × Action)
  | [] => []
  | action :: rest =>
      (traffic, action) ::
        match traffic.perform action with
        | .ok later => later.steps rest
        | .error _ => []

def stepsFor (traffic : Traffic) (owner : String → BufferId) (mine : BufferId)
    (actions : List Action) : List (Traffic × Action) :=
  (traffic.steps actions).filter fun step => step.1.concern? owner step.2 = some mine

def only (traffic : Traffic) (names : Renaming) (owner : String → BufferId) (mine : BufferId)
    (actions : List Action) : List Action :=
  (traffic.stepsFor owner mine actions).map fun step => names.action mine step.1.runs step.2

def answers (steps : List (Traffic × Action)) : List Answer :=
  steps.filterMap fun step => step.1.answer? step.2

def minted? (traffic : Traffic) (action : Action) : Option StreamId :=
  match traffic.perform action with
  | .ok later =>
      if later.manager.started = traffic.manager.started then none
      else some ⟨traffic.manager.started + 1⟩
  | .error _ => none

def minted (traffic : Traffic) (owner : String → BufferId) (mine : BufferId)
    (actions : List Action) : List StreamId :=
  (traffic.stepsFor owner mine actions).filterMap fun step => step.1.minted? step.2

theorem stepsFor_own (own : traffic.concern? owner action = some mine)
    (performed : traffic.perform action = .ok later) (rest : List Action) :
    traffic.stepsFor owner mine (action :: rest) =
      (traffic, action) :: later.stepsFor owner mine rest := by
  rw [stepsFor, steps, performed, List.filter_cons, if_pos (decide_eq_true own)]
  rfl

theorem stepsFor_foreign (foreign : traffic.concern? owner action ≠ some mine)
    (performed : traffic.perform action = .ok later) (rest : List Action) :
    traffic.stepsFor owner mine (action :: rest) = later.stepsFor owner mine rest := by
  rw [stepsFor, steps, performed, List.filter_cons_of_neg (by simpa using foreign)]
  rfl

theorem answers_cons (traffic : Traffic) (action : Action) (steps : List (Traffic × Action)) :
    answers ((traffic, action) :: steps) = (traffic.answer? action).toList ++ answers steps := by
  rw [answers, List.filterMap_cons]
  cases traffic.answer? action with
  | none => rfl
  | some answer => rfl

/-- What is given out while an action is performed is told by how many were given out before. -/
theorem Consistent.counts (consistent : traffic.Consistent)
    (performed : traffic.perform action = .ok later) :
    later.manager.started = traffic.manager.started ∧ traffic.minted? action = none ∨
      later.manager.started = traffic.manager.started + 1 ∧
        traffic.minted? action = some ⟨traffic.manager.started + 1⟩ := by
  rcases consistent.effect performed with ⟨events, _, effect⟩
  rcases effect.started with same | more
  · exact .inl ⟨same, by simp [minted?, performed, same]⟩
  · exact .inr ⟨more, by simp [minted?, performed, more]⟩

theorem minted_own (own : traffic.concern? owner action = some mine)
    (performed : traffic.perform action = .ok later) (rest : List Action) :
    traffic.minted owner mine (action :: rest) =
      (traffic.minted? action).toList ++ later.minted owner mine rest := by
  rw [minted, minted, stepsFor_own own performed, List.filterMap_cons]
  cases traffic.minted? action with
  | none => rfl
  | some stream => rfl

theorem minted_foreign (foreign : traffic.concern? owner action ≠ some mine)
    (performed : traffic.perform action = .ok later) (rest : List Action) :
    traffic.minted owner mine (action :: rest) = later.minted owner mine rest := by
  rw [minted, minted, stepsFor_foreign foreign performed]

theorem minted_fault {fault : Fault} (performed : traffic.perform action = .error fault)
    (rest : List Action) : traffic.minted owner mine (action :: rest) = [] := by
  have none : traffic.minted? action = none := by rw [minted?, performed]
  rw [minted, stepsFor, steps, performed, List.filter_singleton]
  cases decide (traffic.concern? owner action = some mine) with
  | true => simp [none]
  | false => rfl

/-- A stream is given out once, and later than all before. -/
theorem Consistent.minted (consistent : traffic.Consistent) (owner : String → BufferId)
    (mine : BufferId) (actions : List Action) :
    (∀ stream ∈ traffic.minted owner mine actions, traffic.manager.started < stream.number) ∧
      (traffic.minted owner mine actions).Nodup := by
  induction actions generalizing traffic with
  | nil => exact ⟨fun _ member => absurd member List.not_mem_nil, List.nodup_nil⟩
  | cons action rest ih =>
      cases performed : traffic.perform action with
      | error fault =>
          rw [minted_fault performed]
          exact ⟨fun _ member => absurd member List.not_mem_nil, List.nodup_nil⟩
      | ok later =>
          rcases ih (consistent.perform performed) with ⟨above, distinct⟩
          have counts := consistent.counts performed
          have higher (stream : StreamId) (member : stream ∈ later.minted owner mine rest) :
              traffic.manager.started < stream.number := by
            have := above stream member
            omega
          by_cases own : traffic.concern? owner action = some mine
          · rw [minted_own own performed]
            rcases counts with ⟨_, none⟩ | ⟨more, new⟩
            · rw [none]
              exact ⟨higher, distinct⟩
            · rw [new]
              refine ⟨?_, List.nodup_cons.mpr ⟨fun member => ?_, distinct⟩⟩
              · intro stream member
                rcases List.mem_cons.mp member with rfl | member
                · exact Nat.lt_succ_self _
                · exact higher stream member
              · have later := above _ member
                rw [more] at later
                exact absurd later (Nat.lt_irrefl _)
          · rw [minted_foreign own performed]
            exact ⟨higher, distinct⟩

end Traffic

namespace Renaming

/-- Streams under the numbers of their places in a list, and all others behind them. -/
def inOrder (streams : List StreamId) : Renaming where
  stream stream :=
    if stream ∈ streams then ⟨streams.idxOf stream + 1⟩
    else ⟨streams.length + 1 + stream.number⟩
  injective first second same := by
    have place {stream : StreamId} (member : stream ∈ streams) :
        streams.idxOf stream < streams.length := List.idxOf_lt_length_iff.mpr member
    simp only at same
    split at same
    · rename_i member
      split at same
      · exact (List.idxOf_inj member).mp (Nat.succ.inj (StreamId.mk.inj same))
      · have := place member
        have := StreamId.mk.inj same
        omega
    · split at same
      · rename_i member
        have := place member
        have := StreamId.mk.inj same
        omega
      · exact congrArg StreamId.mk (Nat.add_left_cancel (StreamId.mk.inj same))

def Follows (names : Renaming) (streams : List StreamId) (started : Nat) : Prop :=
  ∀ place stream, streams[place]? = some stream → names.stream stream = ⟨started + 1 + place⟩

theorem inOrder_follows {streams : List StreamId} (distinct : streams.Nodup) :
    (inOrder streams).Follows streams 0 := by
  intro place stream found
  rcases List.getElem?_eq_some_iff.mp found with ⟨inside, rfl⟩
  show (if streams[place] ∈ streams then _ else _) = _
  rw [if_pos (List.getElem_mem inside), distinct.idxOf_getElem, Nat.zero_add, Nat.add_comm]

variable {names : Renaming} {streams : List StreamId} {stream : StreamId} {started : Nat}

theorem Follows.rest (follows : names.Follows (stream :: streams) started) :
    names.Follows streams (started + 1) := by
  intro place other found
  have moved : started + 1 + (place + 1) = started + 1 + 1 + place := by omega
  rw [follows (place + 1) other found, moved]

end Renaming

namespace Traffic

variable {names : Renaming} {owner : String → BufferId} {mine : BufferId} {gap : Nat}
  {full part later : Traffic} {action : Action} {actions rest : List Action}

/-- What is done for a buffer next is done to its excerpt as well, and is abandoned there if it
is abandoned. -/
theorem Excerpt.next (excerpt : Excerpt names owner mine gap full part)
    (consistent : full.Consistent) (owned : full.manager.Owned owner)
    (own : full.concern? owner action = some mine) (respects : action.Respects owner)
    (follows : names.Follows (full.minted owner mine (action :: rest)) part.manager.started) :
    Alike (fun later other => Excerpt names owner mine gap later other ∧
        names.Follows (later.minted owner mine rest) other.manager.started)
        (full.perform action) (part.perform (names.action mine full.runs action)) ∧
      part.answer? (names.action mine full.runs action) =
        (full.answer? action).map names.answer := by
  have fresh (later : Traffic) (performed : full.perform action = .ok later)
      (new : later.manager.started ≠ full.manager.started) :
      names.stream ⟨full.manager.started + 1⟩ = ⟨part.manager.started + 1⟩ := by
    rw [minted_own own performed] at follows
    rcases consistent.counts performed with ⟨same, _⟩ | ⟨_, minted⟩
    · exact absurd same new
    · rw [minted] at follows
      exact follows 0 _ rfl
  rcases excerpt.perform consistent owned own respects fresh with ⟨alike, answer⟩
  refine ⟨alike.known.imp ?_, answer⟩
  rintro later other ⟨performed, managers⟩
  refine ⟨managers, ?_⟩
  rw [minted_own own performed] at follows
  have behind := excerpt.manager.started
  have still := managers.manager.started
  rcases consistent.counts performed with ⟨same, none⟩ | ⟨more, new⟩
  · rw [none] at follows
    rw [show other.manager.started = part.manager.started by omega]
    exact follows
  · rw [new] at follows
    rw [show other.manager.started = part.manager.started + 1 by omega]
    exact follows.rest

/-- Without what is done for other buffers, a history leads to the excerpt of what it leads to
with it. -/
theorem Excerpt.performAll (excerpt : Excerpt names owner mine gap full part)
    (consistent : full.Consistent) (owned : full.manager.Owned owner)
    (separate : ∀ action ∈ actions, action.Respects owner)
    (follows : names.Follows (full.minted owner mine (actions ++ rest)) part.manager.started)
    (performed : full.performAll actions = .ok later) :
    later.manager.Owned owner ∧ ∃ wider final,
      part.performAll (full.only names owner mine actions) = .ok final ∧
        Excerpt names owner mine wider later final ∧
        names.Follows (later.minted owner mine rest) final.manager.started ∧
        answers (part.steps (full.only names owner mine actions)) =
          (answers (full.stepsFor owner mine actions)).map names.answer := by
  -- The gap varies because it grows with every session of another buffer.
  induction actions generalizing full part gap with
  | nil =>
      cases performed
      exact ⟨owned, gap, part, rfl, excerpt, follows, rfl⟩
  | cons action more ih =>
      rcases bind_eq_ok.mp performed with ⟨next, first, last⟩
      rcases List.forall_mem_cons.mp separate with ⟨respects, remaining⟩
      have kept := consistent.owned owned first respects
      have still := consistent.perform first
      by_cases own : full.concern? owner action = some mine
      · rcases excerpt.next consistent owned own respects follows with ⟨alike, answer⟩
        rcases alike.of_ok first with ⟨other, carried, managers, further⟩
        rcases ih managers still kept remaining further last with
          ⟨ownership, wider, final, carries, excerpts, follows, answers⟩
        rw [only, stepsFor_own own first, List.map_cons, ← only]
        refine ⟨ownership, wider, final, ?_, excerpts, follows, ?_⟩
        · rw [Traffic.performAll, carried, ok_bind, carries]
        · rw [steps, carried, answers_cons, answers_cons, answer, List.map_append]
          refine congrArg₂ _ ?_ answers
          cases full.answer? action with
          | none => rfl
          | some answer => rfl
      · rcases excerpt.skip consistent owned own first with ⟨wider, managers⟩
        rw [List.cons_append, minted_foreign own first] at follows
        rw [only, stepsFor_foreign own first, ← only]
        exact ih managers still kept remaining follows last

/-- Two managers at work that are the same to one buffer, up to the numbers of streams. -/
structure Agrees (names : Renaming) (owner : String → BufferId) (mine : BufferId)
    (full part : Traffic) : Prop where
  report : part.manager.report mine = names.report (full.manager.report mine)
  documents : ∀ name, owner name = mine →
    part.manager.document name = full.manager.document name
  runs : part.runs = (full.runs.filter (·.handle.buffer = mine)).map names.run
  log : part.log = (full.log.filter (·.buffer = mine)).map names.event

theorem Excerpt.agrees (excerpt : Excerpt names owner mine gap full part)
    (consistent : full.Consistent) : Agrees names owner mine full part where
  report := excerpt.manager.report consistent.manager
  documents := excerpt.manager.documents
  runs := excerpt.runs
  log := excerpt.log

theorem ofDocuments_excerpt (names : Renaming) (owner : String → BufferId) (mine : BufferId)
    (settings : DiffSettings) (documents : Table String Buffer) :
    Excerpt names owner mine 0 (ofDocuments settings documents)
      (ofDocuments settings documents) where
  manager := ⟨rfl, fun _ _ => rfl, fun _ => rfl, rfl, rfl⟩
  runs := rfl
  log := rfl

/-- As long as different buffers edit different documents, each buffer is served as if nothing
were done for the others. If that is deleted from a history, then up to the numbers of streams
the requests for the buffer are answered the same, and after each of them the reports, the
documents, the runs and the events of the buffer are the same. What comes next goes on in the same
way, also if it is abandoned. -/
theorem buffers_are_isolated (settings : DiffSettings) (documents : Table String Buffer)
    (owner : String → BufferId) {actions : List Action}
    (separate : ∀ action ∈ actions, action.Respects owner) (mine : BufferId) :
    let start := ofDocuments settings documents
    ∃ names : Renaming, ∀ first, first <+: actions → ∀ full,
      start.performAll first = .ok full →
        ∃ part, start.performAll (start.only names owner mine first) = .ok part ∧
          Agrees names owner mine full part ∧
          answers (start.steps (start.only names owner mine first)) =
            (answers (start.stepsFor owner mine first)).map names.answer ∧
          ∀ action, first ++ [action] <+: actions → full.concern? owner action = some mine →
            Alike (Agrees names owner mine) (full.perform action)
              (part.perform (names.action mine full.runs action)) := by
  intro start
  have consistent : start.Consistent := ofDocuments_consistent settings documents
  have distinct := (consistent.minted owner mine actions).2
  refine ⟨.inOrder (start.minted owner mine actions), ?_⟩
  have follows := Renaming.inOrder_follows distinct
  generalize Renaming.inOrder (start.minted owner mine actions) = names at follows
  rintro first ⟨rest, rfl⟩ full performed
  have blank : start.manager.Owned owner := fun _ _ found => by
    simp [start, ofDocuments, Manager.ofDocuments] at found
  rcases (ofDocuments_excerpt names owner mine settings documents).performAll consistent blank
    (fun action member => separate action (List.mem_append_left _ member))
    follows performed with ⟨owned, gap, part, carried, excerpt, follows, answers⟩
  have reachable : full.Reachable := Reachable.run (.start settings documents) performed
  have later := reachable.consistent
  refine ⟨part, carried, excerpt.agrees later, answers, ?_⟩
  rintro action ⟨more, next⟩ own
  rw [List.append_assoc] at next
  obtain rfl : [action] ++ more = rest := List.append_cancel_left next
  have respects := separate action (by simp)
  refine (excerpt.next later owned own respects follows).1.known.imp ?_
  rintro after other ⟨acted, managers, _⟩
  exact managers.agrees (later.perform acted)

/-- Two buffers take turns. A line is added to the second one while the first one has its run, and
that line is rejected. -/
def takingTurns : List Action :=
  [.request (.start ⟨"a"⟩ "a" ⟨0, 0⟩), .request (.start ⟨"b"⟩ "b" ⟨0, 0⟩),
    .launch ⟨⟨"a"⟩, ⟨1⟩⟩, .launch ⟨⟨"b"⟩, ⟨2⟩⟩, .move 0 .check, .move 1 .check,
    .move 1 (.receive (.line ⟨.added, "z"⟩)), .move 0 (.receive (.line ⟨.removed, "x"⟩)),
    .move 1 .check, .move 1 (.receive .finished), .request (.clear ⟨"a"⟩ true),
    .request (.resolve ⟨"b"⟩ ⟨⟨2⟩, 0⟩ false)]

theorem takingTurns_isolates :
    let start := ofDocuments .standard ⟨[("a", ⟨["x"]⟩), ("b", ⟨["y"]⟩)]⟩
    (∀ action ∈ takingTurns, action.Respects BufferId.mk) ∧ ∃ names part,
      start.performAll (start.only names BufferId.mk ⟨"b"⟩ takingTurns) = .ok part ∧
        part.manager.document "b" = ⟨["y"]⟩ ∧ part.log.length = 6 ∧
        answers (start.steps (start.only names BufferId.mk ⟨"b"⟩ takingTurns)) =
          [.started ⟨⟨"b"⟩, names.stream ⟨2⟩⟩,
            .resolved ⟨⟨names.blockId ⟨⟨2⟩, 0⟩, 0, 0, 1⟩, 0, true⟩] := by
  intro start
  have separate : ∀ action ∈ takingTurns, action.Respects BufferId.mk := by
    simp [takingTurns, Action.Respects, Request.Respects]
  have outcome : (start.performAll takingTurns).map (fun full =>
      (full.manager.document "b", (full.log.filter (·.buffer = ⟨"b"⟩)).length)) =
        .ok (⟨["y"]⟩, 6) := by cbv
  have asked : answers (start.stepsFor BufferId.mk ⟨"b"⟩ takingTurns) =
      [.started ⟨⟨"b"⟩, ⟨2⟩⟩, .resolved ⟨⟨⟨⟨2⟩, 0⟩, 0, 0, 1⟩, 0, true⟩] := by cbv
  cases performed : start.performAll takingTurns with
  | error fault =>
      rw [performed] at outcome
      cases outcome
  | ok full =>
      rw [performed] at outcome
      rcases Prod.mk.inj (Except.ok.inj outcome) with ⟨document, told⟩
      rcases buffers_are_isolated .standard _ BufferId.mk separate ⟨"b"⟩ with ⟨names, isolated⟩
      rcases isolated takingTurns List.prefix_rfl full performed with
        ⟨part, carried, agrees, answered, _⟩
      refine ⟨separate, names, part, carried, (agrees.documents "b" rfl).trans document, ?_, ?_⟩
      · rw [agrees.log, List.length_map, told]
      · rw [answered, asked]
        rfl

end Traffic

end Redline
