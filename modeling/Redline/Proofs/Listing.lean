import Mathlib.Data.List.Nodup
import Redline.Proofs.Superseding

namespace Redline

namespace Manager

variable {manager later : Manager} {events : List Event} {target : Option StreamId}
  {request : Option Request}

def atWork (manager : Manager) (stream : StreamId) : Bool :=
  (manager.sessions.get? stream).any fun opened => opened.session.state != .idle

/-- An entry names the buffer and the stream of a session that is open. If it is under review,
there is something left to review. -/
structure Lists (manager : Manager) (id : BufferId) (stream : StreamId) (opened : Opened) :
    Prop where
  found : manager.sessions.get? stream = some opened
  bufferId : opened.session.bufferId = id
  stream : opened.session.stream = stream
  live : opened.session.state ≠ .idle
  busy : opened.session.state = .reviewing → opened.session.registry.blocks ≠ []

theorem Consistent.lists (consistent : manager.Consistent) {id : BufferId} {stream : StreamId}
    (current : manager.current.get? id = some stream) :
    ∃ opened, manager.Lists id stream opened := by
  rcases consistent.current current with ⟨opened, found, bufferId, live⟩
  rcases consistent.filed found with ⟨own, _, orderly⟩
  exact ⟨opened, found, bufferId, own, live, orderly.coherent.blocks_ne_nil⟩

theorem Consistent.atWork (consistent : manager.Consistent) {id : BufferId} {stream : StreamId}
    (current : manager.current.get? id = some stream) : manager.atWork stream = true := by
  rcases consistent.lists current with ⟨opened, lists⟩
  rw [Manager.atWork, lists.found]
  exact bne_iff_ne.mpr lists.live

theorem Consistent.state?_ne_idle (consistent : manager.Consistent) (id : BufferId) :
    manager.state? id ≠ some .idle := by
  rw [state?]
  intro idle
  rcases Option.map_eq_some_iff.mp idle with ⟨opened, found, closed⟩
  exact (consistent.on_table found).2.2.2 closed

theorem Consistent.streams_distinct (consistent : manager.Consistent)
    (distinct : manager.current.keys.Nodup) :
    (manager.current.entries.map Prod.snd).Nodup := by
  refine List.Nodup.map_on ?_ distinct.of_map
  intro first here second there same
  have one := (manager.current.mem_entries distinct).mp here
  have other := (manager.current.mem_entries distinct).mp there
  rw [← same] at other
  exact Prod.ext (consistent.unshared one other) same

theorem Consistent.activeCount (consistent : manager.Consistent)
    (distinct : manager.current.keys.Nodup) :
    manager.activeCount = (manager.current.entries.map Prod.snd).countP manager.atWork := by
  have working : ∀ stream ∈ manager.current.entries.map Prod.snd,
      manager.atWork stream = true := by
    intro stream member
    rcases List.mem_map.mp member with ⟨entry, listed, rfl⟩
    exact consistent.atWork ((manager.current.mem_entries distinct).mp listed)
  rw [List.countP_eq_length.mpr working, List.length_map]
  rfl

theorem Effect.distinct (effect : manager.Effect target request events later)
    (consistent : manager.Consistent) (distinct : manager.current.keys.Nodup) :
    later.current.keys.Nodup := by
  cases effect with
  | changes changes =>
      exact @Changes.invariant _ _ _ _ (fun middle _ => middle.current.keys.Nodup)
        (fun _ _ turns distinct => (turns.listed.map Prod.fst).nodup distinct)
        changes consistent [] distinct
  | host buffer _ => exact distinct
  | opens _ opens =>
      rw [opens.listed]
      exact Table.nodup_keys_set distinct _ _
  | strands _ _ _ strands => exact (strands.listed.map Prod.fst).nodup distinct

/-- The entry of a stream is there, or it was that of the session meant and is gone. -/
def Releases (manager : Manager) (target : Option StreamId) (id : BufferId) (stream : StreamId) :
    Prop :=
  manager.current.get? id = some stream ∨
    target = some stream ∧ manager.current.get? id = none

theorem Turns.releases {opened : Opened} {next : Session} {after : Buffer} {id : BufferId}
    {stream : StreamId} (turns : manager.Turns opened next after events later)
    (own : target = some opened.session.stream) (releases : manager.Releases target id stream) :
    later.Releases target id stream := by
  rw [Releases, turns.current]
  split
  · rename_i left
    rcases releases with same | ⟨_, absent⟩
    · exact .inr ⟨own.trans (left.2.2.symm.trans same), rfl⟩
    · rw [left.2.2] at absent
      cases absent
  · exact releases

theorem Effect.leaves (effect : manager.Effect target request events later)
    (consistent : manager.Consistent)
    (meant : ∀ asked, request = some asked → target = manager.target? asked) {id : BufferId}
    {stream : StreamId} (before : manager.current.get? id = some stream)
    (gone : later.current.get? id ≠ some stream) :
    target = some stream ∧ later.current.get? id = none ∨
      ∃ document range, request = some (.start id document range) ∧
        later.current.get? id = some ⟨manager.started + 1⟩ := by
  cases effect with
  | changes changes =>
      have kept := @Changes.invariant _ _ _ _ (fun middle _ => middle.Releases target id stream)
        (fun _ own turns releases => turns.releases own releases) changes consistent []
        (.inl before)
      exact .inl (kept.resolve_left gone)
  | host buffer _ => exact absurd before gone
  | opens _ opens =>
      rw [opens.current] at gone ⊢
      split at gone
      · rename_i own
        subst own
        exact .inr ⟨_, _, rfl, if_pos rfl⟩
      · exact absurd before gone
  | strands _ _ _ strands =>
      rw [strands.current] at gone ⊢
      split at gone
      · rename_i own
        subst own
        refine .inl ⟨?_, if_pos rfl⟩
        rw [meant _ rfl]
        exact before
      · exact absurd before gone

end Manager

namespace Traffic

variable {traffic later : Traffic} {action : Action}

theorem Reaches.distinct {allowed : Traffic → Action → Prop} (reaches : Reaches allowed traffic) :
    traffic.manager.current.keys.Nodup := by
  induction reaches with
  | start settings documents => exact List.nodup_nil
  | step reached _ performed ih =>
      rcases reached.consistent.effect performed with ⟨events, _, effect⟩
      exact effect.distinct reached.consistent.manager ih

theorem Consistent.leaves (consistent : traffic.Consistent)
    (performed : traffic.perform action = .ok later) {id : BufferId} {stream : StreamId}
    (before : traffic.manager.current.get? id = some stream)
    (gone : later.manager.current.get? id ≠ some stream) :
    traffic.target? action = some stream ∧ later.manager.current.get? id = none ∨
      ∃ document range, action = .request (.start id document range) ∧
        later.manager.current.get? id = some ⟨traffic.manager.started + 1⟩ := by
  rcases consistent.effect performed with ⟨events, _, effect⟩
  have meant : ∀ asked, action.request? = some asked →
      traffic.target? action = traffic.manager.target? asked := by
    intro asked same
    cases action with
    | request request => rw [← Option.some.inj same, target?]
    | _ => cases same
  rcases effect.leaves consistent.manager meant before gone with
    own | ⟨document, range, asked, replaced⟩
  · exact .inl own
  · cases action with
    | request request => exact .inr ⟨document, range, by rw [Option.some.inj asked], replaced⟩
    | _ => cases asked

/-- Whatever has been asked for and however many runs are under way, every entry of the table
leads to an open session of its own buffer and stream, with blocks left if it is under review, no
buffer and no stream has two entries, and so no closed session is reported or counted. An action
takes no other entry off the table than that of the session it is meant for, apart from a start,
which puts the new session in the place of the one it supersedes. -/
theorem table_leads_to_open_sessions (reachable : traffic.Reachable) :
    let manager := traffic.manager
    (∀ entry ∈ manager.current.entries, ∃ opened, manager.Lists entry.1 entry.2 opened) ∧
    manager.current.keys.Nodup ∧ (manager.current.entries.map Prod.snd).Nodup ∧
    (∀ id, manager.state? id ≠ some .idle) ∧
    (∀ id stream, manager.stream? id = some stream → manager.atWork stream = true) ∧
    manager.activeCount = (manager.current.entries.map Prod.snd).countP manager.atWork ∧
    ∀ action later, traffic.perform action = .ok later → ∀ entry ∈ manager.current.entries,
      entry ∉ later.manager.current.entries →
        traffic.target? action = some entry.2 ∧ entry.1 ∉ later.manager.current.keys ∨
        ∃ document range, action = .request (.start entry.1 document range) ∧
          (entry.1, ⟨manager.started + 1⟩) ∈ later.manager.current.entries := by
  have consistent := reachable.consistent
  have distinct := reachable.distinct
  have listed {entry : BufferId × StreamId}
      (member : entry ∈ traffic.manager.current.entries) :=
    (traffic.manager.current.mem_entries distinct).mp member
  refine ⟨fun entry member => consistent.manager.lists (listed member), distinct,
    consistent.manager.streams_distinct distinct, consistent.manager.state?_ne_idle,
    fun id stream known => consistent.manager.atWork known,
    consistent.manager.activeCount distinct, ?_⟩
  intro action later performed entry member gone
  have after := (Reaches.step reachable trivial performed).distinct
  have found {other : BufferId × StreamId} :=
    @Table.mem_entries _ _ _ later.manager.current after other
  rw [found] at gone
  rcases consistent.leaves performed (listed member) gone with
    ⟨own, absent⟩ | ⟨document, range, asked, replaced⟩
  · refine .inl ⟨own, fun known => ?_⟩
    rcases List.mem_map.mp known with ⟨other, there, same⟩
    rw [← same, found.mp there] at absent
    cases absent
  · exact .inr ⟨document, range, asked, found.mpr replaced⟩

/-- The run of a session that was superseded notices its token and ends. The session that is
current by now stays on the table. -/
theorem oneAdded_superseded_leaves_table : ∃ replaced later,
    oneAdded.perform (.request (.start ⟨"t"⟩ "d" ⟨0, 1⟩)) = .ok replaced ∧
      replaced.perform (.move 0 .interrupt) = .ok later ∧
      later.runs = [.ended ⟨⟨"t"⟩, ⟨1⟩⟩ (.cancelled 1)] ∧
      (⟨"t"⟩, ⟨2⟩) ∈ later.manager.current.entries := by
  refine ⟨_, _, rfl, rfl, rfl, ?_⟩
  have reachable : Reachable _ := @Reaches.step _ oneAdded _
    (.request (.start ⟨"t"⟩ "d" ⟨0, 1⟩)) oneAdded_reachable trivial rfl
  rcases table_leads_to_open_sessions reachable with ⟨_, _, _, _, _, _, stays⟩
  by_contra gone
  rcases stays (.move 0 .interrupt) _ rfl (⟨"t"⟩, ⟨2⟩) (List.mem_singleton.mpr rfl) gone with
    ⟨own, _⟩ | ⟨document, range, asked, _⟩
  · cases own
  · cases asked

end Traffic

end Redline
