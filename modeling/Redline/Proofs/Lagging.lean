import Mathlib.Data.List.DropRight
import Redline.Broadcast

/-! Subscribers that fall behind. A channel keeps its latest items, as many as its ring has room
for. What a subscriber has not had yet is told by the history of the channel; as long as the ring
has room for all of it, reading without waiting gives it item by item. Once it has not, one reading
gives nothing although items are waiting. -/

namespace Redline

def Reading.item? {α : Type} : Reading α → Option α
  | .item found => some found
  | _ => none

namespace Channel

variable {α : Type} {channel : Channel α} {name other : String} {unread items : List α} {item : α}

/-! ## The latest items -/

section Latest

variable {count : Nat}

theorem keepLast_eq_self (few : items.length ≤ count) : keepLast count items = items := by
  rw [keepLast, Nat.sub_eq_zero_of_le few, List.drop_zero]

theorem length_keepLast (count : Nat) (items : List α) :
    (keepLast count items).length = min count items.length := by
  rw [keepLast, List.length_drop]
  omega

theorem keepLast_keepLast (fewer count : Nat) (items : List α) :
    keepLast fewer (keepLast count items) = keepLast (min fewer count) items := by
  rw [keepLast, length_keepLast, keepLast, keepLast, List.drop_drop]
  congr 1
  omega

theorem keepLast_concat (count : Nat) (items : List α) (item : α) :
    keepLast (count + 1) (items ++ [item]) = keepLast count items ++ [item] :=
  List.rtake_concat_succ items count item

theorem tail_keepLast (enough : count < items.length) :
    (keepLast (count + 1) items).tail = keepLast count items := by
  rw [keepLast, keepLast, List.tail_drop]
  congr 1
  omega

end Latest

/-! ## What a subscriber has not had yet -/

inductive Call (α : Type) where
  | publish (item : α)
  | read (name : String)
  | subscribe (name : String)
  | unsubscribe (name : String)
  deriving DecidableEq, Repr

def perform (channel : Channel α) : Call α → Channel α
  | .publish item => channel.publish item
  | .read name => (channel.tryReceive name).2
  | .subscribe name => channel.subscribe name
  | .unsubscribe name => channel.unsubscribe name

def performAll (channel : Channel α) (calls : List (Call α)) : Channel α :=
  calls.foldl perform channel

/-- What is left to read after one reading. If the ring has no room for all of it, the reading takes
no item, and those that are gone from the ring are passed over. -/
def rest (room : Nat) (unread : List α) : List α :=
  if room < unread.length then keepLast room unread else unread.tail

def owe (room : Nat) (name : String) (unread : Option (List α)) : Call α → Option (List α)
  | .publish item => unread.map (· ++ [item])
  | .read other => if other = name then unread.map (rest room) else unread
  | .subscribe other => if other = name then some [] else unread
  | .unsubscribe other => if other = name then none else unread

/-- The items published since `name` subscribed that it has neither had nor passed over, in the
order of publication, if it subscribes. Some may be gone from the ring. -/
def owed (room : Nat) (name : String) (calls : List (Call α)) : Option (List α) :=
  calls.foldl (owe room name) none

def waiting (channel : Channel α) (name : String) : List α :=
  match channel.subscribers.get? name with
  | none => []
  | some wanted => channel.kept.drop (wanted - channel.oldest)

/-! ## The ring -/

structure Ring (channel : Channel α) : Prop where
  owned : channel.owned = true
  room : 0 < channel.capacity
  kept : channel.kept.length = min channel.sent channel.capacity

structure Owes (channel : Channel α) (name : String) (unread : List α) : Prop where
  sent : unread.length ≤ channel.sent
  place : channel.subscribers.get? name = some (channel.sent - unread.length)
  kept : keepLast unread.length channel.kept = keepLast channel.capacity unread

theorem Ring.isOpen (ring : channel.Ring) : channel.isOpen = true := by
  rw [Channel.isOpen, ring.owned, Bool.true_or]

theorem Ring.congr (ring : channel.Ring) (subscribers : Table String Nat) :
    Ring { channel with subscribers } :=
  ⟨ring.owned, ring.room, ring.kept⟩

theorem ofCapacity_ring (capacity : Nat) : (ofCapacity capacity : Channel α).Ring where
  owned := rfl
  room := Nat.pos_of_isPowerOfTwo (Nat.isPowerOfTwo_nextPowerOfTwo _)
  kept := (Nat.zero_min _).symm

/-! ## Reading -/

/-- A subscriber that is too far behind is told so and taken to the oldest item kept. -/
theorem Owes.read_overrun (owes : channel.Owes name unread) (ring : channel.Ring)
    (overrun : channel.capacity < unread.length) :
    channel.read (channel.sent - unread.length) =
      (.failed (.lagged (unread.length - channel.capacity)), channel.sent - channel.capacity) := by
  have full := ring.kept
  have sent := owes.sent
  have oldest : channel.oldest = channel.sent - channel.capacity := by
    rw [Channel.oldest]
    omega
  rw [read, oldest, if_pos (by omega)]
  congr 3
  omega

theorem Owes.read_next (owes : channel.Owes name unread) (ring : channel.Ring)
    (within : unread.length ≤ channel.capacity) :
    channel.read (channel.sent - unread.length) =
      (unread.head?.elim .pending .item, channel.sent - unread.tail.length) := by
  have full := ring.kept
  have sent := owes.sent
  have enough : unread.length ≤ channel.kept.length := by omega
  have wanted : channel.sent - unread.length - channel.oldest =
      channel.kept.length - unread.length := by
    rw [Channel.oldest]
    omega
  have found : channel.kept[channel.kept.length - unread.length]? = unread.head? := by
    have same := owes.kept
    rw [keepLast_eq_self within, keepLast] at same
    rw [← List.head?_drop, same]
  rw [read, if_neg (by rw [Channel.oldest]; omega), wanted, found]
  cases unread with
  | nil => simp [ring.isOpen]
  | cons item later =>
      rw [List.length_cons] at sent
      simp only [List.head?_cons, Option.elim_some, List.length_cons, List.tail_cons]
      congr 1
      omega

def moved (channel : Channel α) (name : String) (place : Nat) : Channel α :=
  { channel with subscribers := channel.subscribers.set name place }

theorem receive_known {wanted : Nat} (known : channel.subscribers.get? name = some wanted) :
    channel.receive name =
      ((channel.read wanted).1, channel.moved name (channel.read wanted).2) := by
  rw [receive, known]
  rfl

theorem receive_unknown (unknown : channel.subscribers.get? name = none) :
    channel.receive name = (.pending, channel) := by
  rw [receive, unknown]

theorem tryReceive_eq (channel : Channel α) (name : String) :
    channel.tryReceive name = ((channel.receive name).1.item?, (channel.receive name).2) := by
  rw [tryReceive]
  rcases channel.receive name with ⟨reading, next⟩
  cases reading <;> rfl

theorem Owes.tryReceive (owes : channel.Owes name unread) (ring : channel.Ring) :
    channel.tryReceive name =
      (if channel.capacity < unread.length then none else unread.head?,
        channel.moved name (channel.sent - (rest channel.capacity unread).length)) := by
  rw [tryReceive_eq, receive_known owes.place]
  by_cases overrun : channel.capacity < unread.length
  · have left : (rest channel.capacity unread).length = channel.capacity := by
      rw [rest, if_pos overrun, length_keepLast, Nat.min_eq_left (Nat.le_of_lt overrun)]
    rw [owes.read_overrun ring overrun, if_pos overrun, left]
    rfl
  · rw [owes.read_next ring (Nat.not_lt.mp overrun), if_neg overrun, rest, if_neg overrun]
    cases unread <;> rfl

theorem Owes.after_read (owes : channel.Owes name unread) (ring : channel.Ring) :
    (channel.moved name (channel.sent - (rest channel.capacity unread).length)).Owes name
      (rest channel.capacity unread) := by
  have full := ring.kept
  have sent := owes.sent
  have same := owes.kept
  have place (next : Nat) : (channel.moved name next).subscribers.get? name = some next := by
    rw [moved, Table.get?_set, if_pos rfl]
  rw [rest]
  split
  · rename_i overrun
    have left : (keepLast channel.capacity unread).length = channel.capacity := by
      rw [length_keepLast, Nat.min_eq_left (Nat.le_of_lt overrun)]
    refine ⟨Nat.le_trans (by rw [left]; exact Nat.le_of_lt overrun) sent, place _, ?_⟩
    calc
      keepLast (keepLast channel.capacity unread).length channel.kept =
          keepLast channel.capacity (keepLast unread.length channel.kept) := by
        rw [left, keepLast_keepLast, Nat.min_eq_left (Nat.le_of_lt overrun)]
      _ = keepLast channel.capacity (keepLast channel.capacity unread) := by rw [same]
  · rename_i within
    rw [keepLast_eq_self (Nat.not_lt.mp within)] at same
    cases unread with
    | nil => exact ⟨Nat.zero_le _, place _, by simp [keepLast]⟩
    | cons item later =>
        rw [List.length_cons] at within sent same
        have kept : keepLast later.length channel.kept = keepLast channel.capacity later := by
          calc
            keepLast later.length channel.kept =
                (keepLast (later.length + 1) channel.kept).tail :=
              (tail_keepLast (by omega)).symm
            _ = later := by rw [same, List.tail_cons]
            _ = keepLast channel.capacity later := (keepLast_eq_self (by omega)).symm
        exact ⟨Nat.le_of_succ_le sent, place _, kept⟩

theorem Owes.congr (owes : channel.Owes name unread) {subscribers : Table String Nat}
    (still : subscribers.get? name = channel.subscribers.get? name) :
    Owes { channel with subscribers } name unread where
  sent := owes.sent
  place := still.trans owes.place
  kept := owes.kept

theorem Owes.read_other (owes : channel.Owes name unread) (foreign : other ≠ name) :
    (channel.tryReceive other).2.Owes name unread := by
  rw [tryReceive_eq]
  cases found : channel.subscribers.get? other with
  | none =>
      rw [receive_unknown found]
      exact owes
  | some wanted =>
      rw [receive_known found]
      exact owes.congr (by rw [Table.get?_set, if_neg (Ne.symm foreign)])

/-! ## Publishing -/

theorem Owes.publish_eq (owes : channel.Owes name unread) (ring : channel.Ring) (item : α) :
    channel.publish item = { channel with
      kept := keepLast channel.capacity (channel.kept ++ [item])
      sent := channel.sent + 1 } := by
  have known : 0 < channel.subscribers.size := by
    refine Nat.pos_of_ne_zero fun none => ?_
    have place := owes.place
    rw [Table.get?, List.eq_nil_of_length_eq_zero none] at place
    cases place
  rw [publish, ring.isOpen, decide_eq_true known]
  rfl

theorem Owes.publish (owes : channel.Owes name unread) (ring : channel.Ring) (item : α) :
    (channel.publish item).Owes name (unread ++ [item]) := by
  obtain ⟨room, some⟩ := Nat.exists_eq_succ_of_ne_zero (Nat.ne_of_gt ring.room)
  have sent := owes.sent
  have same : keepLast (min unread.length room) channel.kept = keepLast room unread := by
    calc
      keepLast (min unread.length room) channel.kept =
          keepLast room (keepLast unread.length channel.kept) := by
        rw [keepLast_keepLast, Nat.min_comm]
      _ = keepLast room (keepLast (room + 1) unread) := by rw [owes.kept, some]
      _ = keepLast room unread := by
        rw [keepLast_keepLast, Nat.min_eq_left (Nat.le_succ room)]
  rw [owes.publish_eq ring]
  constructor
  · simpa using sent
  · rw [List.length_append, List.length_singleton, Nat.add_sub_add_right]
    exact owes.place
  · simp only [some, Nat.succ_eq_add_one, List.length_append, List.length_singleton]
    rw [keepLast_keepLast, Nat.add_min_add_right, keepLast_concat, keepLast_concat, same]

/-! ## Histories -/

theorem Ring.perform (ring : channel.Ring) (call : Call α) :
    (channel.perform call).Ring ∧ (channel.perform call).capacity = channel.capacity := by
  cases call with
  | publish item =>
      rw [Channel.perform, Channel.publish]
      split
      · refine ⟨⟨ring.owned, ring.room, ?_⟩, rfl⟩
        have full := ring.kept
        rw [length_keepLast, List.length_append, List.length_singleton]
        simp only
        omega
      · exact ⟨ring, rfl⟩
  | read name =>
      rw [Channel.perform, tryReceive_eq]
      cases found : channel.subscribers.get? name with
      | none =>
          rw [receive_unknown found]
          exact ⟨ring, rfl⟩
      | some wanted =>
          rw [receive_known found]
          exact ⟨ring.congr _, rfl⟩
  | subscribe name =>
      rw [Channel.perform, Channel.subscribe, if_pos ring.isOpen]
      exact ⟨ring.congr _, rfl⟩
  | unsubscribe name => exact ⟨ring.congr _, rfl⟩

/-- What the history says of a subscriber is where it stands in the ring. -/
theorem Ring.owes (ring : channel.Ring) {before : Option (List α)}
    (owes : ∀ unread, before = some unread → channel.Owes name unread) (call : Call α) :
    ∀ unread, owe channel.capacity name before call = some unread →
      (channel.perform call).Owes name unread := by
  intro unread after
  cases call with
  | publish item =>
      obtain ⟨earlier, known, rfl⟩ := Option.map_eq_some_iff.mp after
      exact (owes earlier known).publish ring item
  | read other =>
      rw [owe] at after
      split at after
      · rename_i own
        obtain ⟨earlier, known, rfl⟩ := Option.map_eq_some_iff.mp after
        rw [Channel.perform, own, (owes earlier known).tryReceive ring]
        exact (owes earlier known).after_read ring
      · rename_i foreign
        exact (owes unread after).read_other foreign
  | subscribe other =>
      rw [owe] at after
      rw [Channel.perform, Channel.subscribe, if_pos ring.isOpen]
      split at after
      · rename_i own
        rw [own, ← Option.some.inj after]
        exact ⟨Nat.zero_le _, by rw [Table.get?_set, if_pos rfl]; rfl, by simp [keepLast]⟩
      · rename_i foreign
        exact (owes unread after).congr (by rw [Table.get?_set, if_neg (Ne.symm foreign)])
  | unsubscribe other =>
      rw [owe] at after
      split at after
      · cases after
      · rename_i foreign
        exact (owes unread after).congr (by rw [Table.get?_erase, if_neg (Ne.symm foreign)])

theorem Ring.performAll (ring : channel.Ring) {before : Option (List α)}
    (owes : ∀ unread, before = some unread → channel.Owes name unread) (calls : List (Call α)) :
    (channel.performAll calls).Ring ∧ (channel.performAll calls).capacity = channel.capacity ∧
      ∀ unread, calls.foldl (owe channel.capacity name) before = some unread →
        (channel.performAll calls).Owes name unread := by
  induction calls generalizing channel before with
  | nil => exact ⟨ring, rfl, owes⟩
  | cons call later ih =>
      obtain ⟨next, room⟩ := ring.perform call
      have step := ring.owes owes call
      rw [← room] at step ⊢
      exact ih next step

/-! ## Draining -/

inductive Drains (name : String) : Channel α → List α → Channel α → Prop
  | stops {channel last : Channel α} :
      channel.tryReceive name = (none, last) → Drains name channel [] last
  | takes {channel next last : Channel α} {item : α} {items : List α} :
      channel.tryReceive name = (some item, next) → Drains name next items last →
        Drains name channel (item :: items) last

theorem Drains.unique {items others : List α} {last : Channel α} {close : Channel α}
    (drains : Drains name channel items last) (again : Drains name channel others close) :
    others = items := by
  induction drains generalizing others with
  | stops nothing =>
      cases again with
      | stops _ => rfl
      | takes something _ =>
          rw [nothing] at something
          cases something
  | takes something _ ih =>
      cases again with
      | stops nothing =>
          rw [something] at nothing
          cases nothing
      | takes same later =>
          rw [something] at same
          obtain ⟨first, rfl⟩ := Prod.mk.inj same
          rw [Option.some.inj first, ih later]

/-- While the ring has room for all that is unread, reading gives it item by item. -/
theorem Owes.drains (owes : channel.Owes name unread) (ring : channel.Ring)
    (within : unread.length ≤ channel.capacity) : ∃ last, Drains name channel unread last := by
  induction unread generalizing channel with
  | nil =>
      have nothing := owes.tryReceive ring
      rw [if_neg (Nat.not_lt.mpr within)] at nothing
      exact ⟨_, .stops nothing⟩
  | cons item later ih =>
      have left : rest channel.capacity (item :: later) = later := by
        rw [rest, if_neg (Nat.not_lt.mpr within), List.tail_cons]
      have next := owes.after_read ring
      have reads := owes.tryReceive ring
      rw [left] at next reads
      rw [if_neg (Nat.not_lt.mpr within)] at reads
      rw [List.length_cons] at within
      obtain ⟨last, drains⟩ := ih next (ring.congr _) (Nat.le_of_succ_le within)
      exact ⟨last, .takes reads drains⟩

theorem Owes.drains_iff (owes : channel.Owes name unread) (ring : channel.Ring) (items : List α) :
    (∃ last, Drains name channel items last) ↔
      items = if channel.capacity < unread.length then [] else unread := by
  have found : ∃ last, Drains name channel
      (if channel.capacity < unread.length then [] else unread) last := by
    split
    · rename_i overrun
      have nothing := owes.tryReceive ring
      rw [if_pos overrun] at nothing
      exact ⟨_, .stops nothing⟩
    · rename_i within
      exact owes.drains ring (Nat.not_lt.mp within)
  constructor
  · rintro ⟨last, drains⟩
    obtain ⟨_, known⟩ := found
    exact known.unique drains
  · rintro rfl
    exact found

theorem Owes.waiting (owes : channel.Owes name unread) (ring : channel.Ring) :
    channel.waiting name = keepLast channel.capacity unread := by
  have full := ring.kept
  have sent := owes.sent
  rw [Channel.waiting, owes.place, ← owes.kept, keepLast, Channel.oldest]
  simp only
  congr 1
  omega

/-- Reading without waiting gives nothing although items are waiting exactly if the ring has no room
for all that is unread. Otherwise it gives the oldest one of them, and reading until nothing comes
gives them all, in the order of publication. What a reading that hid them leaves in the ring, the
next readings give. -/
theorem reading_hides_once_overrun {capacity : Nat} (created : create capacity = .ok channel)
    (calls : List (Call α)) (known : owed channel.capacity name calls = some unread) :
    let room := channel.capacity
    let now := channel.performAll calls
    now.waiting name = keepLast room unread ∧
      (now.tryReceive name).1 = (if room < unread.length then none else unread.head?) ∧
      ((now.tryReceive name).1 = none ∧ now.waiting name ≠ [] ↔ room < unread.length) ∧
      (∀ items, (∃ last, Drains name now items last) ↔
        items = if room < unread.length then [] else unread) ∧
      (room < unread.length → ∀ items,
        (∃ last, Drains name (now.tryReceive name).2 items last) ↔
          items = keepLast room unread) := by
  have ring : channel.Ring := by
    rw [create] at created
    split at created
    · cases created
    · split at created
      · cases created
      · exact Except.ok.inj created ▸ ofCapacity_ring capacity
  have begun : ∀ unread, none = some unread → channel.Owes name unread := nofun
  obtain ⟨later, room, owes⟩ := ring.performAll begun calls
  have owes := owes unread known
  have waits := owes.waiting later
  have reads := owes.tryReceive later
  rw [room] at waits reads
  refine ⟨waits, congrArg Prod.fst reads, ?_, ?_, ?_⟩
  · rw [waits, reads, ← List.length_pos_iff, length_keepLast]
    constructor
    · rintro ⟨nothing, some⟩
      by_contra within
      rw [if_neg within, List.head?_eq_none_iff] at nothing
      rw [nothing, List.length_nil, Nat.min_zero] at some
      exact Nat.lt_irrefl 0 some
    · intro overrun
      exact ⟨if_pos overrun, Nat.lt_min.mpr ⟨ring.room, Nat.zero_lt_of_lt overrun⟩⟩
  · intro items
    rw [owes.drains_iff later, room]
  · -- The reading has moved on to the oldest item kept, and the ring has room for the rest.
    intro overrun items
    have left : rest channel.capacity unread = keepLast channel.capacity unread := if_pos overrun
    have next := owes.after_read later
    rw [room, left] at next
    have few : (keepLast channel.capacity unread).length ≤ channel.capacity := by
      rw [length_keepLast]
      exact Nat.min_le_left _ _
    have drains := next.drains_iff (later.congr _) items
    rw [reads, left]
    rw [if_neg (by rw [moved, room]; exact Nat.not_lt.mpr few)] at drains
    exact drains

def narrow : Channel Nat := ⟨1, [], 0, true, 0, .empty⟩

theorem narrow_created : create 1 = .ok narrow := by
  have room : (max 1 1).nextPowerOfTwo = 1 := by cbv
  rw [create, if_neg (by decide), if_neg (by decide), ofCapacity, room]
  rfl

/-- Two items are published at once; the second one comes with the second reading. -/
theorem narrow_hides_once :
    let calls := [.subscribe "host", .publish 1, .publish 2]
    owed narrow.capacity "host" calls = some [1, 2] ∧
      ((narrow.performAll calls).tryReceive "host").1 = none ∧
      (narrow.performAll calls).waiting "host" = [2] ∧
      ∃ last, Drains "host" ((narrow.performAll calls).tryReceive "host").2 [2] last := by
  have known : owed narrow.capacity "host" [.subscribe "host", .publish 1, .publish 2] =
      some [1, 2] := by decide
  obtain ⟨waits, reads, _, _, next⟩ := reading_hides_once_overrun narrow_created _ known
  exact ⟨known, reads, waits, (next (by decide) [2]).mpr rfl⟩

/-- A reading that gives nothing does not say that nothing is waiting. -/
theorem narrow_hides_waiting : ¬∀ (capacity : Nat) (channel : Channel Nat) (calls : List (Call Nat))
    (name : String), create capacity = .ok channel →
      ((channel.performAll calls).tryReceive name).1 = none →
        (channel.performAll calls).waiting name = [] := by
  intro always
  have none := always 1 narrow [.subscribe "host", .publish 1, .publish 2] "host" narrow_created rfl
  cases none

end Channel

end Redline
