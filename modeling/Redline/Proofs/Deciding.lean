import Mathlib.Data.List.Perm.Subperm
import Redline.Proofs.Reachability

namespace Redline

namespace Passage

def settled (decision : BlockId → Option Bool) : Passage → List Passage
  | kept text => [.kept text]
  | change id removed added =>
      match decision id with
      | none => [.change id removed added]
      | some true => added.map .kept
      | some false => removed.map .kept

def outcome (choice : BlockId → Bool) : Passage → List String
  | kept text => [text]
  | change id removed added => if choice id then added else removed

end Passage

namespace Draft

variable {draft front back : List Passage} {decision : BlockId → Option Bool}
  {choice : BlockId → Bool} {id : BlockId} {removed added : List String}

def settled (decision : BlockId → Option Bool) (draft : List Passage) : List Passage :=
  draft.flatMap (Passage.settled decision)

/-- The text that a choice for every change leads to. -/
def outcome (choice : BlockId → Bool) (draft : List Passage) : List String :=
  draft.flatMap (Passage.outcome choice)

theorem settled_cons (passage : Passage) (rest : List Passage) :
    settled decision (passage :: rest) = passage.settled decision ++ settled decision rest :=
  List.flatMap_cons

theorem outcome_cons (passage : Passage) (rest : List Passage) :
    outcome choice (passage :: rest) = passage.outcome choice ++ outcome choice rest :=
  List.flatMap_cons

theorem settled_kept (decision : BlockId → Option Bool) (texts : List String) :
    settled decision (texts.map .kept) = texts.map .kept := by
  induction texts with
  | nil => rfl
  | cons text rest ih =>
      rw [List.map_cons, settled_cons, ih]
      rfl

theorem settled_none (undecided : ∀ id ∈ ids draft, decision id = none) :
    settled decision draft = draft := by
  induction draft with
  | nil => rfl
  | cons passage rest ih =>
      rw [settled_cons]
      cases passage with
      | kept text =>
          rw [ih undecided]
          rfl
      | change id removed added =>
          have first := undecided id List.mem_cons_self
          rw [ih fun other member => undecided other (List.mem_cons_of_mem id member)]
          simp [Passage.settled, first]

theorem settled_settled (first second : BlockId → Option Bool) (draft : List Passage) :
    settled second (settled first draft) =
      settled (fun id => (first id).or (second id)) draft := by
  simp only [settled, List.flatMap_assoc]
  apply List.flatMap_congr
  intro passage _
  cases passage with
  | kept text => rfl
  | change id removed added =>
      cases decided : first id with
      | none => simp [Passage.settled, decided]
      | some accept =>
          cases accept with
          | true =>
              have same := settled_kept second added
              rw [settled] at same
              simpa [Passage.settled, decided] using same
          | false =>
              have same := settled_kept second removed
              rw [settled] at same
              simpa [Passage.settled, decided] using same

theorem outcome_kept (choice : BlockId → Bool) (texts : List String) :
    outcome choice (texts.map .kept) = texts := by
  induction texts with
  | nil => rfl
  | cons text rest ih =>
      rw [List.map_cons, outcome_cons, ih]
      rfl

/-- Decisions taken before a choice for the rest take part in the text it leads to. -/
theorem outcome_settled (choice : BlockId → Bool) (decision : BlockId → Option Bool)
    (draft : List Passage) : outcome choice (settled decision draft) =
      outcome (fun id => (decision id).getD (choice id)) draft := by
  simp only [settled, outcome, List.flatMap_assoc]
  apply List.flatMap_congr
  intro passage _
  cases passage with
  | kept text => rfl
  | change id removed added =>
      cases decided : decision id with
      | none => simp [Passage.settled, Passage.outcome, decided]
      | some accept =>
          cases accept with
          | true =>
              have same := outcome_kept choice added
              rw [outcome] at same
              simpa [Passage.settled, Passage.outcome, decided] using same
          | false =>
              have same := outcome_kept choice removed
              rw [outcome] at same
              simpa [Passage.settled, Passage.outcome, decided] using same

theorem outcome_append (choice : BlockId → Bool) (front back : List Passage) :
    outcome choice (front ++ back) = outcome choice front ++ outcome choice back :=
  List.flatMap_append

theorem lines_eq_outcome (draft : List Passage) : lines draft = outcome (fun _ => true) draft := by
  apply List.flatMap_congr
  intro passage _
  cases passage <;> rfl

theorem outcome_congr {other : BlockId → Bool} (same : ∀ id ∈ ids draft, choice id = other id) :
    outcome choice draft = outcome other draft := by
  induction draft with
  | nil => rfl
  | cons passage rest ih =>
      rw [outcome_cons, outcome_cons]
      cases passage with
      | kept text =>
          rw [ih same]
          rfl
      | change id removed added =>
          rcases List.forall_mem_cons.mp same with ⟨first, later⟩
          rw [ih later, Passage.outcome, Passage.outcome, first]

theorem ids_settled (decision : BlockId → Option Bool) (draft : List Passage) :
    ids (settled decision draft) = (ids draft).filter fun id => (decision id).isNone := by
  induction draft with
  | nil => rfl
  | cons passage rest ih =>
      rw [settled_cons, ids_append, ih]
      cases passage with
      | kept text => rfl
      | change id removed added =>
          rw [ids_change_cons, List.filter_cons]
          cases decided : decision id with
          | none => simp [Passage.settled, decided]
          | some accept => cases accept <;> simp [Passage.settled, decided]

theorem size_settled_le (decision : BlockId → Option Bool) (draft : List Passage) :
    size (settled decision draft) ≤ size draft := by
  induction draft with
  | nil => exact Nat.le_refl _
  | cons passage rest ih =>
      rw [settled_cons, size_append, size_cons]
      apply Nat.add_le_add _ ih
      cases passage with
      | kept text => exact Nat.le_refl _
      | change id removed added =>
          cases decided : decision id with
          | none => simp [Passage.settled, decided]
          | some accept => cases accept <;> simp [Passage.settled, decided, Passage.size]

def only (id : BlockId) (accept : Bool) (other : BlockId) : Option Bool :=
  if other = id then some accept else none

theorem settled_only (distinct : (ids (front ++ .change id removed added :: back)).Nodup)
    (accept : Bool) : settled (only id accept) (front ++ .change id removed added :: back) =
      front ++ ((if accept then added else removed).map .kept ++ back) := by
  rw [ids_append, ids_change_cons, List.nodup_append, List.nodup_cons] at distinct
  have above : settled (only id accept) front = front := by
    apply settled_none
    intro other member
    exact if_neg (distinct.2.2 other member id List.mem_cons_self)
  have below : settled (only id accept) back = back := by
    apply settled_none
    intro other member
    refine if_neg fun same => ?_
    rw [same] at member
    exact distinct.2.1.1 member
  have decided : Passage.settled (only id accept) (.change id removed added) =
      (if accept then added else removed).map .kept := by
    cases accept <;> simp [Passage.settled, only]
  have divided : settled (only id accept) (front ++ .change id removed added :: back) =
      settled (only id accept) front ++ (Passage.settled (only id accept)
        (.change id removed added) ++ settled (only id accept) back) := by
    simp only [settled, List.flatMap_append, List.flatMap_cons]
  rw [divided, above, below, decided]

theorem reverted_lines (draft : List Passage) (more : List String) :
    reverted draft (lines draft ++ more) = outcome (fun _ => false) draft ++ more := by
  induction draft with
  | nil => rfl
  | cons passage rest ih =>
      rw [reverted, lines_cons, List.append_assoc, List.drop_left, ih, outcome_cons,
        List.append_assoc]
      cases passage <;> rfl

end Draft

namespace Session

variable {session : Session} {draft : List Passage} {buffer : Buffer} {id : BlockId}

def resolveAll (session : Session) (buffer : Buffer) :
    List (BlockId × Bool) → Except Fault (Turn Unit)
  | [] => .ok ⟨session, buffer, [], .ok ()⟩
  | (id, accept) :: rest => do
      let turn ← session.resolve buffer id accept
      match turn.outcome with
      | .error error => return turn.session.refuse turn.buffer error
      | .ok _ => turn.session.resolveAll turn.buffer rest

theorem Tracks.resolve_shown (tracks : session.Tracks draft) (state : session.state = .reviewing)
    (shown : buffer.lines = Draft.lines draft) (small : Draft.size draft ≤ countLimit)
    (known : id ∈ Draft.ids draft) (accept : Bool) :
    let next := session.redraft (Draft.settled (Draft.only id accept) draft)
    let after : Buffer := ⟨Draft.lines (Draft.settled (Draft.only id accept) draft)⟩
    next.Tracks (Draft.settled (Draft.only id accept) draft) ∧
      ∃ block, session.resolve buffer id accept = .ok ⟨(next.concluded after).1, after,
        (next.concluded after).2, .ok ⟨block, next.registry.blocks.length,
          next.registry.blocks.length == 0⟩⟩ := by
  rcases Draft.mem_ids.mp known with ⟨front, removed, added, back, rfl⟩
  rw [Draft.settled_only tracks.distinct]
  rw [Draft.size_append, Draft.size_cons, Passage.size] at small
  have settles : ∀ texts : List String, texts = (if accept then added else removed) →
      session.settle buffer ⟨id, Draft.size front, removed.length, added.length⟩ accept =
        .ok ⟨session.redraft (front ++ (texts.map .kept ++ back)),
          ⟨Draft.lines (front ++ (texts.map .kept ++ back))⟩, [], .ok ()⟩ ∧
      texts.length ≤ removed.length + added.length := by
    intro texts same
    cases accept with
    | true =>
        have whole : Draft.lines (front ++ (texts.map .kept ++ back)) = buffer.lines := by
          rw [shown, same]
          simp [Passage.lines]
        have width : texts.length =
            removed.length + added.length - min removed.length countLimit := by
          rw [same, if_pos rfl]
          omega
        rw [whole]
        exact ⟨tracks.accept buffer width, by omega⟩
    | false =>
        have width : texts.length =
            removed.length + added.length - min added.length countLimit := by
          rw [same, if_neg Bool.false_ne_true]
          omega
        have room : (Draft.lines front).length + added.length ≤ buffer.lineCount := by
          unfold Buffer.lineCount
          rw [shown]
          simp [Passage.lines]
        have whole : Draft.lines (front ++ (texts.map .kept ++ back)) =
            buffer.lines.take (Draft.lines front).length ++
              (removed ++ buffer.lines.drop ((Draft.lines front).length + added.length)) := by
          rw [shown, same]
          simp [Passage.lines, List.drop_append]
        rw [whole]
        exact ⟨tracks.restore room width, by omega⟩
  rcases settles _ rfl with ⟨settled, narrow⟩
  have later := tracks.settled narrow
  exact ⟨later, _, resolve_eq state tracks.get? settled later.sync⟩

def decided (order : List BlockId) (choice : BlockId → Bool) (id : BlockId) : Option Bool :=
  if id ∈ order then some (choice id) else none

theorem decided_cons (id : BlockId) (rest : List BlockId) (choice : BlockId → Bool) :
    decided (id :: rest) choice =
      fun other => (Draft.only id (choice id) other).or (decided rest choice other) := by
  funext other
  by_cases same : other = id
  · simp [decided, Draft.only, same]
  · simp [decided, Draft.only, same]

theorem Tracks.concluded_plain (tracks : session.Tracks draft) (plain : Draft.ids draft = []) :
    session.concluded buffer = session.close buffer := by
  rw [Session.concluded, tracks.length_blocks, plain]
  rfl

theorem Tracks.concluded_busy (tracks : session.Tracks draft) (busy : Draft.ids draft ≠ []) :
    session.concluded buffer = (session, session.announce buffer .done) := by
  rw [Session.concluded, tracks.length_blocks, if_neg]
  intro none
  exact busy (List.eq_nil_of_length_eq_zero none)

/-- Clearing decides all changes alike. -/
theorem Tracks.clear_shown (tracks : session.Tracks draft)
    (shown : buffer.lines = Draft.lines draft) (accept : Bool) :
    session.clear buffer accept =
      .ok ⟨(session.close ⟨Draft.outcome (fun _ => accept) draft⟩).1,
        ⟨Draft.outcome (fun _ => accept) draft⟩,
        (session.close ⟨Draft.outcome (fun _ => accept) draft⟩).2, .ok ()⟩ := by
  cases accept with
  | true =>
      rw [← Draft.lines_eq_outcome, ← shown]
      exact clear_accept session buffer
  | false =>
      have reverted := Draft.reverted_lines draft []
      rw [List.append_nil, List.append_nil, ← shown] at reverted
      have whole : session.Tracks (draft ++ []) := by rwa [List.append_nil]
      have room : (Draft.lines draft).length ≤ buffer.lineCount := by
        rw [Buffer.lineCount, shown]
      rw [← reverted]
      exact whole.clear rfl room

/-- All decisions go through, whatever their order, and the session closes with the last. -/
theorem Tracks.resolveAll {order : List BlockId} (tracks : session.Tracks draft)
    (state : session.state = .reviewing) (shown : buffer.lines = Draft.lines draft)
    (small : Draft.size draft ≤ countLimit) (busy : Draft.ids draft ≠ [])
    (distinct : order.Nodup) (known : ∀ id ∈ order, id ∈ Draft.ids draft)
    (choice : BlockId → Bool) :
    let settled := Draft.settled (decided order choice) draft
    ∃ next, session.resolveAll buffer (order.map fun id => (id, choice id)) =
        .ok ⟨next, ⟨Draft.lines settled⟩, [], .ok ()⟩ ∧
      (Draft.ids settled ≠ [] ∧ next.state = .reviewing ∧ next.Tracks settled ∨
        Draft.ids settled = [] ∧ next.state = .idle ∧ next.Tracks []) := by
  -- The draft of the decisions so far carries the induction: its changes are those still open.
  induction order generalizing session buffer draft with
  | nil =>
      have same : Draft.settled (decided [] choice) draft = draft :=
        Draft.settled_none fun id _ => if_neg List.not_mem_nil
      simp only [same]
      refine ⟨session, ?_, .inl ⟨busy, state, tracks⟩⟩
      rw [← shown]
      rfl
  | cons id rest ih =>
      rcases List.nodup_cons.mp distinct with ⟨absent, later⟩
      have present := known id List.mem_cons_self
      rcases tracks.resolve_shown state shown small present (choice id) with ⟨next, block, resolved⟩
      have composed : Draft.settled (decided (id :: rest) choice) draft =
          Draft.settled (decided rest choice)
            (Draft.settled (Draft.only id (choice id)) draft) := by
        rw [Draft.settled_settled, decided_cons]
      have remaining : ∀ other ∈ rest,
          other ∈ Draft.ids (Draft.settled (Draft.only id (choice id)) draft) := by
        intro other member
        rw [Draft.ids_settled, List.mem_filter]
        refine ⟨known other (List.mem_cons_of_mem id member), ?_⟩
        have different : other ≠ id := fun same => absent (same ▸ member)
        simp [Draft.only, different]
      simp only [composed, List.map_cons, Session.resolveAll, resolved, ok_bind]
      by_cases finished : Draft.ids (Draft.settled (Draft.only id (choice id)) draft) = []
      · have none : rest = [] := by
          cases rest with
          | nil => rfl
          | cons other more =>
              have member := remaining other List.mem_cons_self
              rw [finished] at member
              simp at member
        subst none
        have same : Draft.settled (decided [] choice)
            (Draft.settled (Draft.only id (choice id)) draft) =
              Draft.settled (Draft.only id (choice id)) draft :=
          Draft.settled_none fun other _ => if_neg List.not_mem_nil
        rw [same, next.concluded_plain finished]
        exact ⟨_, rfl, .inr ⟨finished, rfl, Tracks.nothing rfl rfl⟩⟩
      · rw [next.concluded_busy finished]
        exact ih next state rfl (Nat.le_trans (Draft.size_settled_le _ draft) small) finished later
          remaining

theorem Tracks.extend_kept (tracks : session.Tracks draft) (texts : List String) :
    session.Tracks (draft ++ texts.map .kept) where
  tracker := by
    rw [tracks.tracker]
    simp [Draft.tracker, Draft.blocks_append, Draft.ghosts_append]
  blocks := by
    rw [tracks.blocks]
    simp [Draft.blocks_append]
  fits := tracks.fits
  filled := List.forall_mem_append.mpr ⟨tracks.filled, Draft.filled_kept texts⟩
  distinct := by
    rw [Draft.ids_append, Draft.ids_kept, List.append_nil]
    exact tracks.distinct
  minted := by
    rw [Draft.ids_append, Draft.ids_kept, List.append_nil]
    exact tracks.minted

/-- The text that some decisions lead to once a choice is made for the rest. -/
theorem outcome_decided (order : List BlockId) (choice rest : BlockId → Bool)
    (draft : List Passage) :
    Draft.outcome rest (Draft.settled (decided order choice) draft) =
      Draft.outcome (fun id => if id ∈ order then choice id else rest id) draft := by
  rw [Draft.outcome_settled]
  apply Draft.outcome_congr
  intro id _
  by_cases member : id ∈ order
  · simp [decided, member]
  · simp [decided, member]

/-- The session closes with the decision about the last change, not before. Until then clearing
decides all changes that are left. -/
theorem Tracks.decides {order : List BlockId} (tracks : session.Tracks draft)
    (state : session.state = .reviewing) (shown : buffer.lines = Draft.lines draft)
    (small : Draft.size draft ≤ countLimit) (busy : Draft.ids draft ≠ [])
    (distinct : order.Nodup) (known : ∀ id ∈ order, id ∈ Draft.ids draft)
    (choice : BlockId → Bool) :
    ∃ next after, session.resolveAll buffer (order.map fun id => (id, choice id)) =
        .ok ⟨next, after, [], .ok ()⟩ ∧
      (order.length = (Draft.ids draft).length →
        next.state = .idle ∧ after.lines = Draft.outcome choice draft) ∧
      (order.length < (Draft.ids draft).length →
        next.state = .reviewing ∧ ∀ accept, ∃ closed, next.clear after accept = .ok closed ∧
          closed.outcome = .ok () ∧ closed.session.state = .idle ∧
          closed.buffer.lines =
            Draft.outcome (fun id => if id ∈ order then choice id else accept) draft) := by
  rcases tracks.resolveAll state shown small busy distinct known choice with ⟨next, resolved, ends⟩
  refine ⟨next, _, resolved, ?_, ?_⟩
  · intro whole
    have all : ∀ id ∈ Draft.ids draft, id ∈ order := by
      have sub := List.subperm_of_subset distinct known
      have permuted := sub.perm_of_length_le (Nat.le_of_eq whole.symm)
      exact fun id member => permuted.mem_iff.mpr member
    have none : Draft.ids (Draft.settled (decided order choice) draft) = [] := by
      rw [Draft.ids_settled, List.filter_eq_nil_iff]
      intro id member
      simp [decided, all id member]
    rcases ends with ⟨left, _⟩ | ⟨_, idle, _⟩
    · exact absurd none left
    · refine ⟨idle, ?_⟩
      rw [Draft.lines_eq_outcome, outcome_decided]
      apply Draft.outcome_congr
      intro id member
      exact if_pos (all id member)
  · intro fewer
    have left : Draft.ids (Draft.settled (decided order choice) draft) ≠ [] := by
      intro none
      rw [Draft.ids_settled, List.filter_eq_nil_iff] at none
      have all : Draft.ids draft ⊆ order := by
        intro id member
        by_contra absent
        exact none id member (by simp [decided, absent])
      have bound := (List.subperm_of_subset tracks.distinct all).length_le
      omega
    rcases ends with ⟨_, reviewing, later⟩ | ⟨none, _⟩
    · refine ⟨reviewing, fun accept => ⟨_, later.clear_shown rfl accept, rfl, rfl, ?_⟩⟩
      exact outcome_decided order choice (fun _ => accept) draft
    · exact absurd none left

end Session

end Redline
