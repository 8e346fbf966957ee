import Mathlib.Data.List.Induction
import Redline.Proofs.Tracking

namespace Redline

def Passage.original : Passage → List String → List String
  | kept _, lines => lines.take 1
  | change _ removed _, _ => removed

namespace Draft

variable {front back draft : List Passage} {id : BlockId} {removed added : List String}

theorem mem_ids : id ∈ ids draft ↔
    ∃ front removed added back, draft = front ++ .change id removed added :: back := by
  constructor
  · intro member
    rcases List.mem_filterMap.mp member with ⟨passage, present, named⟩
    rcases List.append_of_mem present with ⟨front, back, divided⟩
    cases passage with
    | kept text => simp [Passage.id?] at named
    | change other removed added =>
        simp only [Passage.id?, Option.some.injEq] at named
        subst named
        exact ⟨front, removed, added, back, divided⟩
  · rintro ⟨front, removed, added, back, rfl⟩
    simp

theorem plain_or_last (draft : List Passage) : ids draft = [] ∨
    ∃ front id removed added tail, draft = front ++ .change id removed added :: tail ∧
      ids tail = [] := by
  induction draft with
  | nil => exact .inl rfl
  | cons passage rest ih =>
      rcases ih with plain | ⟨front, id, removed, added, tail, rfl, plain⟩
      · cases passage with
        | kept text => exact .inl plain
        | change id removed added => exact .inr ⟨[], id, removed, added, rest, rfl, plain⟩
      · exact .inr ⟨passage :: front, id, removed, added, tail, rfl, plain⟩

theorem Filled.settled (filled : Filled (front ++ .change id removed added :: back))
    (texts : List String) : Filled (front ++ (texts.map .kept ++ back)) := by
  rcases List.forall_mem_append.mp filled with ⟨above, below⟩
  exact List.forall_mem_append.mpr
    ⟨above, List.forall_mem_append.mpr ⟨filled_kept texts, (List.forall_mem_cons.mp below).2⟩⟩

theorem fits_settled {texts : List String}
    (narrow : texts.length ≤ removed.length + added.length)
    (fits : (tracker (front ++ .change id removed added :: back)).fits = true) :
    (tracker (front ++ (texts.map .kept ++ back))).fits = true := by
  rw [← gapped_eq texts rfl]
  exact fits_gapped_of_le (Nat.add_le_add_left narrow _) (fits_gapped_of_change fits)

/-- The text in which every change has given way to the lines it removed. Its added lines are
left out by number, whatever the text has in their place. -/
def reverted : List Passage → List String → List String
  | [], lines => lines
  | passage :: rest, lines =>
      passage.original lines ++ reverted rest (lines.drop passage.lines.length)

theorem reverted_append {lines : List String} (long : (Draft.lines front).length ≤ lines.length) :
    reverted (front ++ back) lines =
      reverted front (lines.take (Draft.lines front).length) ++
        reverted back (lines.drop (Draft.lines front).length) := by
  induction front generalizing lines with
  | nil => rfl
  | cons passage rest ih =>
      rw [lines_cons, List.length_append] at long ⊢
      have later := @ih (lines.drop passage.lines.length) (by rw [List.length_drop]; omega)
      have first : passage.original
          (lines.take (passage.lines.length + (Draft.lines rest).length)) =
          passage.original lines := by
        cases passage with
        | kept text =>
            simp only [Passage.original, Passage.lines, List.length_singleton, List.take_take]
            rw [Nat.min_eq_left (Nat.le_add_right 1 _)]
        | change id removed added => rfl
      calc reverted (passage :: (rest ++ back)) lines
          = passage.original lines ++
              (reverted rest ((lines.drop passage.lines.length).take (Draft.lines rest).length) ++
                reverted back (lines.drop (passage.lines.length + (Draft.lines rest).length))) := by
            rw [reverted, later, List.drop_drop]
        _ = reverted (passage :: rest)
              (lines.take (passage.lines.length + (Draft.lines rest).length)) ++
                reverted back (lines.drop (passage.lines.length + (Draft.lines rest).length)) := by
            rw [reverted, first, List.drop_take, Nat.add_sub_cancel_left, List.append_assoc]

theorem reverted_front {lines : List String} (long : (Draft.lines front).length ≤ lines.length) :
    reverted front lines =
      reverted front (lines.take (Draft.lines front).length) ++
        lines.drop (Draft.lines front).length := by
  have whole := @reverted_append front [] lines long
  rwa [List.append_nil] at whole

theorem reverted_kept {lines : List String} (plain : ids draft = []) :
    reverted draft lines = lines := by
  induction draft generalizing lines with
  | nil => rfl
  | cons passage rest ih =>
      cases passage with
      | kept text => rw [reverted, ih plain, Passage.original, Passage.lines,
          List.length_singleton, List.take_append_drop]
      | change id removed added => simp at plain

theorem blocks_plain (plain : ids draft = []) (row : Nat) : blocks row draft = [] := by
  have none := map_id_blocks row draft
  rw [plain] at none
  exact List.map_eq_nil_iff.mp none

end Draft

namespace Session

variable {session : Session} {draft front back : List Passage} {id : BlockId}
  {removed added : List String}

theorem Tracks.redraft (tracks : session.Tracks draft) {next : List Passage}
    (fits : (Draft.tracker next).fits = true) (filled : Draft.Filled next)
    (fewer : (Draft.ids next).Sublist (Draft.ids draft)) : (session.redraft next).Tracks next where
  tracker := rfl
  blocks := rfl
  fits := fits
  filled := filled
  distinct := tracks.distinct.sublist fewer
  minted := fun id member => tracks.minted id (fewer.subset member)

theorem Tracks.settled (tracks : session.Tracks (front ++ .change id removed added :: back))
    {texts : List String} (narrow : texts.length ≤ removed.length + added.length) :
    (session.redraft (front ++ (texts.map .kept ++ back))).Tracks
      (front ++ (texts.map .kept ++ back)) := by
  apply tracks.redraft
  · have fits := tracks.fits
    rw [tracks.tracker] at fits
    exact Draft.fits_settled narrow fits
  · exact tracks.filled.settled texts
  · simp

theorem Tracks.nothing (empty : session.tracker = Tracker.empty)
    (none : session.registry.blocks = []) : session.Tracks [] where
  tracker := empty
  blocks := none
  fits := by rw [empty]; rfl
  filled := by simp [Draft.Filled]
  distinct := List.nodup_nil
  minted := by simp

theorem Tracks.sync_registry (tracks : session.Tracks draft) :
    session.registry.sync session.tracker.spans = .ok (0, session.registry) := by
  have tiled : Tiled session.tracker session.registry.blocks := by
    rw [tracks.tracker, tracks.blocks]
    exact Draft.tiled draft
  have filled : ∀ block ∈ session.registry.blocks, 0 < block.red + block.green := by
    rw [tracks.blocks]
    exact tracks.filled.blocks 0
  exact Registry.sync_known tiled filled tracks.fits rfl

theorem Tracks.sync (tracks : session.Tracks draft) : session.sync = .ok session := by
  rw [Session.sync, tracks.sync_registry]
  rfl

theorem Tracks.get? (tracks : session.Tracks (front ++ .change id removed added :: back)) :
    session.registry.get? id = some ⟨id, Draft.size front, removed.length, added.length⟩ := by
  have distinct := tracks.distinct
  rw [Draft.ids_append, Draft.ids_change_cons, List.nodup_append] at distinct
  have other : (Draft.blocks 0 front).find? (fun block => block.id == id) = none := by
    rw [List.find?_eq_none]
    intro block member same
    have known : block.id ∈ Draft.ids front := by
      rw [← Draft.map_id_blocks 0]
      exact List.mem_map_of_mem member
    exact distinct.2.2 block.id known id List.mem_cons_self (beq_iff_eq.mp same)
  rw [Registry.get?, tracks.blocks, Draft.blocks_append, List.find?_append, other]
  simp [Draft.blocks]

theorem Tracks.get?_eq_none (tracks : session.Tracks draft) (unknown : id ∉ Draft.ids draft) :
    session.registry.get? id = none := by
  rw [Registry.get?, List.find?_eq_none]
  intro block member same
  apply unknown
  rw [← Draft.map_id_blocks 0, ← tracks.blocks, ← beq_iff_eq.mp same]
  exact List.mem_map_of_mem member

theorem Tracks.length_blocks (tracks : session.Tracks draft) :
    session.registry.blocks.length = (Draft.ids draft).length := by
  rw [tracks.blocks, ← Draft.map_id_blocks 0, List.length_map]

/-- A count that is subtracted as a signed number takes away less than it says if no signed
number can hold it. -/
theorem sub_signedCount (total count : Nat) (inside : count ≤ total) :
    ((total : Nat) : Int) + -signedCount count = (total - min count countLimit : Nat) := by
  simp only [signedCount, Int.ofNat_eq_natCast]
  omega

theorem Tracks.accept (tracks : session.Tracks (front ++ .change id removed added :: back))
    (buffer : Buffer) {texts : List String}
    (width : texts.length = removed.length + added.length - min removed.length countLimit) :
    session.settle buffer ⟨id, Draft.size front, removed.length, added.length⟩ true =
      .ok ⟨session.redraft (front ++ (texts.map .kept ++ back)), buffer, [], .ok ()⟩ := by
  have forgotten : session.forget ⟨id, Draft.size front, removed.length, added.length⟩
      (-signedCount removed.length) =
        .ok (session.redraft (front ++ (texts.map .kept ++ back))) := by
    apply tracks.forget
    · rw [width]
      exact sub_signedCount _ _ (Nat.le_add_right _ _)
    · simp only [signedCount, Int.ofNat_eq_natCast]
      omega
  rw [settle, if_pos rfl, forgotten]
  rfl

theorem Tracks.restore (tracks : session.Tracks (front ++ .change id removed added :: back))
    {buffer : Buffer} (room : (Draft.lines front).length + added.length ≤ buffer.lineCount)
    {texts : List String}
    (width : texts.length = removed.length + added.length - min added.length countLimit) :
    session.restore buffer ⟨id, Draft.size front, removed.length, added.length⟩ =
      .ok ⟨session.redraft (front ++ (texts.map .kept ++ back)),
        ⟨buffer.lines.take (Draft.lines front).length ++
          (removed ++ buffer.lines.drop ((Draft.lines front).length + added.length))⟩, [],
        .ok ()⟩ := by
  have forgotten : session.forget ⟨id, Draft.size front, removed.length, added.length⟩
      (-signedCount added.length) =
        .ok (session.redraft (front ++ (texts.map .kept ++ back))) := by
    apply tracks.forget
    · rw [width]
      exact sub_signedCount _ _ (Nat.le_add_left _ _)
    · simp only [signedCount, Int.ofNat_eq_natCast]
      omega
  have short : (buffer.lines.take (Draft.lines front).length).length =
      (Draft.lines front).length := by
    rw [List.length_take]
    unfold Buffer.lineCount at room
    omega
  rw [Session.restore, tracks.bufferLine, tracks.ghostTexts]
  simp only
  rw [if_pos room, Buffer.delete, if_pos room]
  simp only
  rw [Buffer.insert, if_pos (by simp [Buffer.lineCount, short])]
  simp only
  rw [forgotten, ok_bind, List.take_left' short, List.drop_left' short, List.append_assoc]
  rfl

theorem Tracks.restore_refused
    (tracks : session.Tracks (front ++ .change id removed added :: back)) {buffer : Buffer}
    (short : ¬(Draft.lines front).length + added.length ≤ buffer.lineCount) :
    session.restore buffer ⟨id, Draft.size front, removed.length, added.length⟩ =
      .ok (session.refuse buffer
        (.streamDesync ((Draft.lines front).length + added.length) buffer.lineCount)) := by
  rw [Session.restore, tracks.bufferLine]
  simp only
  rw [if_neg short]

theorem Tracks.redraft_eq (tracks : session.Tracks draft) : session.redraft draft = session := by
  rw [Session.redraft, ← tracks.tracker, ← tracks.blocks]

/-- Rejecting from the last change to the first leaves the rows of those still to come as they
are, so none of them can be refused once the last one fits the buffer. -/
theorem Tracks.rejectAll {tail : List Passage} (tracks : session.Tracks (front ++ tail))
    (plain : Draft.ids tail = []) {buffer : Buffer}
    (room : (Draft.lines front).length ≤ buffer.lineCount) :
    ∃ next, session.rejectAll buffer (Draft.blocks 0 front).reverse =
        .ok ⟨session.redraft next, ⟨Draft.reverted front buffer.lines⟩, [], .ok ()⟩ ∧
      (session.redraft next).Tracks next ∧ Draft.ids next = [] := by
  -- What was a change below `front` has become part of the plain tail.
  induction front using List.reverseRecOn generalizing session tail buffer with
  | nil =>
      have same : session.redraft tail = session := tracks.redraft_eq
      refine ⟨tail, ?_, ?_, plain⟩
      · rw [same]
        rfl
      · rw [same]
        exact tracks
  | append_singleton front passage ih =>
      rw [List.append_assoc, List.singleton_append] at tracks
      rw [Draft.lines_append, List.length_append] at room
      have long : (Draft.lines front).length ≤ buffer.lines.length := by
        unfold Buffer.lineCount at room
        omega
      rw [Draft.reverted_append long]
      cases passage with
      | kept text =>
          have rejected := ih tracks plain long
          rw [Draft.reverted_front long] at rejected
          have plainly : Draft.ids [.kept text] = [] := rfl
          rw [Draft.blocks_append, Draft.reverted_kept plainly]
          simpa [Draft.blocks] using rejected
      | change id removed added =>
          have fits : (Draft.lines front).length + added.length ≤ buffer.lineCount := by
            simpa [Passage.lines] using room
          obtain ⟨texts, width⟩ : ∃ texts : List String, texts.length =
              removed.length + added.length - min added.length countLimit :=
            ⟨List.replicate _ "", List.length_replicate⟩
          have restored := tracks.restore fits width
          have narrow : texts.length ≤ removed.length + added.length := by omega
          have later := tracks.settled narrow
          have short : (buffer.lines.take (Draft.lines front).length).length =
              (Draft.lines front).length := by
            rw [List.length_take, Nat.min_eq_left long]
          obtain ⟨next, rejected, settled, none⟩ := @ih _ (texts.map .kept ++ tail) later
            (by simp [plain]) ⟨buffer.lines.take (Draft.lines front).length ++
              (removed ++ buffer.lines.drop ((Draft.lines front).length + added.length))⟩
            (by simp [Buffer.lineCount, short])
          refine ⟨next, ?_, settled, none⟩
          rw [Draft.reverted_front (by simp [short]), List.take_left' short,
            List.drop_left' short] at rejected
          rw [Draft.blocks_append, Draft.blocks, Draft.blocks, Nat.zero_add, List.reverse_append,
            List.reverse_singleton, List.singleton_append, Session.rejectAll, restored, ok_bind]
          simp only [rejected, Draft.reverted, Passage.original, Passage.lines, List.drop_drop]
          rfl

def concluded (session : Session) (buffer : Buffer) : Session × List Event :=
  if session.registry.blocks.length = 0 then session.close buffer
  else (session, session.announce buffer .done)

theorem resolve_eq {buffer after : Buffer} {next : Session} {block : Block} {accept : Bool}
    (reviewing : session.state = .reviewing) (found : session.registry.get? id = some block)
    (settled : session.settle buffer block accept = .ok ⟨next, after, [], .ok ()⟩)
    (synced : next.sync = .ok next) :
    session.resolve buffer id accept = .ok ⟨(next.concluded after).1, after,
      (next.concluded after).2, .ok ⟨block, next.registry.blocks.length,
        next.registry.blocks.length == 0⟩⟩ := by
  rw [resolve, if_pos reviewing, found]
  simp only [settled, ok_bind, synced]
  rfl

theorem resolve_refused {buffer : Buffer} {block : Block} {accept : Bool} {error : SessionError}
    (reviewing : session.state = .reviewing) (found : session.registry.get? id = some block)
    (refused : session.settle buffer block accept = .ok (session.refuse buffer error)) :
    session.resolve buffer id accept = .ok (session.refuse buffer error) := by
  rw [resolve, if_pos reviewing, found]
  simp only [refused, ok_bind]
  rfl

theorem Tracks.clear {tail : List Passage} (tracks : session.Tracks (front ++ tail))
    (plain : Draft.ids tail = []) {buffer : Buffer}
    (room : (Draft.lines front).length ≤ buffer.lineCount) :
    session.clear buffer false =
      .ok ⟨(session.close ⟨Draft.reverted front buffer.lines⟩).1,
        ⟨Draft.reverted front buffer.lines⟩,
        (session.close ⟨Draft.reverted front buffer.lines⟩).2, .ok ()⟩ := by
  rcases tracks.rejectAll plain room with ⟨next, rejected, _⟩
  have blocks : session.registry.blocks = Draft.blocks 0 front := by
    rw [tracks.blocks, Draft.blocks_append, Draft.blocks_plain plain, List.append_nil]
  rw [Session.clear]
  simp only [Bool.false_eq_true, if_false, blocks, rejected, ok_bind]
  rfl

theorem Tracks.clear_refused {tail : List Passage}
    (tracks : session.Tracks (front ++ .change id removed added :: tail))
    (plain : Draft.ids tail = []) {buffer : Buffer}
    (short : ¬(Draft.lines front).length + added.length ≤ buffer.lineCount) :
    session.clear buffer false = .ok (session.refuse buffer
      (.streamDesync ((Draft.lines front).length + added.length) buffer.lineCount)) := by
  have last : session.registry.blocks.reverse =
      ⟨id, Draft.size front, removed.length, added.length⟩ :: (Draft.blocks 0 front).reverse := by
    rw [tracks.blocks, Draft.blocks_append, Draft.blocks, Draft.blocks_plain plain]
    simp
  rw [Session.clear]
  simp only [Bool.false_eq_true, if_false, last, Session.rejectAll, tracks.restore_refused short,
    ok_bind]
  rfl

theorem clear_accept (session : Session) (buffer : Buffer) :
    session.clear buffer true =
      .ok ⟨(session.close buffer).1, buffer, (session.close buffer).2, .ok ()⟩ := rfl

/-- Rejecting all blocks is refused without a trace if the last one reaches beyond the buffer.
Otherwise it puts back what the changes removed and closes. -/
theorem Tracks.clear_reject (tracks : session.Tracks draft) (buffer : Buffer) :
    (∃ error, session.clear buffer false = .ok (session.refuse buffer error)) ∨
    session.clear buffer false =
      .ok ⟨(session.close ⟨Draft.reverted draft buffer.lines⟩).1,
        ⟨Draft.reverted draft buffer.lines⟩,
        (session.close ⟨Draft.reverted draft buffer.lines⟩).2, .ok ()⟩ := by
  rcases Draft.plain_or_last draft with plain | ⟨front, id, removed, added, tail, rfl, plain⟩
  · have cleared := @Tracks.clear session [] draft tracks plain buffer (Nat.zero_le _)
    rw [Draft.reverted_kept plain]
    exact .inr cleared
  · by_cases room : (Draft.lines front).length + added.length ≤ buffer.lineCount
    · rw [← List.singleton_append, ← List.append_assoc] at tracks ⊢
      have reach : (Draft.lines (front ++ [.change id removed added])).length ≤
          buffer.lineCount := by
        simpa [Passage.lines] using room
      rw [Draft.reverted_append reach, Draft.reverted_kept plain, ← Draft.reverted_front reach]
      exact .inr (tracks.clear plain reach)
    · exact .inl ⟨_, tracks.clear_refused plain room⟩

end Session

end Redline
