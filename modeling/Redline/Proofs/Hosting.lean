import Redline.Proofs.Refinement
import Redline.Proofs.Reporting
import Redline.Proofs.Soundness

namespace Redline

namespace Buffer

variable {buffer : Buffer} {line count more : Nat} {texts : List String}

def replaced (buffer : Buffer) (line count : Nat) (texts : List String) : Buffer :=
  ⟨buffer.lines.take line ++ (texts ++ buffer.lines.drop (line + count))⟩

theorem length_replaced (inside : line + count ≤ buffer.lineCount) (texts : List String) :
    (buffer.replaced line count texts).lineCount + count = buffer.lineCount + texts.length := by
  unfold Buffer.lineCount at inside ⊢
  simp only [replaced, List.length_append, List.length_take, List.length_drop]
  omega

theorem length_take (inside : line ≤ buffer.lineCount) :
    (buffer.lines.take line).length = line := by
  rw [List.length_take]
  exact Nat.min_eq_left inside

theorem take_replaced (above : more ≤ line) (inside : line ≤ buffer.lineCount) :
    (buffer.replaced line count texts).lines.take more = buffer.lines.take more := by
  have width := length_take inside
  rw [replaced, List.take_append_of_le_length (by rw [width]; exact above), List.take_take,
    Nat.min_eq_left above]

theorem take_replaced_texts (inside : line ≤ buffer.lineCount) (some : more ≤ texts.length) :
    (buffer.replaced line count texts).lines.take (line + more) =
      buffer.lines.take line ++ texts.take more := by
  have taken := @List.take_length_add_append _ (buffer.lines.take line)
    (texts ++ buffer.lines.drop (line + count)) more
  rw [length_take inside] at taken
  rw [replaced, taken, List.take_append_of_le_length some]

theorem drop_replaced (inside : line ≤ buffer.lineCount) :
    (buffer.replaced line count texts).lines.drop (line + texts.length + more) =
      buffer.lines.drop (line + count + more) := by
  have width : (buffer.lines.take line ++ texts).length = line + texts.length := by
    rw [List.length_append, length_take inside]
  rw [replaced, ← List.append_assoc, ← width, List.drop_length_add_append, List.drop_drop]

theorem replaced_within {start width kept : Nat} {typed : List String} (above : line ≤ start)
    (below : start + count ≤ line + width) (inside : start + count ≤ buffer.lineCount)
    (total : kept + count = width + typed.length) :
    (buffer.replaced start count typed).replaced line kept texts =
      buffer.replaced line width texts := by
  have place : start ≤ buffer.lineCount := Nat.le_of_add_right_le inside
  have top := @take_replaced buffer start count line typed above place
  have bottom := @drop_replaced buffer start count (line + width - (start + count)) typed place
  have after : start + typed.length + (line + width - (start + count)) = line + kept := by omega
  rw [after, Nat.add_sub_cancel' below] at bottom
  rw [replaced, top, bottom, replaced]

theorem replaced_below {width kept : Nat} {typed : List String} (below : count ≤ width)
    (inside : line + count ≤ buffer.lineCount) (some : more ≤ typed.length)
    (total : more + kept + count = width + typed.length) :
    (buffer.replaced line count typed).replaced (line + more) kept texts =
      (buffer.replaced line width texts).replaced line 0 (typed.take more) := by
  have place : line ≤ buffer.lineCount := Nat.le_of_add_right_le inside
  have top := @take_replaced_texts buffer line count more typed place some
  have bottom := @drop_replaced buffer line count (width - count) typed place
  have after : line + typed.length + (width - count) = line + more + kept := by omega
  have same : line + count + (width - count) = line + width := by omega
  rw [after, same] at bottom
  have above : (buffer.replaced line width texts).lines.take line = buffer.lines.take line :=
    take_replaced (Nat.le_refl line) place
  have rest : (buffer.replaced line width texts).lines.drop line =
      texts ++ buffer.lines.drop (line + width) := by
    rw [replaced, List.drop_left' (length_take place)]
  rw [replaced, top, bottom, replaced, above, Nat.add_zero, rest, List.append_assoc]

end Buffer

namespace Draft

variable {draft : List Passage} {texts : List String} {line : Nat} {delta : Int}

theorem length_lines_insertAt (texts : List String) (line : Nat) (draft : List Passage) :
    (lines (insertAt texts line draft)).length = (lines draft).length + texts.length := by
  induction draft generalizing line with
  | nil =>
      cases line with
      | zero => simp [insertAt]
      | succ line => simp [insertAt]
  | cons passage rest ih =>
      cases line with
      | zero =>
          simp [insertAt]
          omega
      | succ line =>
          cases passage with
          | kept text =>
              simp only [insertAt, lines_cons, List.length_append, ih]
              omega
          | change id removed added =>
              rw [insertAt]
              split
              · simp only [lines_cons, Passage.lines, List.length_append, List.length_take,
                  List.length_drop]
                omega
              · simp only [lines_cons, List.length_append, ih]
                omega

theorem lines_deleteLines {low high : Nat} (order : low ≤ high) (draft : List Passage) :
    lines (deleteLines low high draft) = (lines draft).take low ++ (lines draft).drop high := by
  calc lines (deleteLines low high draft)
      = Markup.lines (rows (deleteLines low high draft)) := (lines_rows _).symm
    _ = Markup.lines (Markup.delete low high (rows draft)) := by rw [delete_rows order]
    _ = (lines draft).take low ++ (lines draft).drop high := by
        rw [Markup.lines_delete order, lines_rows]

theorem length_lines_edited (width : texts.length = delta.toNat)
    (inside : line + (-delta).toNat ≤ (lines draft).length) :
    ((lines (edited line delta texts draft)).length : Int) = (lines draft).length + delta := by
  unfold edited
  split
  · rw [length_lines_insertAt, width]
    omega
  · rw [lines_deleteLines (Nat.le_add_right _ _), List.length_append, List.length_take,
      List.length_drop]
    omega

theorem length_ghosts_insertAt (texts : List String) (line : Nat) (draft : List Passage) :
    (ghosts 0 (insertAt texts line draft)).length = (ghosts 0 draft).length := by
  rw [← List.length_map Ghost.text, map_text_ghosts, removed_insertAt, ← map_text_ghosts 0,
    List.length_map]

end Draft

namespace Session

variable {session next : Session} {buffer after : Buffer} {draft : List Passage}
  {line count : Nat} {texts : List String} {delta : Int}

theorem Within.congr (within : session.Within buffer) (tracker : next.tracker = session.tracker)
    (registry : next.registry = session.registry) : next.Within buffer := by
  intro block member
  rw [registry] at member
  rw [tracker]
  exact within block member

theorem within_of_none (none : session.registry.blocks = []) : session.Within buffer := by
  intro block member
  rw [none] at member
  exact absurd member List.not_mem_nil

theorem close_within (session : Session) (buffer after : Buffer) :
    (session.close buffer).1.Within after :=
  within_of_none rfl

theorem Within.finish (within : session.Within buffer) :
    (session.finish buffer).1.Within buffer := by
  by_cases state : session.state = .streaming
  · rcases finish_streaming state buffer with ⟨_, closed⟩ | ⟨_, _, rfl, reviewed⟩
    · rw [closed]
      exact close_within _ buffer buffer
    · rw [reviewed]
      exact within.congr rfl rfl
  · rw [finish_settled state]
    exact within.congr rfl rfl

/-- A text takes up more room than a row number, so no memory holds as many lines or ghosts as would
make a list of row numbers too long. -/
structure Stored (session : Session) (buffer : Buffer) : Prop where
  lines : buffer.lineCount < Tracker.rowListLimit
  ghosts : session.tracker.ghosts.length < Tracker.rowListLimit

theorem Coherent.reviews (coherent : session.Coherent) (state : session.state = .reviewing)
    (within : session.Within buffer) : ∃ draft, session.Reviews buffer draft := by
  rcases coherent.under_review state with ⟨draft, tracks, listens, busy⟩
  refine ⟨_, tracks.relabel within, (Draft.lines_relabel draft buffer.lines).symm, .inl ⟨?_, state,
    listens⟩⟩
  rw [Draft.ids_relabel]
  exact busy

theorem Reviews.within (reviews : session.Reviews buffer draft) : session.Within buffer :=
  reviews.tracks.within reviews.shown

theorem Stored.fits (stored : session.Stored buffer) (reviews : session.Reviews buffer draft) :
    Markup.Fits (Draft.rows draft) := by
  constructor
  · rw [Draft.lines_rows, ← reviews.shown]
    exact stored.lines
  · rw [Draft.ghosts_rows, ← reviews.tracks.ghosts]
    exact stored.ghosts

/-- Whatever a session does to the buffer itself, its blocks stay in it. -/
theorem Coherent.stays_within (coherent : session.Coherent) (within : session.Within buffer)
    (stored : session.Stored buffer) {operation : Operation}
    (own : ∀ line delta, operation ≠ .edit line delta)
    (performed : session.perform buffer operation = .ok (next, after)) : next.Within after := by
  cases operation with
  | begin =>
      simp only [Session.perform] at performed
      split at performed
      · rename_i begun
        rcases Prod.mk.inj (Except.ok.inj performed) with ⟨rfl, rfl⟩
        rcases beginRun_eq_ok begun with ⟨_, _, _, rfl⟩
        exact within.congr rfl rfl
      · rcases Prod.mk.inj (Except.ok.inj performed) with ⟨rfl, rfl⟩
        exact within
  | line line =>
      rcases bind_eq_ok.mp performed with ⟨turn, applied, last⟩
      rcases Prod.mk.inj (Except.ok.inj last) with ⟨rfl, rfl⟩
      cases coherent.takes applied with
      | refused => exact within
      | recorded _ _ _ continues grows => exact continues.tracks.within_of_length grows.room
  | finish =>
      rcases Prod.mk.inj (Except.ok.inj performed) with ⟨rfl, rfl⟩
      exact within.finish
  | take =>
      rcases Prod.mk.inj (Except.ok.inj performed) with ⟨rfl, rfl⟩
      exact within.congr rfl rfl
  | resolve id accept =>
      by_cases state : session.state = .reviewing
      · rcases coherent.reviews state within with ⟨draft, reviews⟩
        rcases reviews.resolve (stored.fits reviews) id accept with ⟨later, kept, revised, still⟩
        rw [Session.revise, performed] at revised
        rcases Prod.mk.inj (Except.ok.inj revised) with ⟨rfl, rfl⟩
        exact still.within
      · rcases bind_eq_ok.mp performed with ⟨turn, resolved, last⟩
        rcases Prod.mk.inj (Except.ok.inj last) with ⟨rfl, rfl⟩
        rw [Session.resolve, if_neg state] at resolved
        rw [← Except.ok.inj resolved]
        exact within
  | clear accept =>
      rcases bind_eq_ok.mp performed with ⟨turn, cleared, last⟩
      rcases Prod.mk.inj (Except.ok.inj last) with ⟨rfl, rfl⟩
      rcases coherent.clear_or_refuse cleared with ⟨kept, rfl⟩ | ⟨_, error, rfl⟩
      · exact close_within session kept kept
      · exact within
  | discard =>
      rcases Prod.mk.inj (Except.ok.inj performed) with ⟨rfl, rfl⟩
      exact within_of_none rfl
  | edit line delta => exact absurd rfl (own line delta)

/-- Once a change of the buffer has been reported, the blocks are in the changed buffer. -/
theorem Coherent.report_within (coherent : session.Coherent) (within : session.Within buffer)
    (listens : session.listening = true) (inside : line + (-delta).toNat ≤ buffer.lineCount)
    (changed : (after.lineCount : Int) = buffer.lineCount + delta) {turn : Turn Bool}
    (reported : session.applyEdit after line delta = .ok turn) :
    turn.session.Within turn.buffer := by
  have state := coherent.state_of_listening listens
  rcases coherent.reviews state within with ⟨draft, reviews⟩
  have shown : buffer.lineCount = (Draft.lines draft).length := congrArg List.length reviews.shown
  rw [shown] at inside changed
  by_cases still : delta = 0
  · rw [applyEdit_still listens still] at reported
    rw [← Except.ok.inj reported]
    apply reviews.tracks.within_of_length
    change (Draft.lines draft).length ≤ after.lineCount
    omega
  · have width : (List.replicate delta.toNat "").length = delta.toNat := List.length_replicate
    rcases (reviews.tracks.applyEdit listens still width).mp reported with ⟨_, fits, result⟩
    have follows := reviews.tracks.edited fits
    have total := Draft.length_lines_edited width inside
    rw [result, Session.concluded]
    split
    · exact close_within _ after after
    · apply follows.within_of_length
      change (Draft.lines _).length ≤ after.lineCount
      omega

/-- The host reports every change of the buffer, and makes none while the session does not listen.
It fires the token of the session when it likes. -/
inductive Followed : Session → Buffer → Prop where
  | start {bufferId : BufferId} {stream : StreamId} {buffer : Buffer} {range : LineRange}
      {session : Session} : Session.start bufferId stream buffer range = .ok session →
      Followed session buffer
  | step {session next : Session} {buffer after : Buffer} {operation : Operation} :
      Followed session buffer → session.Stored buffer →
      (∀ line delta, operation ≠ .edit line delta) →
      session.perform buffer operation = .ok (next, after) → Followed next after
  | reported {session next : Session} {buffer after : Buffer} {line count : Nat}
      {texts : List String} : Followed session buffer → session.listening = true →
      line + count ≤ buffer.lineCount →
      session.perform (buffer.replaced line count texts) (.edit line (texts.length - count)) =
        .ok (next, after) → Followed next after
  | fire {session : Session} {buffer : Buffer} :
      Followed session buffer → Followed { session with cancelled := true } buffer

theorem Followed.reachable (followed : session.Followed buffer) : Reachable session buffer := by
  induction followed with
  | start started => exact .start started
  | step _ _ _ performed ih => exact ih.step performed
  | reported _ _ _ performed ih => exact (ih.host _).step performed
  | fire _ ih => exact ih.fire

/-- A session never loses sight of its blocks as long as it is told of every change. -/
theorem Followed.within (followed : session.Followed buffer) : session.Within buffer := by
  induction followed with
  | start started =>
      apply (start_streams started).tracks.within_of_length
      rw [Draft.lines_kept, List.length_take]
      exact Nat.min_le_right _ _
  | step followed stored own performed ih =>
      exact followed.reachable.coherent.stays_within ih stored own performed
  | @reported session next buffer after line count texts followed listens inside performed ih =>
      rcases bind_eq_ok.mp performed with ⟨turn, reported, last⟩
      rcases Prod.mk.inj (Except.ok.inj last) with ⟨rfl, rfl⟩
      have total := Buffer.length_replaced inside texts
      apply followed.reachable.coherent.report_within ih listens _ _ reported
      · omega
      · omega
  | fire _ ih => exact ih.congr rfl rfl

theorem Followed.rowsFit (followed : session.Followed buffer)
    (state : session.state = .reviewing) (stored : session.Stored buffer)
    (inside : line + (-delta).toNat ≤ buffer.lineCount) (place : line ≤ buffer.lineCount)
    (after : (buffer.lineCount : Int) + delta < Tracker.rowListLimit) :
    session.RowsFit (.edit line delta) := by
  rcases followed.reachable.coherent.reviews state followed.within with ⟨draft, reviews⟩
  have lines := stored.lines
  have ghosts := stored.ghosts
  have width : (List.replicate delta.toNat "").length = delta.toNat := List.length_replicate
  unfold Tracker.rowListLimit at lines ghosts after
  intro _
  constructor
  · intro positive
    have anchored : session.tracker.anchorRow line < rowLimit := by
      have bound := Tracker.anchoredAbove_le line 0 session.tracker.ghosts
      unfold Tracker.anchorRow rowLimit
      omega
    have shifted := (Tracker.shiftOf_inserted positive).mpr ⟨anchored, rfl⟩
    refine ⟨anchored, ?_⟩
    simp only [(reviews.tracks.shifted (Int.ne_of_gt positive) width shifted).1]
    apply Draft.fits_of_size
    rw [Draft.edited, if_pos positive, ← Draft.length_lines_add 0, Draft.length_lines_insertAt,
      Draft.length_ghosts_insertAt, width, ← reviews.shown, ← reviews.tracks.ghosts]
    change buffer.lineCount + delta.toNat + _ < rowLimit
    unfold rowLimit
    omega
  · intro negative
    constructor
    · unfold rowLimit
      omega
    · intro deleted member
      have bounds := List.mem_range'_1.mp member
      have reach := Tracker.stepOver_le deleted session.tracker.ghosts
      unfold Tracker.viewRow rowLimit
      omega

end Session

end Redline
