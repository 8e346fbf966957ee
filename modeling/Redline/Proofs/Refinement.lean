import Redline.Proofs.Merging
import Redline.Proofs.View

/-! A review refines the rewriting of marked rows: whatever the host does to the buffer and whatever
is decided, the session shows what the rewritten rows say. -/

namespace Redline

inductive Revision where
  | insert (line : Nat) (texts : List String)
  | delete (line count : Nat)
  | resolve (id : BlockId) (accept : Bool)
  | clear (accept : Bool)
  deriving DecidableEq, Repr

namespace Markup

def revise (rows : List MarkedRow) : Revision → List MarkedRow
  | .insert line texts => insert line texts rows
  | .delete line count => delete line (line + count) rows
  | .resolve id accept => settle (Draft.only id accept) rows
  | .clear accept => settle (fun _ => some accept) rows

def reviseAll (rows : List MarkedRow) (revisions : List Revision) : List MarkedRow :=
  revisions.foldl revise rows

def Permits (rows : List MarkedRow) : Revision → Prop
  | .insert line texts => texts ≠ [] ∧ line ≤ (lines rows).length
  | .delete line count => 0 < count ∧ line + count ≤ (lines rows).length
  | _ => True

/-- A text takes up more room than a row number, so no memory holds as many lines or ghosts as would
make a list of row numbers too long. Row numbers are far below their limit then. -/
structure Fits (rows : List MarkedRow) : Prop where
  lines : (lines rows).length < Tracker.rowListLimit
  ghosts : (ghosts 0 rows).length < Tracker.rowListLimit

def PermitsAll : List MarkedRow → List Revision → Prop
  | rows, [] => Fits rows
  | rows, revision :: rest =>
      Fits rows ∧ Permits rows revision ∧ PermitsAll (revise rows revision) rest

end Markup

namespace Session

/-- The session and the buffer after a revision. An edit that the buffer refuses is not reported. -/
def revise (session : Session) (buffer : Buffer) : Revision → Except Fault (Session × Buffer)
  | .insert line texts =>
      match buffer.insert line texts with
      | .error _ => .ok (session, buffer)
      | .ok after => session.perform after (.edit line texts.length)
  | .delete line count =>
      match buffer.delete line count with
      | .error _ => .ok (session, buffer)
      | .ok (_, after) => session.perform after (.edit line (-count))
  | .resolve id accept => session.perform buffer (.resolve id accept)
  | .clear accept => session.perform buffer (.clear accept)

def reviseAll (session : Session) (buffer : Buffer) :
    List Revision → Except Fault (Session × Buffer)
  | [] => .ok (session, buffer)
  | revision :: rest => do
      let (next, after) ← session.revise buffer revision
      next.reviseAll after rest

/-- Everything that a session knows of its buffer is read off the rows. It is open as long as they
have a block. -/
structure Shows (session : Session) (buffer : Buffer) (rows : List MarkedRow) : Prop where
  lines : buffer.lines = Markup.lines rows
  ghosts : session.tracker.ghosts = Markup.ghosts 0 rows
  added : session.tracker.added = Markup.added 0 rows
  blocks : session.registry.blocks = Markup.blocks 0 rows
  state : session.state = if Markup.blocks 0 rows = [] then .idle else .reviewing

structure Reviews (session : Session) (buffer : Buffer) (draft : List Passage) : Prop where
  tracks : session.Tracks draft
  shown : buffer.lines = Draft.lines draft
  phase : Draft.ids draft ≠ [] ∧ session.state = .reviewing ∧ session.listening = true ∨
    Draft.ids draft = [] ∧ session.state = .idle ∧ session.listening = false

variable {session : Session} {buffer after : Buffer} {draft next : List Passage}

theorem Reviews.shows (reviews : session.Reviews buffer draft) :
    session.Shows buffer (Draft.rows draft) := by
  have tracks := reviews.tracks
  have read := Draft.blocks_rows 0 tracks.filled tracks.distinct
  have found : Draft.blocks 0 draft = [] ↔ Draft.ids draft = [] := by
    rw [← Draft.map_id_blocks 0, List.map_eq_nil_iff]
  constructor
  · rw [reviews.shown, Draft.lines_rows]
  · rw [tracks.tracker, Draft.ghosts_rows]
    rfl
  · rw [tracks.tracker, Draft.added_rows 0 tracks.distinct]
    rfl
  · rw [tracks.blocks, read]
  · rw [read]
    rcases reviews.phase with ⟨busy, reviewing, _⟩ | ⟨plain, idle, _⟩
    · rw [if_neg fun none => busy (found.mp none), reviewing]
    · rw [if_pos (found.mpr plain), idle]

theorem Tracks.plain (tracks : session.Tracks draft) (plain : Draft.ids draft = [])
    (none : Draft.ids next = []) : session.Tracks next := by
  have texts (draft : List Passage) (plain : Draft.ids draft = []) :
      draft = (Draft.lines draft).map .kept := by
    induction draft with
    | nil => rfl
    | cons passage rest ih =>
        cases passage with
        | kept text =>
            have later := ih plain
            rw [Draft.lines_cons, List.map_append, ← later]
            rfl
        | change id removed added => simp at plain
  have empty : session.tracker = Tracker.empty := by
    rw [tracks.tracker, Draft.tracker, Draft.blocks_plain plain, Draft.ghosts_plain plain]
    rfl
  have blocks : session.registry.blocks = [] := by
    rw [tracks.blocks, Draft.blocks_plain plain]
  rw [texts next none]
  exact (Tracks.nothing empty blocks).extend_kept (Draft.lines next)

theorem closed_reviews (session : Session) (shown : after.lines = Draft.lines draft)
    (plain : Draft.ids draft = []) : (session.close after).1.Reviews after draft := by
  constructor
  · have nothing : (session.close after).1.Tracks [] := Tracks.nothing rfl rfl
    exact nothing.plain rfl plain
  · exact shown
  · exact .inr ⟨plain, rfl, rfl⟩

theorem Tracks.reviews (tracks : session.Tracks draft) (state : session.state = .reviewing)
    (listens : session.listening = true) (shown : after.lines = Draft.lines draft) :
    (session.concluded after).1.Reviews after draft := by
  by_cases plain : Draft.ids draft = []
  · rw [tracks.concluded_plain plain]
    exact closed_reviews session shown plain
  · rw [tracks.concluded_busy plain]
    exact ⟨tracks, shown, .inl ⟨plain, state, listens⟩⟩

/-! ## Edits of the host -/

/-- A reported edit is followed while the session is open and ignored once it is closed. -/
theorem Reviews.edit (reviews : session.Reviews buffer draft) {line : Nat} {delta : Int}
    (edited : delta ≠ 0) {texts : List String} (width : texts.length = delta.toNat)
    (shown : after.lines = Draft.lines (Draft.edited line delta texts draft))
    (shifts : ∃ shift, session.tracker.shiftOf line delta = .ok shift)
    (fits : (Draft.tracker (Draft.edited line delta texts draft)).fits = true) :
    ∃ later, session.perform after (.edit line delta) = .ok (later, after) ∧
      later.Reviews after (Draft.edited line delta texts draft) := by
  rcases reviews.phase with ⟨_, reviewing, listens⟩ | ⟨plain, idle, deaf⟩
  · have applied : ∃ events, session.applyEdit after line delta =
        .ok ⟨((session.redraft (Draft.edited line delta texts draft)).concluded after).1, after,
          events, .ok true⟩ :=
      ⟨_, (reviews.tracks.applyEdit listens edited width).mpr ⟨shifts, fits, rfl⟩⟩
    rcases applied with ⟨events, applied⟩
    refine ⟨_, ?_, (reviews.tracks.edited fits).reviews reviewing listens shown⟩
    simp only [perform, applied]
    rfl
  · have none : Draft.ids (Draft.edited line delta texts draft) = [] := by
      apply List.eq_nil_of_sublist_nil
      rw [← plain]
      exact Draft.ids_edited line delta texts draft
    refine ⟨session, ?_, reviews.tracks.plain plain none, shown, .inr ⟨none, idle, deaf⟩⟩
    simp only [perform, applyEdit, deaf, Bool.false_eq_true, if_false]
    rfl

theorem size_of_fits (fits : Markup.Fits (Draft.rows draft)) :
    Draft.size draft ≤ countLimit ∧ Draft.size draft < rowLimit := by
  have lines := fits.lines
  have ghosts := fits.ghosts
  have total := Draft.length_lines_add 0 draft
  rw [Draft.lines_rows] at lines
  rw [Draft.ghosts_rows] at ghosts
  unfold Tracker.rowListLimit at lines ghosts
  unfold countLimit rowLimit
  constructor <;> omega

theorem Reviews.few (reviews : session.Reviews buffer draft)
    (fits : Markup.Fits (Draft.rows draft)) :
    buffer.lines.length < Tracker.rowListLimit ∧
      buffer.lines.length + session.tracker.ghosts.length < rowLimit := by
  have lines := fits.lines
  rcases size_of_fits fits with ⟨_, small⟩
  rw [Draft.lines_rows] at lines
  rw [reviews.shown, reviews.tracks.ghosts, Draft.length_lines_add]
  exact ⟨lines, small⟩

theorem Reviews.insert (reviews : session.Reviews buffer draft)
    (fits : Markup.Fits (Draft.rows draft)) {line : Nat} {texts : List String}
    (permits : Markup.Permits (Draft.rows draft) (.insert line texts))
    (still : Markup.Fits (Draft.rows (Draft.insertAt texts line draft))) :
    ∃ later after, session.revise buffer (.insert line texts) = .ok (later, after) ∧
      later.Reviews after (Draft.insertAt texts line draft) := by
  rcases permits with ⟨nonempty, inside⟩
  rcases reviews.few fits with ⟨few, total⟩
  have place : line ≤ buffer.lineCount := by
    rw [Buffer.lineCount, reviews.shown, ← Draft.lines_rows]
    exact inside
  have positive : (0 : Int) < texts.length := by
    have filled := List.length_pos_of_ne_nil nonempty
    omega
  have edited : Draft.edited line texts.length texts draft = Draft.insertAt texts line draft :=
    if_pos positive
  have shown : buffer.lines.take line ++ texts ++ buffer.lines.drop line =
      Draft.lines (Draft.insertAt texts line draft) := by
    calc buffer.lines.take line ++ texts ++ buffer.lines.drop line
        = (Draft.lines draft).take line ++ (texts ++ (Draft.lines draft).drop line) := by
          rw [reviews.shown, List.append_assoc]
      _ = Markup.lines (Markup.insert line texts (Draft.rows draft)) := by
          rw [Markup.insert, Markup.lines_insertBelow, Draft.lines_rows]
      _ = Markup.lines (Draft.rows (Draft.insertAt texts line draft)) := by
          rw [Draft.insert_rows texts line reviews.tracks.distinct]
      _ = Draft.lines (Draft.insertAt texts line draft) := Draft.lines_rows _
  have anchored : session.tracker.anchorRow line < rowLimit := by
    have bound := Tracker.anchoredAbove_le line 0 session.tracker.ghosts
    unfold Buffer.lineCount at place
    unfold Tracker.anchorRow
    omega
  have shifts := (Tracker.shiftOf_inserted positive).mpr ⟨anchored, rfl⟩
  have step := @Reviews.edit session buffer
    ⟨buffer.lines.take line ++ texts ++ buffer.lines.drop line⟩ draft
    reviews line texts.length (Int.ne_of_gt positive) texts rfl
  rw [edited] at step
  rcases step shown ⟨_, shifts⟩ (Draft.fits_of_size (size_of_fits still).2) with
    ⟨later, performed, reviews⟩
  refine ⟨later, _, ?_, reviews⟩
  simp only [Session.revise, Buffer.insert, if_pos place]
  exact performed

theorem Reviews.delete (reviews : session.Reviews buffer draft)
    (fits : Markup.Fits (Draft.rows draft)) {line count : Nat}
    (permits : Markup.Permits (Draft.rows draft) (.delete line count)) :
    ∃ later after, session.revise buffer (.delete line count) = .ok (later, after) ∧
      later.Reviews after (Draft.deleteLines line (line + count) draft) := by
  rcases permits with ⟨nonempty, inside⟩
  rcases reviews.few fits with ⟨few, total⟩
  have place : line + count ≤ buffer.lineCount := by
    rw [Buffer.lineCount, reviews.shown, ← Draft.lines_rows]
    exact inside
  have negative : (-count : Int) < 0 := by omega
  have width : (-count : Int).natAbs = count := by omega
  have edited : Draft.edited line (-count : Int) [] draft =
      Draft.deleteLines line (line + count) draft := by
    rw [Draft.edited, if_neg (Int.lt_asymm negative), width]
  -- The rows tell which lines are left, and the lines of the rewritten rows are those of the draft.
  have shown : buffer.lines.take line ++ buffer.lines.drop (line + count) =
      Draft.lines (Draft.deleteLines line (line + count) draft) := by
    have order := Nat.le_add_right line count
    calc buffer.lines.take line ++ buffer.lines.drop (line + count)
        = Markup.lines (Markup.delete line (line + count) (Draft.rows draft)) := by
          rw [Markup.lines_delete order, Draft.lines_rows, reviews.shown]
      _ = Markup.lines (Draft.rows (Draft.deleteLines line (line + count) draft)) := by
          rw [Draft.delete_rows order]
      _ = Draft.lines (Draft.deleteLines line (line + count) draft) := Draft.lines_rows _
  have bounded : line + count ≤ buffer.lines.length := place
  have shifts : session.tracker.shiftOf line (-count) =
      .ok (.deleted ((List.range' line count).map session.tracker.viewRow)) := by
    apply (Tracker.shiftOf_deleted negative).mpr
    rw [width]
    refine ⟨⟨?_, ?_, ?_⟩, rfl⟩
    · omega
    · omega
    · intro deleted member
      have bounds := List.mem_range'_1.mp member
      have reach := Tracker.stepOver_le deleted session.tracker.ghosts
      unfold Tracker.viewRow
      omega
  have step := @Reviews.edit session buffer
    ⟨buffer.lines.take line ++ buffer.lines.drop (line + count)⟩ draft reviews line (-count)
    (Int.ne_of_lt negative) [] (by simp)
  rw [edited] at step
  rcases step shown ⟨_, shifts⟩ (reviews.tracks.fits_deleted line count) with
    ⟨later, performed, reviews⟩
  refine ⟨later, _, ?_, reviews⟩
  simp only [Session.revise, Buffer.delete, if_pos place]
  exact performed

/-! ## Decisions -/

theorem Reviews.resolve (reviews : session.Reviews buffer draft)
    (fits : Markup.Fits (Draft.rows draft)) (id : BlockId) (accept : Bool) :
    ∃ later after, session.revise buffer (.resolve id accept) = .ok (later, after) ∧
      later.Reviews after (Draft.settled (Draft.only id accept) draft) := by
  by_cases known : id ∈ Draft.ids draft
  · rcases reviews.phase with ⟨_, reviewing, listens⟩ | ⟨plain, _, _⟩
    · rcases size_of_fits fits with ⟨small, _⟩
      rcases reviews.tracks.resolve_shown reviewing reviews.shown small known accept with
        ⟨tracks, block, resolved⟩
      refine ⟨_, _, ?_, tracks.reviews reviewing listens rfl⟩
      simp only [Session.revise, perform, resolved]
      rfl
    · rw [plain] at known
      exact absurd known List.not_mem_nil
  · -- The session refuses an unknown block, and no row is marked with it.
    have same : Draft.settled (Draft.only id accept) draft = draft := by
      apply Draft.settled_none
      intro other member
      apply if_neg
      intro same
      rw [same] at member
      exact known member
    rw [same]
    refine ⟨session, buffer, ?_, reviews⟩
    have refused : ∃ error,
        session.resolve buffer id accept = .ok (session.refuse buffer error) := by
      by_cases state : session.state = .reviewing
      · refine ⟨.blockNotFound id, ?_⟩
        rw [Session.resolve, if_pos state, reviews.tracks.get?_eq_none known]
      · exact ⟨_, if_neg state⟩
    rcases refused with ⟨error, refused⟩
    simp only [Session.revise, perform, refused]
    rfl

theorem Reviews.clear (reviews : session.Reviews buffer draft) (accept : Bool) :
    ∃ later after, session.revise buffer (.clear accept) = .ok (later, after) ∧
      later.Reviews after (Draft.settled (fun _ => some accept) draft) := by
  have cleared := reviews.tracks.clear_shown reviews.shown accept
  have plain : Draft.ids (Draft.settled (fun _ => some accept) draft) = [] := by
    rw [Draft.ids_settled]
    simp
  have shown : Draft.outcome (fun _ => accept) draft =
      Draft.lines (Draft.settled (fun _ => some accept) draft) := by
    rw [Draft.lines_eq_outcome, Draft.outcome_settled]
    rfl
  refine ⟨_, _, ?_, closed_reviews session shown plain⟩
  simp only [Session.revise, perform, cleared]
  rfl

/-! ## Runs -/

theorem Reviews.revise (reviews : session.Reviews buffer draft)
    (fits : Markup.Fits (Draft.rows draft)) {revision : Revision}
    (permits : Markup.Permits (Draft.rows draft) revision)
    (still : Markup.Fits (Markup.revise (Draft.rows draft) revision)) :
    ∃ later after next, session.revise buffer revision = .ok (later, after) ∧
      later.Reviews after next ∧ Draft.rows next = Markup.revise (Draft.rows draft) revision := by
  cases revision with
  | insert line texts =>
      have rows : Draft.rows (Draft.insertAt texts line draft) =
          Markup.insert line texts (Draft.rows draft) :=
        (Draft.insert_rows texts line reviews.tracks.distinct).symm
      simp only [Markup.revise, ← rows] at still
      rcases reviews.insert fits permits still with ⟨later, after, revised, reviews⟩
      exact ⟨later, after, _, revised, reviews, rows⟩
  | delete line count =>
      rcases reviews.delete fits permits with ⟨later, after, revised, reviews⟩
      exact ⟨later, after, _, revised, reviews,
        (Draft.delete_rows (Nat.le_add_right line count) draft).symm⟩
  | resolve id accept =>
      rcases reviews.resolve fits id accept with ⟨later, after, revised, reviews⟩
      exact ⟨later, after, _, revised, reviews, (Draft.settle_rows _ draft).symm⟩
  | clear accept =>
      rcases reviews.clear accept with ⟨later, after, revised, reviews⟩
      exact ⟨later, after, _, revised, reviews, (Draft.settle_rows _ draft).symm⟩

theorem PermitsAll.fits {rows : List MarkedRow} {revisions : List Revision}
    (permits : Markup.PermitsAll rows revisions) : Markup.Fits rows := by
  cases revisions with
  | nil => exact permits
  | cons revision rest => exact permits.1

theorem Reviews.reviseAll {revisions : List Revision} (reviews : session.Reviews buffer draft)
    (permits : Markup.PermitsAll (Draft.rows draft) revisions) :
    ∃ later after next, session.reviseAll buffer revisions = .ok (later, after) ∧
      later.Reviews after next ∧
        Draft.rows next = Markup.reviseAll (Draft.rows draft) revisions := by
  induction revisions generalizing session buffer draft with
  | nil => exact ⟨session, buffer, draft, rfl, reviews, rfl⟩
  | cons revision rest ih =>
      rcases permits with ⟨fits, permitted, further⟩
      rcases reviews.revise fits permitted (PermitsAll.fits further) with
        ⟨later, after, next, revised, reviews, rows⟩
      rw [← rows] at further
      rcases ih reviews further with ⟨last, final, drafted, all, reviews, result⟩
      refine ⟨last, final, drafted, ?_, reviews, ?_⟩
      · rw [Session.reviseAll, revised]
        exact all
      · rw [result, rows]
        rfl

theorem Tracks.within_of_length (tracks : session.Tracks draft)
    (room : (Draft.lines draft).length ≤ buffer.lineCount) : session.Within buffer := by
  intro block member
  rw [tracks.blocks] at member
  rcases Draft.mem_blocks_divided member with ⟨front, id, removed, added, back, rfl, rfl⟩
  have line := tracks.bufferLine
  simp only [Draft.lines_append, Draft.lines_cons, Passage.lines, List.length_append] at room
  simp only [Nat.zero_add]
  rw [line]
  omega

theorem Tracks.within (tracks : session.Tracks draft) (shown : buffer.lines = Draft.lines draft) :
    session.Within buffer := by
  apply tracks.within_of_length
  rw [Buffer.lineCount, shown]

theorem Reachable.applyAll {ops : List DiffLine} {turn : Turn Unit}
    (reachable : Reachable session buffer) (applied : session.applyAll buffer ops = .ok turn) :
    Reachable turn.session turn.buffer := by
  induction ops generalizing session buffer with
  | nil =>
      rw [← Except.ok.inj applied]
      exact reachable
  | cons line rest ih =>
      rcases bind_eq_ok.mp applied with ⟨middle, applies, applied⟩
      have further : Reachable middle.session middle.buffer := by
        apply @Reachable.step _ _ _ _ (.line line) reachable
        simp only [perform, applies]
        rfl
      cases ends : middle.outcome with
      | error error =>
          rw [ends] at applied
          rw [← Except.ok.inj applied]
          exact further
      | ok _ =>
          rw [ends] at applied
          exact ih further applied

/-- A stream that meets an unchanged buffer leaves a session whose blocks are in the buffer. -/
theorem streamed_within {bufferId : BufferId} {stream : StreamId} {lines : List String}
    {range : LineRange} {begun : Session} {streamed : Turn Unit} {ops : List DiffLine}
    (started : Session.start bufferId stream ⟨lines⟩ range = .ok session)
    (begins : session.beginRun = .ok begun) (applies : begun.applyAll ⟨lines⟩ ops = .ok streamed)
    (words : lines.length + ops.length ≤ countLimit) :
    Reachable (streamed.session.finish streamed.buffer).1 streamed.buffer ∧
      (streamed.session.finish streamed.buffer).1.Within streamed.buffer := by
  constructor
  · have opened := Reachable.start started
    have running : Reachable begun ⟨lines⟩ := by
      apply @Reachable.step _ _ _ _ .begin opened
      simp only [perform, begins]
    exact @Reachable.step _ _ _ _ .finish (running.applyAll applies) rfl
  · rcases start_range started with ⟨ordered, inside⟩
    rw [Buffer.lineCount] at inside
    simp only at inside
    rcases Midway.of_start started with ⟨other, again, midway, _, cursor⟩
    have same : begun = other := Except.ok.inj (begins.symm.trans again)
    subst same
    have small : begun.cursor + ops.length < rowLimit := by
      rw [cursor]
      unfold countLimit at words
      unfold rowLimit
      omega
    rcases midway.applicable (Draft.ids_kept _) ops small with ⟨turn, applied, _, later, _⟩
    have same : streamed = turn := Except.ok.inj (applies.symm.trans applied)
    subst same
    rcases later.finish with ⟨_, _, closed⟩ | ⟨_, _, tracks⟩
    · intro block member
      rw [closed.blocks] at member
      exact absurd member List.not_mem_nil
    · exact tracks.within later.tracks.2

/-- Every session under review whose blocks are in the buffer, as they are after a stream without
edits of the host, goes on to show what the rewritten rows say. -/
theorem review_refines_rows :
    (∀ bufferId stream lines range ops session begun streamed,
      Session.start bufferId stream ⟨lines⟩ range = .ok session →
      session.beginRun = .ok begun → begun.applyAll ⟨lines⟩ ops = .ok streamed →
      lines.length + ops.length ≤ countLimit →
        Reachable (streamed.session.finish streamed.buffer).1 streamed.buffer ∧
          (streamed.session.finish streamed.buffer).1.Within streamed.buffer) ∧
    ∀ session buffer, Reachable session buffer → session.state = .reviewing →
      session.Within buffer → ∀ revisions, Markup.PermitsAll (session.markup buffer) revisions →
        ∃ later after, session.reviseAll buffer revisions = .ok (later, after) ∧
          later.Shows after (Markup.reviseAll (session.markup buffer) revisions) := by
  constructor
  · intro bufferId stream lines range ops session begun streamed started begins applies words
    exact streamed_within started begins applies words
  · intro session buffer reachable state within revisions permits
    rcases reachable.coherent.under_review state with ⟨draft, tracks, listens, busy⟩
    have shown := (Draft.lines_relabel draft buffer.lines).symm
    have relabelled := tracks.relabel within
    have reviews : session.Reviews buffer (Draft.relabel draft buffer.lines) := by
      refine ⟨relabelled, shown, .inl ⟨?_, state, listens⟩⟩
      rw [Draft.ids_relabel]
      exact busy
    rw [relabelled.markup shown] at permits ⊢
    rcases reviews.reviseAll permits with ⟨later, after, next, revised, reviews, rows⟩
    refine ⟨later, after, revised, ?_⟩
    rw [← rows]
    exact reviews.shows

/-- A line goes in below the change, its added line is deleted, and what is left is rejected. -/
theorem oneChange_refines_rows :
    let revisions : List Revision :=
      [.insert 1 ["n"], .delete 0 1, .resolve ⟨⟨1⟩, 0⟩ false]
    Reachable oneChange ⟨["x", "b"]⟩ ∧ oneChange.Within ⟨["x", "b"]⟩ ∧
      Markup.PermitsAll (oneChange.markup ⟨["x", "b"]⟩) revisions ∧
      ∃ later after, oneChange.reviseAll ⟨["x", "b"]⟩ revisions = .ok (later, after) ∧
        after.lines = ["a", "n", "b"] ∧ later.state = .idle := by
  intro revisions
  have within : oneChange.Within ⟨["x", "b"]⟩ := by
    unfold Within
    decide
  have permits : Markup.PermitsAll (oneChange.markup ⟨["x", "b"]⟩) revisions := by
    refine ⟨⟨?_, ?_⟩, ⟨by simp, ?_⟩, ⟨?_, ?_⟩, ⟨Nat.one_pos, ?_⟩, ⟨?_, ?_⟩, trivial, ?_, ?_⟩ <;>
      decide
  rcases review_refines_rows with ⟨_, refines⟩
  rcases refines oneChange ⟨["x", "b"]⟩ oneChange_reachable rfl within revisions permits with
    ⟨later, after, revised, shows⟩
  refine ⟨oneChange_reachable, within, permits, later, after, revised, ?_, ?_⟩
  · rw [shows.lines]
    decide
  · rw [shows.state]
    decide

end Session

end Redline
