import Redline.Proofs.Identity
import Redline.Proofs.Overlays
import Redline.Proofs.Resolving
import Redline.Proofs.TextChanges

namespace Redline

namespace Buffer

variable {buffer : Buffer} {line count other more : Nat} {texts : List String}

theorem line?_above (above : other < line) (inside : line ≤ buffer.lineCount) :
    (buffer.replaced line count texts).line? other = buffer.line? other := by
  have same := @take_replaced buffer line count line texts (Nat.le_refl line) inside
  calc (buffer.replaced line count texts).line? other
      = ((buffer.replaced line count texts).lines.take line)[other]? :=
        (List.getElem?_take_of_lt above).symm
    _ = (buffer.lines.take line)[other]? := by rw [same]
    _ = buffer.line? other := List.getElem?_take_of_lt above

theorem line?_below (inside : line ≤ buffer.lineCount) (more : Nat) :
    (buffer.replaced line count texts).line? (line + texts.length + more) =
      buffer.line? (line + count + more) := by
  have same := @drop_replaced buffer line count more texts inside
  calc (buffer.replaced line count texts).line? (line + texts.length + more)
      = ((buffer.replaced line count texts).lines.drop (line + texts.length + more)).head? :=
        List.head?_drop.symm
    _ = (buffer.lines.drop (line + count + more)).head? := by rw [same]
    _ = buffer.line? (line + count + more) := List.head?_drop

end Buffer

theorem AddedRange.eq_of_stop {first second : AddedRange} (start : first.start = second.start)
    (stop : first.stop = second.stop) : first = second := by
  cases first
  cases second
  simp only [AddedRange.stop] at start stop
  simp only [AddedRange.mk.injEq]
  omega

namespace Tracker

variable {tracker next : Tracker} {shift : RowShift} {line low row first second : Nat} {delta : Int}
  {range : AddedRange}

theorem bufferLine_le (ascending : Ascending tracker.ghosts) (order : first ≤ second) :
    tracker.bufferLine first ≤ tracker.bufferLine second := by
  induction second, order using Nat.le_induction with
  | base => exact Nat.le_refl _
  | succ second _ ih =>
      have next := bufferLine_succ ascending second
      split at next <;> omega

/-- An edit at line `line` keeps its hands off all rows that show lines above it, and off those that
show lines from `low` on or are ghosts above such lines. The former stay, and the latter move by as
many rows as there are lines more or less. -/
structure Spares (tracker next : Tracker) (shift : RowShift) (line low : Nat) (delta : Int) :
    Prop where
  ghosts : next.ghosts = tracker.ghosts.map fun ghost =>
    { ghost with row := shift.move ghost.row }
  above : ∀ row, tracker.bufferLine row < line →
    shift.move row = row ∧ next.bufferLine row = tracker.bufferLine row
  below : ∀ row, low ≤ tracker.bufferLine row → (shift.move row : Int) = row + delta ∧
    (next.bufferLine (shift.move row) : Int) = tracker.bufferLine row + delta
  rangesAbove : ∀ range ∈ tracker.added,
    (∀ row, range.Holds row → tracker.bufferLine row < line) → range ∈ next.added
  rangesBelow : ∀ range ∈ tracker.added,
    (∀ row, range.Holds row → low ≤ tracker.bufferLine row) →
      ∃ moved ∈ next.added, (moved.start : Int) = range.start + delta ∧ moved.count = range.count

theorem spares_unmoved (tracker : Tracker) (line low : Nat) :
    tracker.Spares tracker .unmoved line low 0 where
  ghosts := (List.map_id _).symm
  above _ _ := ⟨rfl, rfl⟩
  below _ _ := ⟨(Int.add_zero _).symm, (Int.add_zero _).symm⟩
  rangesAbove _ member _ := member
  rangesBelow range member _ := ⟨range, member, (Int.add_zero _).symm, rfl⟩

section Edit

variable (valid : tracker.Valid)

include valid

theorem move_above (above : tracker.bufferLine row ≤ line)
    (still : 0 < delta → tracker.bufferLine row < line) :
    (tracker.editShift line delta).move row = row := by
  rw [editShift]
  split
  · rename_i positive
    have anchored := anchorRow_le_iff valid.ghosts line row
    have lower := still positive
    simp only [RowShift.move]
    rw [if_neg (by omega)]
  · have none := deletedBefore_eq valid.ghosts line (-delta).toNat row
    simp only [RowShift.move, deletedRows, none]
    omega

theorem move_below (below : line + (-delta).toNat ≤ tracker.bufferLine row) :
    ((tracker.editShift line delta).move row : Int) = row + delta := by
  have within : tracker.bufferLine row ≤ row := Nat.sub_le _ _
  rw [editShift]
  split
  · have anchored := anchorRow_le_iff valid.ghosts line row
    simp only [RowShift.move]
    rw [if_pos (by omega)]
    omega
  · have gone := deletedBefore_eq valid.ghosts line (-delta).toNat row
    simp only [RowShift.move, deletedRows, gone]
    omega

theorem spared_outside (outside : tracker.bufferLine row < line ∨
    line + (-delta).toNat ≤ tracker.bufferLine row) : row ∉ tracker.deletedRows line delta := by
  intro gone
  rcases List.mem_map.mp gone with ⟨deleted, member, rfl⟩
  have bounds := List.mem_range'_1.mp member
  rw [bufferLine_viewRow valid.ghosts] at outside
  omega

/-- A row that is left keeps the ghosts above it. -/
theorem bufferLine_followed (spared : row ∉ tracker.deletedRows line delta) :
    (tracker.followed (tracker.editShift line delta)).bufferLine
        ((tracker.editShift line delta).move row) =
      (tracker.editShift line delta).move row - tracker.removedBefore row := by
  rw [bufferLine, removedBefore_followed (orderly_editShift valid line delta)
    (notMem_deletedRows valid.ghosts line delta) valid spared]

theorem stop_follow_above (member : range ∈ tracker.added)
    (above : ∀ row, range.Holds row → tracker.bufferLine row < line) :
    (range.follow (tracker.editShift line delta)).stop = range.stop := by
  have filled := valid.filled range member
  have width : range.stop = range.start + range.count := rfl
  have last := above (range.stop - 1) ⟨by omega, by omega⟩
  rw [editShift]
  split
  · have anchored := anchorRow_le_iff valid.ghosts line (range.stop - 1)
    rw [AddedRange.stop_follow_inserted filled, if_neg (by omega)]
  · rename_i negative
    have behind := bufferLine_succ valid.ghosts (range.stop - 1)
    rw [Nat.sub_add_cancel (by omega)] at behind
    have order : tracker.bufferLine range.stop ≤ line := by
      split at behind <;> omega
    rw [AddedRange.stop_follow_deleted (deletedRows_ascending tracker line delta)]
    have still := @move_above _ _ _ delta valid order fun positive => absurd positive negative
    rwa [editShift, if_neg negative] at still

theorem stop_follow_below (member : range ∈ tracker.added)
    (below : line + (-delta).toNat ≤ tracker.bufferLine range.start) :
    ((range.follow (tracker.editShift line delta)).stop : Int) = range.stop + delta := by
  have filled := valid.filled range member
  have width : range.stop = range.start + range.count := rfl
  by_cases positive : 0 < delta
  · have anchored := anchorRow_le_iff valid.ghosts line range.start
    rw [editShift, if_pos positive, AddedRange.stop_follow_inserted filled, if_pos (by omega)]
    omega
  · have order := bufferLine_le valid.ghosts (show range.start ≤ range.stop by omega)
    have moved := @move_below _ _ _ delta valid (Nat.le_trans below order)
    rw [editShift, if_neg positive] at moved ⊢
    rw [AddedRange.stop_follow_deleted (deletedRows_ascending tracker line delta)]
    exact moved

theorem spares_followed (low : Nat) (reach : line + (-delta).toNat ≤ low) :
    tracker.Spares (tracker.followed (tracker.editShift line delta))
      (tracker.editShift line delta) line low delta := by
  have ascending := valid.ghosts
  refine ⟨ghosts_followed, ?_, ?_, ?_, ?_⟩
  · intro row above
    have still := @move_above _ _ _ delta valid (Nat.le_of_lt above) fun _ => above
    have shown := @bufferLine_followed _ _ _ delta valid (spared_outside valid (.inl above))
    rw [still] at shown
    exact ⟨still, shown⟩
  · intro row below
    have reached : line + (-delta).toNat ≤ tracker.bufferLine row := Nat.le_trans reach below
    have moved := move_below valid reached
    have shown := bufferLine_followed valid (spared_outside valid (.inr reached))
    have within := removedBefore_le ascending row
    refine ⟨moved, ?_⟩
    rw [shown]
    rw [bufferLine] at reached ⊢
    omega
  · intro range member above
    have filled := valid.filled range member
    have first := above range.start ⟨Nat.le_refl _, Nat.lt_add_of_pos_right filled⟩
    have start := @move_above _ _ _ delta valid (Nat.le_of_lt first) fun _ => first
    have stop := @stop_follow_above _ _ delta _ valid member above
    rw [← AddedRange.start_follow] at start
    have same := AddedRange.eq_of_stop start stop
    exact mem_added_followed.mpr ⟨⟨range, member, same⟩, Nat.ne_of_gt filled⟩
  · intro range member below
    have filled := valid.filled range member
    have first := below range.start ⟨Nat.le_refl _, Nat.lt_add_of_pos_right filled⟩
    have start := move_below valid (Nat.le_trans reach first)
    have stop := stop_follow_below valid member (Nat.le_trans reach first)
    rw [← AddedRange.start_follow] at start
    have count : (range.follow (tracker.editShift line delta)).count = range.count := by
      simp only [AddedRange.stop] at stop
      omega
    refine ⟨_, mem_added_followed.mpr ⟨⟨range, member, rfl⟩, ?_⟩, start, count⟩
    rw [count]
    exact Nat.ne_of_gt filled

end Edit

end Tracker

namespace ExternalEdit

variable {edit : ExternalEdit} {buffer : Buffer} {line after : Nat}

theorem lineDelta_bounds (edit : ExternalEdit) :
    -(countLimit : Int) ≤ edit.lineDelta ∧ edit.lineDelta ≤ countLimit := by
  simp only [lineDelta, signedCount, Int.ofNat_eq_natCast]
  omega

/-- A change of lines that the buffer has, and a memory that holds the buffer before and after. -/
structure Made (edit : ExternalEdit) (buffer : Buffer) : Prop where
  order : edit.start ≤ edit.stop
  inside : edit.stop < buffer.lineCount
  before : buffer.lineCount < Tracker.rowListLimit
  after : (edit.replace buffer).lineCount < Tracker.rowListLimit

theorem Made.lineDelta (made : edit.Made buffer) :
    edit.lineDelta = (edit.typed.length : Int) - (edit.stop + 1 - edit.start : Nat) :=
  lineDelta_eq made.order made.inside made.before made.after

theorem Made.lineCount (made : edit.Made buffer) :
    ((edit.replace buffer).lineCount : Int) = buffer.lineCount + edit.lineDelta := by
  have order := made.order
  have inside := made.inside
  have total := @Buffer.length_replaced buffer edit.start (edit.stop + 1 - edit.start) (by omega)
    edit.typed
  rw [made.lineDelta, replace]
  omega

theorem Made.text_above (made : edit.Made buffer) (above : line < edit.start) :
    (edit.replace buffer).line? line = buffer.line? line := by
  have order := made.order
  have inside := made.inside
  exact Buffer.line?_above above (by omega)

theorem Made.text_below (made : edit.Made buffer) (below : edit.stop < line)
    (moved : (after : Int) = line + edit.lineDelta) :
    (edit.replace buffer).line? after = buffer.line? line := by
  have order := made.order
  have inside := made.inside
  have delta := made.lineDelta
  have place : edit.start ≤ buffer.lineCount := by omega
  have here : line = edit.start + (edit.stop + 1 - edit.start) + (line - (edit.stop + 1)) := by
    omega
  have there : after = edit.start + edit.typed.length + (line - (edit.stop + 1)) := by omega
  rw [here, there]
  exact Buffer.line?_below place _

/-- The tracked rows follow a change, and those outside of the lines that it replaces stay on their
text: a row shows the same text as before, and a ghost stands above the same text. -/
structure KeepsText (edit : ExternalEdit) (buffer : Buffer) (tracker next : Tracker)
    (shift : RowShift) : Prop where
  spares : tracker.Spares next shift edit.start (edit.stop + 1) edit.lineDelta
  above : ∀ row, tracker.bufferLine row < edit.start →
    (edit.replace buffer).line? (next.bufferLine (shift.move row)) =
      buffer.line? (tracker.bufferLine row)
  below : ∀ row, edit.stop < tracker.bufferLine row →
    (edit.replace buffer).line? (next.bufferLine (shift.move row)) =
      buffer.line? (tracker.bufferLine row)

theorem Made.keepsText (made : edit.Made buffer) {tracker next : Tracker} {shift : RowShift}
    (spares : tracker.Spares next shift edit.start (edit.stop + 1) edit.lineDelta) :
    edit.KeepsText buffer tracker next shift := by
  refine ⟨spares, ?_, ?_⟩
  · intro row above
    rcases spares.above row above with ⟨still, shown⟩
    rw [still, shown]
    exact made.text_above above
  · intro row below
    exact made.text_below below (spares.below row below).2

end ExternalEdit

namespace Session

variable {session : Session} {buffer : Buffer} {edit : ExternalEdit}

/-- A session under review follows a change, and its tracked rows are those of its tracker. -/
theorem Coherent.follows_change (coherent : session.Coherent)
    (state : session.state = .reviewing) (made : edit.Made buffer)
    (fits : session.tracker.EditFits edit.start edit.lineDelta) :
    ∃ shift next turn, session.tracker.applyEdit edit.start edit.lineDelta = .ok (shift, next) ∧
      session.applyEdit (edit.replace buffer) edit.start edit.lineDelta = .ok turn ∧
      turn.buffer = edit.replace buffer ∧ turn.session.tracker = next ∧
      edit.KeepsText buffer session.tracker next shift := by
  rcases coherent.under_review state with ⟨draft, tracks, listens, _⟩
  have checked := tracks.sound.tracker
  have delta := made.lineDelta
  by_cases still : edit.lineDelta = 0
  · refine ⟨.unmoved, session.tracker, _, ?_, applyEdit_still listens still, rfl, rfl, ?_⟩
    · rw [Tracker.applyEdit, Tracker.shiftOf, if_pos still]
      simp only [ok_bind, if_pos still]
      rfl
    · apply made.keepsText
      rw [still]
      exact Tracker.spares_unmoved _ _ _
  · have valid := (Tracker.checked_eq_ok.mp checked).2
    have order := made.order
    have inside := made.inside
    have before := made.before
    have short : -(Tracker.rowListLimit : Int) < edit.lineDelta := by
      unfold Tracker.rowListLimit at before ⊢
      omega
    have width : (List.replicate edit.lineDelta.toNat "").length = edit.lineDelta.toNat :=
      List.length_replicate
    rcases tracks.edits listens (edit.replace buffer) still fits short width with
      ⟨later, applied⟩
    have shifted := Tracker.shiftOf_eq fits still short
    refine ⟨_, _, _, Tracker.applyEdit_eq checked fits still short, applied, rfl, ?_, ?_⟩
    · rw [(later.concluded_rows _).1, ← (tracks.shifted still width shifted).1]
      rfl
    · apply made.keepsText
      apply Tracker.spares_followed valid
      omega

end Session

namespace Manager

variable {manager : Manager} {id : BufferId} {opened : Opened} {edit : ExternalEdit}

theorem view_textChange (known : manager.opened? id = some opened)
    (current : manager.current.get? id = some opened.session.stream) {turn : Turn Bool}
    (told : opened.session.applyEdit (manager.document opened.document) edit.start
      edit.lineDelta = .ok turn)
    (coherent : turn.session.Coherent) (stream : turn.session.stream = opened.session.stream) :
    ∃ later, manager.serve (.textChange id edit) = .ok (later, turn.events, .nothing) ∧
      later.view id = turn.session.overlay ∧ later.document opened.document = turn.buffer := by
  by_cases idle : turn.session.state = .idle
  · refine ⟨((manager.setSession { opened with session := turn.session }).setDocument
      opened.document turn.buffer).removeIfCurrent ⟨id, opened.session.stream⟩, ?_, ?_, ?_⟩
    · rw [serve, textChange, externalEdit, known]
      simp only [told, ok_bind, if_pos idle]
      rfl
    · have gone : id = id ∧ manager.current.get? id = some opened.session.stream := ⟨rfl, current⟩
      rw [coherent.blank idle, view_eq, opened?, get?_removeIfCurrent, current_setDocument,
        current_setSession, if_pos gone]
      rfl
    · rw [document_removeIfCurrent, document_setDocument, if_pos rfl]
  · obtain ⟨later, served, opens, document⟩ := serve_textChange known current told idle stream
    exact ⟨later, served, view_of_opened opens, document⟩

end Manager

namespace Traffic

/-- Whatever lines a host replaces, and wherever ghosts and added lines stand around them: once the
change is reported, the rows above the replaced lines are where they were, the rows below them have
moved by the reported number of lines, and all of them are on their text. The reported number is
that of the lines that came or went, and no change can make it overflow. -/
theorem text_change_keeps_text : (∀ edit : ExternalEdit,
      -(countLimit : Int) ≤ edit.lineDelta ∧ edit.lineDelta ≤ countLimit) ∧
    ∀ (traffic : Traffic) (id : BufferId) (opened : Opened) (edit : ExternalEdit),
      traffic.Reachable → traffic.manager.opened? id = some opened →
      opened.session.state = .reviewing →
      edit.Made (traffic.manager.document opened.document) →
      opened.session.tracker.EditFits edit.start edit.lineDelta →
      let buffer := traffic.manager.document opened.document
      let after := edit.replace buffer
      (after.lineCount : Int) = buffer.lineCount + edit.lineDelta ∧
      ∃ shift next told events,
        opened.session.tracker.applyEdit edit.start edit.lineDelta = .ok (shift, next) ∧
        (traffic.manager.setDocument opened.document after).serve (.textChange id edit) =
          .ok (told, events, .nothing) ∧
        told.document opened.document = after ∧
        (told.view id).ghosts = next.ghosts ∧ (told.view id).added = next.added ∧
        edit.KeepsText buffer opened.session.tracker next shift := by
  refine ⟨ExternalEdit.lineDelta_bounds, ?_⟩
  intro traffic id opened edit reachable known state made fits buffer after
  have consistent := reachable.consistent.manager
  rcases consistent.on_table known with ⟨current, found, _, _⟩
  have coherent := (consistent.filed found).2.2.coherent
  obtain ⟨shift, next, turn, applied, reports, same, tracked, keeps⟩ :=
    coherent.follows_change state made fits
  have document : (traffic.manager.setDocument opened.document after).document opened.document =
      after := by
    rw [Manager.document_setDocument, if_pos rfl]
  have told : opened.session.applyEdit ((traffic.manager.setDocument opened.document
      after).document opened.document) edit.start edit.lineDelta = .ok turn := by
    rw [document]
    exact reports
  have stream := (Session.Coherent.edit_reports coherent told).stream
  obtain ⟨later, served, shows, holds⟩ := @Manager.view_textChange
    (traffic.manager.setDocument opened.document after) id opened edit known current turn told
    (coherent.edit told) stream
  refine ⟨made.lineCount, shift, next, later, turn.events, applied, served, holds.trans same, ?_,
    ?_, keeps⟩
  · rw [shows, ← tracked]
    rfl
  · rw [shows, ← tracked]
    rfl

def oneGhost : Session where
  bufferId := ⟨"t"⟩
  stream := ⟨1⟩
  state := .reviewing
  range := ⟨1, 1⟩
  initial := ["b"]
  tracker := ⟨[], [⟨1, "b"⟩]⟩
  registry := ⟨⟨1⟩, 1, [⟨⟨⟨1⟩, 0⟩, 1, 1, 0⟩]⟩
  cursor := 2
  openRun := none
  committed := []
  applied := 1
  running := false
  listening := true
  cancelled := false

def oneRemoved : Traffic where
  manager :=
    { settings := .standard
      documents := ⟨[("d", ⟨["a"]⟩)]⟩
      sessions := ⟨[(⟨1⟩, ⟨oneGhost, "d"⟩)]⟩
      current := ⟨[(⟨"t"⟩, ⟨1⟩)]⟩
      started := 1 }
  runs := [⟨⟨⟨"t"⟩, ⟨1⟩⟩, [], .ended (.completed [])⟩]
  log := [.status ⟨⟨"t"⟩, ⟨1⟩, .streaming, 1, "a"⟩, .overlay ⟨"t"⟩ oneGhost.overlay,
    .status ⟨⟨"t"⟩, ⟨1⟩, .done, 1, "a"⟩, .overlay ⟨"t"⟩ oneGhost.overlay]

theorem oneRemoved_reachable : oneRemoved.Reachable := by
  have blank : (ofDocuments .standard ⟨[("d", ⟨["a", "b"]⟩)]⟩).Reachable := .start _ _
  apply @Reachable.run _ _ [.request (.start ⟨"t"⟩ "d" ⟨1, 1⟩), .launch ⟨⟨"t"⟩, ⟨1⟩⟩,
    .move 0 .check, .move 0 (.receive (.line ⟨.removed, "b"⟩)),
    .move 0 .check, .move 0 (.receive .finished)] blank
  cbv

/-- The line above the ghost gives way to two lines, and the ghost goes down with the end of the
buffer. -/
theorem oneRemoved_keeps_text : ∃ told events,
    (oneRemoved.manager.setDocument "d" ⟨["p", "q"]⟩).serve (.textChange ⟨"t"⟩ ⟨0, 0, "p\nq"⟩) =
        .ok (told, events, .nothing) ∧
      (told.view ⟨"t"⟩).ghosts = [⟨2, "b"⟩] := by
  have made : (⟨0, 0, "p\nq"⟩ : ExternalEdit).Made ⟨["a"]⟩ := by
    constructor <;> decide
  have fits : oneGhost.tracker.EditFits 0 (⟨0, 0, "p\nq"⟩ : ExternalEdit).lineDelta := by
    constructor <;> decide
  obtain ⟨_, shift, next, told, events, _, served, _, ghosts, _, keeps⟩ :=
    text_change_keeps_text.2 oneRemoved ⟨"t"⟩ ⟨oneGhost, "d"⟩ _ oneRemoved_reachable rfl rfl made
      fits
  have moved : shift.move 1 = 2 := by
    have below := (keeps.spares.below 1 (by decide)).1
    have delta : (⟨0, 0, "p\nq"⟩ : ExternalEdit).lineDelta = 1 := by decide
    omega
  refine ⟨told, events, served, ?_⟩
  rw [ghosts, keeps.spares.ghosts]
  exact congrArg (fun row => [Ghost.mk row "b"]) moved

end Traffic

end Redline
