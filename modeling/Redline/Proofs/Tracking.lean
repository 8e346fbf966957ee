import Redline.Proofs.Shifting
import Redline.Session.Review

namespace Redline

namespace Session

structure Tracks (session : Session) (draft : List Passage) : Prop where
  tracker : session.tracker = Draft.tracker draft
  blocks : session.registry.blocks = Draft.blocks 0 draft
  fits : session.tracker.fits = true
  filled : Draft.Filled draft
  distinct : (Draft.ids draft).Nodup
  minted : ∀ id ∈ Draft.ids draft,
    id.stream = session.registry.stream ∧ id.number < session.registry.minted

def redraft (session : Session) (draft : List Passage) : Session :=
  { session with
    tracker := Draft.tracker draft
    registry := { session.registry with blocks := Draft.blocks 0 draft } }

end Session

namespace Draft

variable {front back draft : List Passage}

theorem fits_gapped_of_le {low high : Nat} (below : high ≤ low)
    (fits : (gapped front low back).fits = true) : (gapped front high back).fits = true := by
  rw [fits_iff_mem, gapped_added] at fits ⊢
  simp only [gapped, List.forall_mem_append] at fits ⊢
  refine ⟨⟨fits.1.1, ?_⟩, fits.2.1, ?_⟩
  · intro range member
    rw [← ranges_moved low high] at member
    rcases List.mem_map.mp member with ⟨other, present, rfl⟩
    have small := fits.1.2 other present
    have start := (mem_ranges present).1
    simp only [AddedRange.stop] at small ⊢
    omega
  · intro ghost member
    rw [← ghosts_moved low high] at member
    rcases List.mem_map.mp member with ⟨other, present, rfl⟩
    have small := fits.2.2 other present
    have start := (mem_ghosts present).1
    simp only
    omega

theorem fits_gapped_of_change {id : BlockId} {removed added : List String}
    (fits : (tracker (front ++ .change id removed added :: back)).fits = true) :
    (gapped front (size front + (removed.length + added.length)) back).fits = true := by
  rw [fits_iff_mem] at fits ⊢
  constructor
  · intro range member
    apply fits.1 range
    rw [tracker_append]
    simp only [gapped, blocks, List.flatMap_append, List.flatMap_cons,
      List.mem_append] at member ⊢
    rcases member with above | below
    · exact .inl above
    · exact .inr (.inr below)
  · intro ghost member
    apply fits.2 ghost
    rw [tracker_append]
    simp only [gapped, ghosts] at member ⊢
    rcases List.mem_append.mp member with above | below
    · exact List.mem_append_left _ above
    · exact List.mem_append_right _ (List.mem_append_right _ below)

theorem ghostRun_ghostRows (row : Nat) (texts : List String) (later : List Ghost) :
    Tracker.ghostRun row texts.length (Tracker.ghostRows row texts ++ later) =
      Tracker.ghostRows row texts := by
  induction texts generalizing row with
  | nil => cases later <;> rfl
  | cons text rest ih => simp [Tracker.ghostRows, Tracker.ghostRun, ih]

theorem takeRemoved_eq {tracker : Tracker} {front later : List Ghost} {row : Nat}
    {texts : List String} (found : tracker.ghosts = front ++ (Tracker.ghostRows row texts ++ later))
    (above : ∀ ghost ∈ front, ghost.row < row) (filled : 0 < texts.length) :
    (tracker.takeRemoved row texts.length).2 = { tracker with ghosts := front ++ later } := by
  have other : ∀ ghost ∈ front, (ghost.row != row) = true := by
    intro ghost member
    have order := above ghost member
    rw [bne_iff_ne]
    omega
  have first :
      (Tracker.ghostRows row texts ++ later).takeWhile (fun ghost => ghost.row != row) = [] ∧
      (Tracker.ghostRows row texts ++ later).dropWhile (fun ghost => ghost.row != row) =
        Tracker.ghostRows row texts ++ later := by
    cases texts with
    | nil => simp at filled
    | cons text rest => simp [Tracker.ghostRows]
  simp only [Tracker.takeRemoved, found, List.takeWhile_append_of_pos other,
    List.dropWhile_append_of_pos other, first, List.append_nil, ghostRun_ghostRows,
    List.drop_left]

theorem takeAdded_eq {tracker : Tracker} {front later : List AddedRange} {start count : Nat}
    (found : tracker.added = front ++ (⟨start, count⟩ :: later))
    (above : ∀ range ∈ front, range.start < start) :
    (tracker.takeAdded start).2 = { tracker with added := front ++ later } := by
  have other : ∀ range ∈ front, ¬(range.start == start) = true := by
    intro range member
    have order := above range member
    rw [beq_iff_eq]
    omega
  simp only [Tracker.takeAdded, found]
  rw [List.eraseP_append_right _ other]
  simp

end Draft

namespace Session

variable {session : Session} {front back : List Passage} {id : BlockId}
  {removed added : List String}

theorem Tracks.bufferLine (tracks : session.Tracks (front ++ back)) :
    session.tracker.bufferLine (Draft.size front) = (Draft.lines front).length :=
  Draft.bufferLine_divided (by rw [tracks.tracker]; rfl)

theorem Tracks.ghosts {draft : List Passage} (tracks : session.Tracks draft) :
    session.tracker.ghosts = Draft.ghosts 0 draft := by
  rw [tracks.tracker]
  rfl

theorem Tracks.ghostTexts (tracks : session.Tracks (front ++ .change id removed added :: back)) :
    session.ghostTexts ⟨id, Draft.size front, removed.length, added.length⟩ = removed := by
  have found := tracks.ghosts
  rw [Session.ghostTexts, Draft.removedBefore_divided found, found, Draft.ghosts_append,
    List.drop_left, Draft.ghosts]
  simp only
  rw [List.take_left' (Draft.length_ghostRows _ removed), Draft.map_text_ghostRows]

theorem Tracks.remove (tracks : session.Tracks (front ++ .change id removed added :: back)) :
    (session.registry.remove id).2 = { session.registry with
      blocks := Draft.blocks 0 front ++
        Draft.blocks (Draft.size front + (removed.length + added.length)) back } := by
  have distinct := tracks.distinct
  rw [Draft.ids_append, Draft.ids_change_cons, List.nodup_append] at distinct
  have other : ∀ block ∈ Draft.blocks 0 front, ¬(block.id == id) = true := by
    intro block member same
    have known : block.id ∈ Draft.ids front := by
      rw [← Draft.map_id_blocks 0]
      exact List.mem_map_of_mem member
    exact distinct.2.2 block.id known id List.mem_cons_self (beq_iff_eq.mp same)
  simp only [Registry.remove, tracks.blocks, Draft.blocks_append, Draft.blocks, Nat.zero_add]
  rw [List.eraseP_append_right _ other]
  simp

theorem Tracks.taken (tracks : session.Tracks (front ++ .change id removed added :: back)) :
    (let tracker :=
      if 0 < removed.length then
        (session.tracker.takeRemoved (Draft.size front) removed.length).2
      else session.tracker
    if 0 < added.length then (tracker.takeAdded (Draft.size front + removed.length)).2
    else tracker) =
      Draft.gapped front (Draft.size front + (removed.length + added.length)) back := by
  have ghosts : session.tracker.ghosts = Draft.ghosts 0 front ++
      (Tracker.ghostRows (Draft.size front) removed ++
        Draft.ghosts (Draft.size front + (removed.length + added.length)) back) := by
    rw [tracks.tracker, Draft.tracker_append]
    rfl
  have ranges : session.tracker.added = Draft.ranges 0 front ++
      (Block.addedRanges ⟨id, Draft.size front, removed.length, added.length⟩ ++
        Draft.ranges (Draft.size front + (removed.length + added.length)) back) := by
    rw [tracks.tracker, Draft.tracker_append, Draft.gapped_added]
    rfl
  have unghosted : (if 0 < removed.length then
        (session.tracker.takeRemoved (Draft.size front) removed.length).2
      else session.tracker) = { session.tracker with
        ghosts := Draft.ghosts 0 front ++
          Draft.ghosts (Draft.size front + (removed.length + added.length)) back } := by
    split
    · rename_i filled
      refine Draft.takeRemoved_eq ghosts ?_ filled
      intro ghost member
      have bounds := Draft.mem_ghosts member
      omega
    · rename_i empty
      have none : removed = [] := List.eq_nil_of_length_eq_zero (by omega)
      subst none
      simp only [Tracker.ghostRows, List.nil_append] at ghosts
      rw [← ghosts]
  simp only [unghosted]
  split
  · rename_i filled
    have single : Block.addedRanges ⟨id, Draft.size front, removed.length, added.length⟩ =
        [⟨Draft.size front + removed.length, added.length⟩] := by
      rw [Block.addedRanges, if_neg (by simp only; omega)]
    rw [single] at ranges
    have above : ∀ range ∈ Draft.ranges 0 front,
        range.start < Draft.size front + removed.length := by
      intro range member
      have bounds := Draft.mem_ranges member
      simp only [AddedRange.stop] at bounds
      omega
    have taken := @Draft.takeAdded_eq { session.tracker with
      ghosts := Draft.ghosts 0 front ++
        Draft.ghosts (Draft.size front + (removed.length + added.length)) back }
      _ _ _ _ ranges above
    rw [taken]
    simp [Draft.gapped, Draft.ranges]
  · rename_i empty
    have none : Block.addedRanges ⟨id, Draft.size front, removed.length, added.length⟩ = [] := by
      rw [Block.addedRanges, if_pos (by simp only; omega)]
    rw [none, List.nil_append] at ranges
    rw [ranges]
    simp [Draft.gapped, Draft.ranges]

/-- Forgetting a change closes the gap it leaves, as far as kept lines do not fill it. -/
theorem Tracks.forget (tracks : session.Tracks (front ++ .change id removed added :: back))
    (texts : List String) {offset : Int}
    (width : ((removed.length + added.length : Nat) : Int) + offset = texts.length)
    (closing : offset ≤ 0) :
    session.forget ⟨id, Draft.size front, removed.length, added.length⟩ offset =
      .ok (session.redraft (front ++ (texts.map .kept ++ back))) := by
  have wide : (Draft.gapped front (Draft.size front + (removed.length + added.length)) back).fits =
      true := by
    have fits := tracks.fits
    rw [tracks.tracker] at fits
    exact Draft.fits_gapped_of_change fits
  have narrow : (Draft.gapped front (Draft.size front + texts.length) back).fits = true :=
    Draft.fits_gapped_of_le (by omega) wide
  have filled : Draft.Filled front ∧ Draft.Filled back :=
    ⟨fun passage member => tracks.filled passage (by simp [member]),
      fun passage member => tracks.filled passage (by simp [member])⟩
  have shifted : (Draft.gapped front (Draft.size front + (removed.length + added.length))
      back).shiftFrom (Draft.size front) offset =
        .ok (Draft.gapped front (Draft.size front + texts.length) back) :=
    (Draft.shiftFrom_gapped (Nat.le_refl _) (Nat.le_add_right _ _) (Nat.le_add_right _ _)
      (by omega) wide).mpr ⟨rfl, narrow⟩
  have small : ∀ block ∈ Draft.blocks (Draft.size front + texts.length) back,
      block.start < rowLimit := by
    intro block member
    have present : block ∈ Draft.blocks 0 front ++
        Draft.blocks (Draft.size front + texts.length) back := List.mem_append_right _ member
    have whole := filled.2.blocks _ block member
    have stop := (Draft.tiled_gapped (Nat.le_add_right _ _)).stop_lt narrow present whole
    simp only [Block.span, Span.stop] at stop
    omega
  have moved : (session.registry.remove id).2.shiftFrom (Draft.size front) offset =
      .ok { session.registry with
        blocks := Draft.blocks 0 front ++
          Draft.blocks (Draft.size front + texts.length) back } := by
    rw [tracks.remove]
    exact Draft.shiftFrom_blocks rfl rfl (Nat.le_add_right _ _) (by omega) small filled.1
  have taken := tracks.taken
  simp only at taken
  simp only [Session.forget, taken]
  rw [shifted, ok_bind, moved, ok_bind]
  simp only [Session.redraft, Draft.gapped_eq texts rfl, Draft.blocks_kept_between texts rfl]
  rfl

end Session

end Redline
