import Redline.Proofs.Coordinates
import Redline.Proofs.Tiling

namespace Redline

/-- A line that nobody questions, or the lines that one change removed and added. -/
inductive Passage where
  | kept (text : String)
  | change (id : BlockId) (removed added : List String)
  deriving DecidableEq, Repr

namespace Passage

def size : Passage → Nat
  | kept _ => 1
  | change _ removed added => removed.length + added.length

def lines : Passage → List String
  | kept text => [text]
  | change _ _ added => added

def id? : Passage → Option BlockId
  | kept _ => none
  | change id _ _ => some id

end Passage

namespace Draft

def size : List Passage → Nat
  | [] => 0
  | passage :: rest => passage.size + size rest

def lines (draft : List Passage) : List String := draft.flatMap Passage.lines

def ids (draft : List Passage) : List BlockId := draft.filterMap Passage.id?

def ghosts (row : Nat) : List Passage → List Ghost
  | [] => []
  | .kept _ :: rest => ghosts (row + 1) rest
  | .change _ removed added :: rest =>
      Tracker.ghostRows row removed ++ ghosts (row + (removed.length + added.length)) rest

def blocks (row : Nat) : List Passage → List Block
  | [] => []
  | .kept _ :: rest => blocks (row + 1) rest
  | .change id removed added :: rest =>
      ⟨id, row, removed.length, added.length⟩ :: blocks (row + (removed.length + added.length)) rest

def tracker (draft : List Passage) : Tracker :=
  ⟨(blocks 0 draft).flatMap Block.addedRanges, ghosts 0 draft⟩

def Filled (draft : List Passage) : Prop := ∀ passage ∈ draft, 0 < passage.size

variable {draft front back : List Passage}

@[simp] theorem size_nil : size [] = 0 := rfl

@[simp] theorem size_cons (passage : Passage) (rest : List Passage) :
    size (passage :: rest) = passage.size + size rest := rfl

@[simp] theorem size_append (front back : List Passage) :
    size (front ++ back) = size front + size back := by
  induction front with
  | nil => rw [List.nil_append, size_nil, Nat.zero_add]
  | cons passage rest ih => rw [List.cons_append, size_cons, size_cons, ih, Nat.add_assoc]

@[simp] theorem size_kept (texts : List String) : size (texts.map .kept) = texts.length := by
  induction texts with
  | nil => rfl
  | cons text rest ih => simp [ih, Passage.size, Nat.add_comm]

@[simp] theorem lines_nil : lines [] = [] := rfl

@[simp] theorem lines_cons (passage : Passage) (rest : List Passage) :
    lines (passage :: rest) = passage.lines ++ lines rest := rfl

@[simp] theorem lines_append (front back : List Passage) :
    lines (front ++ back) = lines front ++ lines back := List.flatMap_append

@[simp] theorem lines_kept (texts : List String) : lines (texts.map .kept) = texts := by
  induction texts with
  | nil => rfl
  | cons text rest ih => simp [ih, Passage.lines]

@[simp] theorem ids_append (front back : List Passage) :
    ids (front ++ back) = ids front ++ ids back := List.filterMap_append

@[simp] theorem ids_nil : ids [] = [] := rfl

@[simp] theorem ids_kept_cons (text : String) (rest : List Passage) :
    ids (.kept text :: rest) = ids rest := rfl

@[simp] theorem ids_change_cons (id : BlockId) (removed added : List String)
    (rest : List Passage) : ids (.change id removed added :: rest) = id :: ids rest := rfl

@[simp] theorem ids_kept (texts : List String) : ids (texts.map .kept) = [] := by
  induction texts with
  | nil => rfl
  | cons text rest ih => exact ih

theorem ghosts_cons (row : Nat) (passage : Passage) (rest : List Passage) :
    ghosts row (passage :: rest) = ghosts row [passage] ++ ghosts (row + passage.size) rest := by
  cases passage with
  | kept text => rfl
  | change id removed added => simp [ghosts, Passage.size]

theorem blocks_cons (row : Nat) (passage : Passage) (rest : List Passage) :
    blocks row (passage :: rest) = blocks row [passage] ++ blocks (row + passage.size) rest := by
  cases passage with
  | kept text => rfl
  | change id removed added => simp [blocks, Passage.size]

theorem ghosts_append (row : Nat) (front back : List Passage) :
    ghosts row (front ++ back) = ghosts row front ++ ghosts (row + size front) back := by
  induction front generalizing row with
  | nil => rfl
  | cons passage rest ih =>
      calc ghosts row (passage :: (rest ++ back))
          = ghosts row [passage] ++ ghosts (row + passage.size) (rest ++ back) := ghosts_cons _ _ _
        _ = ghosts row [passage] ++ ghosts (row + passage.size) rest ++
              ghosts (row + passage.size + size rest) back := by
            rw [ih, List.append_assoc]
        _ = ghosts row (passage :: rest) ++ ghosts (row + size (passage :: rest)) back := by
            rw [← ghosts_cons, size_cons, Nat.add_assoc]

theorem blocks_append (row : Nat) (front back : List Passage) :
    blocks row (front ++ back) = blocks row front ++ blocks (row + size front) back := by
  induction front generalizing row with
  | nil => rfl
  | cons passage rest ih =>
      calc blocks row (passage :: (rest ++ back))
          = blocks row [passage] ++ blocks (row + passage.size) (rest ++ back) := blocks_cons _ _ _
        _ = blocks row [passage] ++ blocks (row + passage.size) rest ++
              blocks (row + passage.size + size rest) back := by
            rw [ih, List.append_assoc]
        _ = blocks row (passage :: rest) ++ blocks (row + size (passage :: rest)) back := by
            rw [← blocks_cons, size_cons, Nat.add_assoc]

@[simp] theorem ghosts_kept (row : Nat) (texts : List String) :
    ghosts row (texts.map .kept) = [] := by
  induction texts generalizing row with
  | nil => rfl
  | cons text rest ih => exact ih (row + 1)

@[simp] theorem blocks_kept (row : Nat) (texts : List String) :
    blocks row (texts.map .kept) = [] := by
  induction texts generalizing row with
  | nil => rfl
  | cons text rest ih => exact ih (row + 1)

theorem map_id_blocks (row : Nat) (draft : List Passage) :
    (blocks row draft).map Block.id = ids draft := by
  induction draft generalizing row with
  | nil => rfl
  | cons passage rest ih =>
      cases passage with
      | kept text => exact ih (row + 1)
      | change id removed added => simp [blocks, ih]

theorem map_row_ghostRows (row : Nat) (texts : List String) :
    (Tracker.ghostRows row texts).map Ghost.row = List.range' row texts.length := by
  induction texts generalizing row with
  | nil => rfl
  | cons text rest ih => simp [Tracker.ghostRows, ih, List.range'_succ]

theorem map_text_ghostRows (row : Nat) (texts : List String) :
    (Tracker.ghostRows row texts).map Ghost.text = texts := by
  induction texts generalizing row with
  | nil => rfl
  | cons text rest ih => simp [Tracker.ghostRows, ih]

@[simp] theorem length_ghostRows (row : Nat) (texts : List String) :
    (Tracker.ghostRows row texts).length = texts.length := by
  have rows := congrArg List.length (map_row_ghostRows row texts)
  simpa using rows

theorem ghostRows_append (row : Nat) (first second : List String) :
    Tracker.ghostRows row (first ++ second) =
      Tracker.ghostRows row first ++ Tracker.ghostRows (row + first.length) second := by
  induction first generalizing row with
  | nil => rfl
  | cons text rest ih =>
      have place : row + 1 + rest.length = row + (rest.length + 1) := by omega
      simp [Tracker.ghostRows, ih, place]

theorem map_row_ghosts (row : Nat) (draft : List Passage) :
    (ghosts row draft).map Ghost.row = (blocks row draft).flatMap Block.ghostRows := by
  induction draft generalizing row with
  | nil => rfl
  | cons passage rest ih =>
      cases passage with
      | kept text => exact ih (row + 1)
      | change id removed added =>
          simp [ghosts, blocks, ih, map_row_ghostRows, Block.ghostRows]

theorem mem_blocks {row : Nat} {block : Block} (member : block ∈ blocks row draft) :
    row ≤ block.start ∧ block.span.stop ≤ row + size draft := by
  induction draft generalizing row with
  | nil => simp [blocks] at member
  | cons passage rest ih =>
      rw [size_cons]
      cases passage with
      | kept text =>
          have inside := @ih (row + 1) member
          simp only [Passage.size]
          omega
      | change id removed added =>
          rcases List.mem_cons.mp member with rfl | member
          · simp only [Passage.size, Block.span, Span.stop]
            omega
          · have inside := ih member
            simp only [Passage.size]
            omega

theorem mem_ghosts {row : Nat} {ghost : Ghost} (member : ghost ∈ ghosts row draft) :
    row ≤ ghost.row ∧ ghost.row < row + size draft := by
  have tracked : ghost.row ∈ (blocks row draft).flatMap Block.ghostRows := by
    rw [← map_row_ghosts]
    exact List.mem_map_of_mem member
  rcases List.mem_flatMap.mp tracked with ⟨block, present, inside⟩
  have bounds := mem_blocks present
  have place := List.mem_range'_1.mp inside
  simp only [Block.span, Span.stop] at bounds
  omega

theorem blocks_apart (row : Nat) (draft : List Passage) :
    (blocks row draft).Pairwise fun first second => first.span.stop ≤ second.start := by
  induction draft generalizing row with
  | nil => exact List.Pairwise.nil
  | cons passage rest ih =>
      cases passage with
      | kept text => exact ih (row + 1)
      | change id removed added =>
          refine List.pairwise_cons.mpr ⟨?_, ih _⟩
          intro later member
          have below := (mem_blocks member).1
          simp only [Block.span, Span.stop]
          omega

theorem tiled (draft : List Passage) : Tiled (tracker draft) (blocks 0 draft) :=
  ⟨map_row_ghosts 0 draft, rfl, blocks_apart 0 draft⟩

theorem ghosts_ascending (draft : List Passage) : Tracker.Ascending (ghosts 0 draft) :=
  List.pairwise_map.mp (tiled draft).ghosts_ascending

theorem filled_kept (texts : List String) : Filled (texts.map .kept) := by
  intro passage member
  rcases List.mem_map.mp member with ⟨text, _, rfl⟩
  exact Nat.one_pos

theorem Filled.blocks (filled : Filled draft) (row : Nat) :
    ∀ block ∈ Draft.blocks row draft, 0 < block.red + block.green := by
  intro block member
  induction draft generalizing row with
  | nil => simp [Draft.blocks] at member
  | cons passage rest ih =>
      have later : Filled rest := fun other present => filled other (List.mem_cons_of_mem _ present)
      cases passage with
      | kept text => exact ih later (row + 1) member
      | change id removed added =>
          rcases List.mem_cons.mp member with rfl | member
          · exact filled _ List.mem_cons_self
          · exact ih later _ member

theorem length_lines_add (row : Nat) (draft : List Passage) :
    (lines draft).length + (ghosts row draft).length = size draft := by
  induction draft generalizing row with
  | nil => rfl
  | cons passage rest ih =>
      have later := ih (row + passage.size)
      rw [ghosts_cons, size_cons, ← later]
      cases passage <;> simp [ghosts, Passage.lines, Passage.size] <;> omega

theorem removedBefore_divided {tracker : Tracker}
    (found : tracker.ghosts = ghosts 0 (front ++ back)) :
    tracker.removedBefore (size front) = (ghosts 0 front).length := by
  have before : ∀ ghost ∈ ghosts 0 front, decide (ghost.row < size front) = true := by
    intro ghost member
    have bounds := mem_ghosts member
    exact decide_eq_true (by omega)
  have behind : (ghosts (0 + size front) back).takeWhile
      (fun ghost => decide (ghost.row < size front)) = [] := by
    cases below : ghosts (0 + size front) back with
    | nil => rfl
    | cons ghost rest =>
        have inside : ghost ∈ ghosts (0 + size front) back := below ▸ List.mem_cons_self
        have bounds := mem_ghosts inside
        simp only [List.takeWhile_cons, decide_eq_true_eq]
        rw [if_neg (by omega)]
  rw [Tracker.removedBefore, found, ghosts_append, List.takeWhile_append_of_pos before, behind,
    List.append_nil]

theorem bufferLine_divided {tracker : Tracker}
    (found : tracker.ghosts = ghosts 0 (front ++ back)) :
    tracker.bufferLine (size front) = (lines front).length := by
  have total := length_lines_add 0 front
  rw [Tracker.bufferLine, removedBefore_divided found]
  omega

end Draft
end Redline
