import Redline.Proofs.Deciding

/-! The view of a text under review as a list of marked rows, and what edits and decisions make of
that list. -/

namespace Redline

/-- Context is live and belongs to no block; green rows are live as well. -/
inductive Mark where
  | context
  | ghost (id : BlockId)
  | green (id : BlockId)
  deriving DecidableEq, Repr

def Mark.isLive : Mark → Bool
  | ghost _ => false
  | _ => true

structure MarkedRow where
  text : String
  mark : Mark
  deriving DecidableEq, Repr

def MarkedRow.settled (decision : BlockId → Option Bool) : MarkedRow → Option MarkedRow
  | ⟨text, .context⟩ => some ⟨text, .context⟩
  | ⟨text, .ghost id⟩ =>
      match decision id with
      | none => some ⟨text, .ghost id⟩
      | some true => none
      | some false => some ⟨text, .context⟩
  | ⟨text, .green id⟩ =>
      match decision id with
      | none => some ⟨text, .green id⟩
      | some true => some ⟨text, .context⟩
      | some false => none

namespace Markup

def marked (mark : Mark) (texts : List String) : List MarkedRow :=
  texts.map fun text => ⟨text, mark⟩

/-! ## What is read off the rows -/

def lines (rows : List MarkedRow) : List String :=
  (rows.filter fun row => row.mark.isLive).map MarkedRow.text

def ghosts (row : Nat) : List MarkedRow → List Ghost
  | [] => []
  | ⟨text, .ghost _⟩ :: rest => ⟨row, text⟩ :: ghosts (row + 1) rest
  | _ :: rest => ghosts (row + 1) rest

def added (row : Nat) : List MarkedRow → List AddedRange
  | [] => []
  | ⟨_, .green id⟩ :: rest =>
      match rest, added (row + 1) rest with
      | ⟨_, .green next⟩ :: _, range :: ranges =>
          if next = id then ⟨row, range.count + 1⟩ :: ranges else ⟨row, 1⟩ :: range :: ranges
      | _, ranges => ⟨row, 1⟩ :: ranges
  | _ :: rest => added (row + 1) rest

def cover (id : BlockId) (row red green : Nat) : List Block → List Block
  | block :: rest =>
      if block.id = id then ⟨id, row, red + block.red, green + block.green⟩ :: rest
      else ⟨id, row, red, green⟩ :: block :: rest
  | [] => [⟨id, row, red, green⟩]

def blocks (row : Nat) : List MarkedRow → List Block
  | [] => []
  | ⟨_, .context⟩ :: rest => blocks (row + 1) rest
  | ⟨_, .ghost id⟩ :: rest => cover id row 1 0 (blocks (row + 1) rest)
  | ⟨_, .green id⟩ :: rest => cover id row 0 1 (blocks (row + 1) rest)

/-! ## What becomes of the rows -/

/-- The mark of new rows between a row marked `above` and the first of `rows`. -/
def between (above : Mark) (rows : List MarkedRow) : Mark :=
  match above, rows with
  | .green id, ⟨_, .green next⟩ :: _ => if next = id then .green id else .context
  | _, _ => .context

/-- Inserts texts right below the first `line` live rows, where `above` is the mark of the row on
top of the given ones. -/
def insertBelow (texts : List String) (above : Mark) : Nat → List MarkedRow → List MarkedRow
  | 0, rows => marked (between above rows) texts ++ rows
  | _ + 1, [] => marked .context texts
  | line + 1, row :: rest =>
      row :: insertBelow texts row.mark (if row.mark.isLive then line else line + 1) rest

def insert (line : Nat) (texts : List String) (rows : List MarkedRow) : List MarkedRow :=
  insertBelow texts .context line rows

def delete : Nat → Nat → List MarkedRow → List MarkedRow
  | _, _, [] => []
  | low, high, row :: rest =>
      if row.mark.isLive then
        if low = 0 ∧ 0 < high then delete 0 (high - 1) rest
        else row :: delete (low - 1) (high - 1) rest
      else row :: delete low high rest

/-- Of an accepted block the green rows stay, of a rejected one the ghosts come back. -/
def settle (decision : BlockId → Option Bool) (rows : List MarkedRow) : List MarkedRow :=
  rows.filterMap (MarkedRow.settled decision)

variable {rows rest : List MarkedRow} {texts : List String} {id : BlockId} {mark above : Mark}

/-! ## Lines -/

theorem lines_append (front back : List MarkedRow) :
    lines (front ++ back) = lines front ++ lines back := by
  rw [lines, List.filter_append, List.map_append]
  rfl

theorem lines_live (live : mark.isLive = true) (texts : List String) :
    lines (marked mark texts) = texts := by
  simp [lines, marked, List.filter_map, Function.comp_def, live]

theorem lines_ghosts (id : BlockId) (texts : List String) :
    lines (marked (.ghost id) texts) = [] := by
  simp [lines, marked, Mark.isLive]

theorem between_live (above : Mark) (rows : List MarkedRow) :
    (between above rows).isLive = true := by
  unfold between
  split
  · split <;> rfl
  · rfl

theorem lines_cons_live {row : MarkedRow} (live : row.mark.isLive = true)
    (rest : List MarkedRow) : lines (row :: rest) = row.text :: lines rest := by
  simp [lines, live]

theorem lines_cons_ghost {row : MarkedRow} (dead : ¬row.mark.isLive = true)
    (rest : List MarkedRow) : lines (row :: rest) = lines rest := by
  simp [lines, dead]

theorem lines_insertBelow (texts : List String) (above : Mark) (line : Nat)
    (rows : List MarkedRow) : lines (insertBelow texts above line rows) =
      (lines rows).take line ++ (texts ++ (lines rows).drop line) := by
  induction rows generalizing above line with
  | nil =>
      cases line with
      | zero =>
          rw [insertBelow, lines_append, lines_live (between_live above [])]
          simp [lines]
      | succ line =>
          rw [insertBelow, lines_live rfl]
          simp [lines]
  | cons row rest ih =>
      cases line with
      | zero =>
          rw [insertBelow, lines_append, lines_live (between_live above _)]
          rfl
      | succ line =>
          rw [insertBelow]
          by_cases live : row.mark.isLive = true
          · rw [if_pos live, lines_cons_live live, ih, lines_cons_live live]
            rfl
          · rw [if_neg live, lines_cons_ghost live, ih, lines_cons_ghost live]

theorem lines_delete {low high : Nat} (order : low ≤ high) (rows : List MarkedRow) :
    lines (delete low high rows) = (lines rows).take low ++ (lines rows).drop high := by
  induction rows generalizing low high with
  | nil => simp [delete, lines]
  | cons row rest ih =>
      rw [delete]
      by_cases live : row.mark.isLive = true
      · rw [if_pos live, lines_cons_live live]
        by_cases deleted : low = 0 ∧ 0 < high
        · rw [if_pos deleted, ih (Nat.zero_le _), deleted.1]
          rcases Nat.exists_eq_succ_of_ne_zero (Nat.ne_of_gt deleted.2) with ⟨count, rfl⟩
          simp
        · rw [if_neg deleted, lines_cons_live live, ih (Nat.sub_le_sub_right order 1)]
          cases low with
          | zero =>
              have none : high = 0 := by omega
              subst none
              simp
          | succ low =>
              obtain ⟨count, rfl⟩ := Nat.exists_eq_succ_of_ne_zero
                (Nat.ne_of_gt (Nat.lt_of_lt_of_le (Nat.succ_pos low) order))
              simp
      · rw [if_neg live, lines_cons_ghost live, ih order, lines_cons_ghost live]

/-! ## Rows of one kind -/

theorem ghosts_live (live : mark.isLive = true) (row : Nat) (texts : List String)
    (rest : List MarkedRow) :
    ghosts row (marked mark texts ++ rest) = ghosts (row + texts.length) rest := by
  induction texts generalizing row with
  | nil => rfl
  | cons text more ih =>
      have later := ih (row + 1)
      rw [marked] at later ⊢
      rw [List.length_cons, ← Nat.add_assoc, Nat.add_right_comm, ← later]
      cases mark with
      | ghost id => simp [Mark.isLive] at live
      | context => rfl
      | green id => rfl

theorem ghosts_ghosts (id : BlockId) (row : Nat) (texts : List String) (rest : List MarkedRow) :
    ghosts row (marked (.ghost id) texts ++ rest) =
      Tracker.ghostRows row texts ++ ghosts (row + texts.length) rest := by
  induction texts generalizing row with
  | nil => rfl
  | cons text more ih =>
      have later := ih (row + 1)
      rw [marked] at later ⊢
      rw [List.length_cons, Nat.add_comm more.length 1, ← Nat.add_assoc, Tracker.ghostRows,
        List.cons_append, ← later]
      rfl

theorem added_plain (plain : ∀ id, mark ≠ .green id) (row : Nat) (texts : List String)
    (rest : List MarkedRow) :
    added row (marked mark texts ++ rest) = added (row + texts.length) rest := by
  induction texts generalizing row with
  | nil => rfl
  | cons text more ih =>
      have later := ih (row + 1)
      rw [marked] at later ⊢
      rw [List.length_cons, ← Nat.add_assoc, Nat.add_right_comm, ← later]
      cases mark with
      | green id => exact absurd rfl (plain id)
      | context => rfl
      | ghost id => rfl

theorem added_join {row : Nat} {text next : String} {range : AddedRange}
    {ranges : List AddedRange}
    (later : added (row + 1) (⟨next, .green id⟩ :: rest) = range :: ranges) :
    added row (⟨text, .green id⟩ :: ⟨next, .green id⟩ :: rest) =
      ⟨row, range.count + 1⟩ :: ranges := by
  rw [added]
  · exact if_pos rfl
  · exact later

theorem added_green (apart : ∀ first ∈ rest.head?, first.mark ≠ .green id) (row : Nat)
    (texts : List String) : added row (marked (.green id) texts ++ rest) =
      (if texts.length = 0 then [] else [⟨row, texts.length⟩]) ++
        added (row + texts.length) rest := by
  induction texts generalizing row with
  | nil => rfl
  | cons text more ih =>
      have later := ih (row + 1)
      cases more with
      | nil =>
          cases rest with
          | nil => rfl
          | cons first others =>
              have different := apart first rfl
              rcases first with ⟨text, mark⟩
              cases mark with
              | green next =>
                  have other : next ≠ id := fun same => different (by rw [same])
                  simp only [marked, List.map_cons, List.map_nil, List.singleton_append, added,
                    List.length_singleton, Nat.one_ne_zero, if_false]
                  split <;> simp_all
              | context => simp [marked, added]
              | ghost next => simp [marked, added]
      | cons next others =>
          have place : row + 1 + (next :: others).length =
              row + (text :: next :: others).length := by
            simp only [List.length_cons]
            omega
          have some (text : String) (texts : List String) : ¬(text :: texts).length = 0 := by simp
          rw [if_neg (some next others), place] at later
          rw [if_neg (some text (next :: others))]
          exact added_join later

def prepend (block : Block) (rest : List Block) : List Block :=
  if block.red + block.green = 0 then rest else block :: rest

theorem cover_prepend {blocks : List Block} (apart : ∀ block ∈ blocks.head?, block.id ≠ id)
    {row red green : Nat} (filled : 0 < red + green) (start moreRed moreGreen : Nat) :
    cover id row red green (prepend ⟨id, start, moreRed, moreGreen⟩ blocks) =
      prepend ⟨id, row, red + moreRed, green + moreGreen⟩ blocks := by
  have some : ¬red + moreRed + (green + moreGreen) = 0 := by omega
  unfold prepend
  simp only [some, if_false]
  split
  · rename_i none
    have empty : moreRed = 0 ∧ moreGreen = 0 := by omega
    cases blocks with
    | nil => simp [cover, empty]
    | cons block others => simp [cover, empty, apart block rfl]
  · simp [cover]

theorem blocks_change (row : Nat) (removed put : List String)
    (apart : ∀ block ∈ (blocks (row + removed.length + put.length) rest).head?, block.id ≠ id) :
    blocks row (marked (.ghost id) removed ++ (marked (.green id) put ++ rest)) =
      prepend ⟨id, row, removed.length, put.length⟩
        (blocks (row + removed.length + put.length) rest) := by
  -- Ghosts are covered from the lowest up, after all the green rows below them.
  induction removed generalizing row with
  | nil =>
      rw [List.length_nil, Nat.add_zero] at apart ⊢
      change blocks row (marked (.green id) put ++ rest) = _
      induction put generalizing row with
      | nil => rfl
      | cons text more ih =>
          have place : row + (more.length + 1) = row + 1 + more.length := by omega
          rw [List.length_cons, place] at apart ⊢
          have later := ih (row + 1) apart
          change cover id row 0 1 (blocks (row + 1) (marked (.green id) more ++ rest)) = _
          rw [later, cover_prepend apart (Nat.succ_pos 0), Nat.zero_add, Nat.add_comm 1]
  | cons text more ih =>
      have place : row + (more.length + 1) + put.length = row + 1 + more.length + put.length := by
        omega
      rw [List.length_cons, place] at apart ⊢
      have later := ih (row + 1) apart
      change cover id row 1 0 (blocks (row + 1)
        (marked (.ghost id) more ++ (marked (.green id) put ++ rest))) = _
      rw [later, cover_prepend apart (Nat.succ_pos 0), Nat.zero_add, Nat.add_comm 1]

end Markup

open Markup (marked)

def Passage.rows : Passage → List MarkedRow
  | kept text => [⟨text, .context⟩]
  | change id removed added => marked (.ghost id) removed ++ marked (.green id) added

namespace Draft

variable {draft : List Passage} {id : BlockId}

def rows (draft : List Passage) : List MarkedRow := draft.flatMap Passage.rows

theorem rows_kept_cons (text : String) (rest : List Passage) :
    rows (.kept text :: rest) = ⟨text, .context⟩ :: rows rest := rfl

theorem rows_change_cons (id : BlockId) (removed added : List String) (rest : List Passage) :
    rows (.change id removed added :: rest) =
      marked (.ghost id) removed ++ (marked (.green id) added ++ rows rest) := by
  rw [rows, List.flatMap_cons, Passage.rows, List.append_assoc]
  rfl

theorem rows_append (front back : List Passage) : rows (front ++ back) = rows front ++ rows back :=
  List.flatMap_append

theorem rows_kept (texts : List String) : rows (texts.map .kept) = marked .context texts := by
  induction texts with
  | nil => rfl
  | cons text rest ih =>
      rw [List.map_cons, rows_kept_cons, ih]
      rfl

theorem length_rows (draft : List Passage) : (rows draft).length = size draft := by
  induction draft with
  | nil => rfl
  | cons passage rest ih =>
      cases passage with
      | kept text => simp [rows_kept_cons, ih, Passage.size, Nat.add_comm]
      | change id removed added =>
          simp [rows_change_cons, ih, Passage.size, Markup.marked, Nat.add_assoc]

/-! ## What is read off the rows -/

theorem lines_rows (draft : List Passage) : Markup.lines (rows draft) = lines draft := by
  induction draft with
  | nil => rfl
  | cons passage rest ih =>
      cases passage with
      | kept text => rw [rows_kept_cons, Markup.lines_cons_live rfl, ih]; rfl
      | change id removed added =>
          rw [rows_change_cons, Markup.lines_append, Markup.lines_append, Markup.lines_ghosts,
            Markup.lines_live rfl, ih]
          rfl

theorem ghosts_rows (row : Nat) (draft : List Passage) :
    Markup.ghosts row (rows draft) = ghosts row draft := by
  induction draft generalizing row with
  | nil => rfl
  | cons passage rest ih =>
      cases passage with
      | kept text => exact ih (row + 1)
      | change id removed added =>
          rw [rows_change_cons, Markup.ghosts_ghosts, Markup.ghosts_live rfl, ih, Nat.add_assoc]
          rfl

theorem mem_ids_of_mark {row : MarkedRow} (member : row ∈ rows draft)
    (marks : row.mark = .ghost id ∨ row.mark = .green id) : id ∈ ids draft := by
  rcases List.mem_flatMap.mp member with ⟨passage, present, inside⟩
  refine List.mem_filterMap.mpr ⟨passage, present, ?_⟩
  cases passage with
  | kept text =>
      rw [List.mem_singleton.mp inside] at marks
      simp at marks
  | change other removed added =>
      rcases List.mem_append.mp inside with ghost | green
      · rcases List.mem_map.mp ghost with ⟨text, _, rfl⟩
        simp only [Mark.ghost.injEq, reduceCtorEq, or_false] at marks
        rw [marks]
        rfl
      · rcases List.mem_map.mp green with ⟨text, _, rfl⟩
        simp only [Mark.green.injEq, reduceCtorEq, false_or] at marks
        rw [marks]
        rfl

theorem head_apart (absent : id ∉ ids draft) : ∀ first ∈ (rows draft).head?,
    first.mark ≠ .green id := by
  intro first atHead same
  exact absent (mem_ids_of_mark (List.mem_of_mem_head? atHead) (.inr same))

theorem added_rows (row : Nat) (distinct : (ids draft).Nodup) :
    Markup.added row (rows draft) = ranges row draft := by
  induction draft generalizing row with
  | nil => rfl
  | cons passage rest ih =>
      cases passage with
      | kept text => exact ih (row + 1) distinct
      | change id removed added =>
          rcases List.nodup_cons.mp distinct with ⟨absent, later⟩
          rw [rows_change_cons, Markup.added_plain (by simp),
            Markup.added_green (head_apart absent), ih _ later, Nat.add_assoc]
          rfl

theorem blocks_rows (row : Nat) (filled : Filled draft) (distinct : (ids draft).Nodup) :
    Markup.blocks row (rows draft) = blocks row draft := by
  induction draft generalizing row with
  | nil => rfl
  | cons passage rest ih =>
      rcases List.forall_mem_cons.mp filled with ⟨wide, further⟩
      cases passage with
      | kept text => exact ih (row + 1) further distinct
      | change id removed added =>
          rcases List.nodup_cons.mp distinct with ⟨absent, others⟩
          have later := ih (row + removed.length + added.length) further others
          rw [rows_change_cons, Markup.blocks_change, later, Markup.prepend, if_neg, Nat.add_assoc]
          · rfl
          · exact Nat.ne_of_gt wide
          · intro block atHead same
            rw [later] at atHead
            apply absent
            change id ∈ ids rest
            rw [← map_id_blocks (row + removed.length + added.length), ← same]
            exact List.mem_map_of_mem (List.mem_of_mem_head? atHead)

/-! ## What becomes of the rows -/

theorem settle_marked (decision : BlockId → Option Bool) (mark : Mark) (texts : List String)
    {result : String → Option MarkedRow}
    (each : ∀ text, MarkedRow.settled decision ⟨text, mark⟩ = result text) :
    Markup.settle decision (marked mark texts) = texts.filterMap result := by
  rw [Markup.settle, marked, List.filterMap_map]
  exact List.filterMap_congr fun text _ => each text

theorem filterMap_marked (mark : Mark) (texts : List String) :
    (texts.filterMap fun text => some (⟨text, mark⟩ : MarkedRow)) = marked mark texts := by
  rw [List.filterMap_eq_map']
  rfl

theorem settle_rows (decision : BlockId → Option Bool) (draft : List Passage) :
    Markup.settle decision (rows draft) = rows (settled decision draft) := by
  have passages (passage : Passage) :
      Markup.settle decision passage.rows = rows (passage.settled decision) := by
    cases passage with
    | kept text => rfl
    | change id removed added =>
        rw [Passage.rows, Markup.settle, List.filterMap_append]
        change Markup.settle decision _ ++ Markup.settle decision _ = _
        rcases decided : decision id with _ | accept
        · rw [settle_marked decision _ removed fun text => by rw [MarkedRow.settled, decided],
            settle_marked decision _ added fun text => by rw [MarkedRow.settled, decided],
            filterMap_marked, filterMap_marked]
          simp [Passage.settled, decided, rows, Passage.rows]
        · cases accept with
          | true =>
              rw [settle_marked decision _ removed fun text => by rw [MarkedRow.settled, decided],
                settle_marked decision _ added fun text => by rw [MarkedRow.settled, decided],
                filterMap_marked]
              simp [Passage.settled, decided, rows_kept]
          | false =>
              rw [settle_marked decision _ removed fun text => by rw [MarkedRow.settled, decided],
                settle_marked decision _ added fun text => by rw [MarkedRow.settled, decided],
                filterMap_marked]
              simp [Passage.settled, decided, rows_kept]
  induction draft with
  | nil => rfl
  | cons passage rest ih =>
      calc Markup.settle decision (rows (passage :: rest))
          = Markup.settle decision passage.rows ++ Markup.settle decision (rows rest) :=
            List.filterMap_append
        _ = rows (passage.settled decision) ++ rows (settled decision rest) := by
            rw [passages, ih]
        _ = rows (settled decision (passage :: rest)) := by
            rw [settled_cons, rows_append]

theorem insertBelow_succ (texts : List String) (above other : Mark) (line : Nat)
    (rows : List MarkedRow) : Markup.insertBelow texts above (line + 1) rows =
      Markup.insertBelow texts other (line + 1) rows := by
  cases rows <;> rfl

theorem insertBelow_ghosts (texts removed : List String) (above : Mark) (line : Nat)
    (rest : List MarkedRow) :
    Markup.insertBelow texts above (line + 1) (marked (.ghost id) removed ++ rest) =
      marked (.ghost id) removed ++ Markup.insertBelow texts above (line + 1) rest := by
  induction removed generalizing above with
  | nil => rfl
  | cons text more ih =>
      change _ :: Markup.insertBelow texts (.ghost id) (line + 1) (marked (.ghost id) more ++ rest)
        = _ :: (marked (.ghost id) more ++ _)
      rw [ih, insertBelow_succ texts (.ghost id) above]

theorem insertBelow_inside {texts added : List String} {line : Nat} (above : Mark)
    (inside : line + 1 < added.length) (rest : List MarkedRow) :
    Markup.insertBelow texts above (line + 1) (marked (.green id) added ++ rest) =
      marked (.green id) (added.take (line + 1) ++ texts ++ added.drop (line + 1)) ++ rest := by
  induction line generalizing above added with
  | zero =>
      match added, inside with
      | first :: second :: more, _ => simp [marked, Markup.insertBelow, Markup.between, Mark.isLive]
  | succ line ih =>
      match added, inside with
      | first :: more, inside =>
          have later := ih (.green id) (Nat.lt_of_succ_lt_succ inside)
          change _ :: Markup.insertBelow texts (.green id) (line + 1)
            (marked (.green id) more ++ rest) = _
          rw [later]
          simp [marked]

theorem insertBelow_outside {texts added : List String} {line : Nat} (above : Mark)
    (outside : added.length ≤ line) (rest : List MarkedRow) :
    Markup.insertBelow texts above line (marked (.green id) added ++ rest) =
      marked (.green id) added ++ Markup.insertBelow texts
        (if added.length = 0 then above else .green id) (line - added.length) rest := by
  induction added generalizing above line with
  | nil => rfl
  | cons text more ih =>
      obtain ⟨lower, rfl⟩ := Nat.exists_eq_succ_of_ne_zero
        (Nat.ne_of_gt (Nat.lt_of_lt_of_le (Nat.succ_pos _) outside))
      have later := ih (.green id) (Nat.le_of_succ_le_succ outside)
      change _ :: Markup.insertBelow texts (.green id) lower (marked (.green id) more ++ rest) = _
      rw [later]
      simp [marked]

theorem insertBelow_rows (texts : List String) {above : Mark} (line : Nat)
    (apart : ∀ id ∈ ids draft, above ≠ .green id) (distinct : (ids draft).Nodup) :
    Markup.insertBelow texts above line (rows draft) = rows (insertAt texts line draft) := by
  -- New rows are context at the very top of a passage, whatever stands above it.
  have atOnce : ∀ {above : Mark} {draft : List Passage}, (∀ id ∈ ids draft, above ≠ .green id) →
      Markup.insertBelow texts above 0 (rows draft) = rows (insertAt texts 0 draft) := by
    intro above draft apart
    have context : Markup.between above (rows draft) = .context := by
      unfold Markup.between
      split
      · rename_i id text next rest shown
        apply if_neg
        intro same
        have member : (⟨text, .green next⟩ : MarkedRow) ∈ rows draft := by
          rw [shown]
          exact List.mem_cons_self
        exact apart next (mem_ids_of_mark member (.inr rfl)) (by rw [same])
      · rfl
    rw [Markup.insertBelow, context, insertAt, rows_append, rows_kept]
  induction draft generalizing above line with
  | nil =>
      cases line with
      | zero => exact atOnce apart
      | succ line =>
          rw [insertAt, rows_kept]
          rfl
  | cons passage rest ih =>
      cases line with
      | zero => exact atOnce apart
      | succ line =>
          cases passage with
          | kept text =>
              have later := @ih .context line (by simp) distinct
              rw [insertAt, rows_kept_cons, rows_kept_cons, ← later]
              rfl
          | change id removed added =>
              rcases List.nodup_cons.mp distinct with ⟨absent, others⟩
              rw [rows_change_cons, insertBelow_ghosts, insertAt]
              by_cases inside : line + 1 < added.length
              · rw [if_pos inside, insertBelow_inside above inside, rows_change_cons]
              · rw [if_neg inside, insertBelow_outside above (Nat.le_of_not_lt inside),
                  rows_change_cons, ih]
                · intro other member same
                  split at same
                  · exact apart other (List.mem_cons_of_mem id member) same
                  · rw [Mark.green.inj same] at absent
                    exact absent member
                · exact others

theorem insert_rows (texts : List String) (line : Nat) (distinct : (ids draft).Nodup) :
    Markup.insert line texts (rows draft) = rows (insertAt texts line draft) := by
  apply insertBelow_rows texts line _ distinct
  intro id _
  exact Mark.noConfusion

theorem delete_ghosts (low high : Nat) (removed : List String) (rest : List MarkedRow) :
    Markup.delete low high (marked (.ghost id) removed ++ rest) =
      marked (.ghost id) removed ++ Markup.delete low high rest := by
  induction removed with
  | nil => rfl
  | cons text more ih =>
      change _ :: Markup.delete low high (marked (.ghost id) more ++ rest) = _
      rw [ih]
      rfl

theorem delete_live {mark : Mark} (live : mark.isLive = true) {low high : Nat} (order : low ≤ high)
    (texts : List String) (rest : List MarkedRow) :
    Markup.delete low high (marked mark texts ++ rest) =
      marked mark (texts.take low ++ texts.drop high) ++
        Markup.delete (low - texts.length) (high - texts.length) rest := by
  induction texts generalizing low high with
  | nil => simp [marked]
  | cons text more ih =>
      have unfolded : Markup.delete low high (marked mark (text :: more) ++ rest) =
          if low = 0 ∧ 0 < high then Markup.delete 0 (high - 1) (marked mark more ++ rest)
          else ⟨text, mark⟩ :: Markup.delete (low - 1) (high - 1) (marked mark more ++ rest) := by
        rw [marked, List.map_cons, List.cons_append, Markup.delete]
        exact if_pos live
      rw [unfolded, List.length_cons]
      by_cases deleted : low = 0 ∧ 0 < high
      · rcases deleted with ⟨rfl, positive⟩
        rcases Nat.exists_eq_succ_of_ne_zero (Nat.ne_of_gt positive) with ⟨count, rfl⟩
        rw [if_pos ⟨rfl, positive⟩, ih (Nat.zero_le _)]
        simp
      · rw [if_neg deleted, ih (Nat.sub_le_sub_right order 1)]
        cases low with
        | zero =>
            have none : high = 0 := by omega
            subst none
            simp [marked]
        | succ low =>
            obtain ⟨count, rfl⟩ := Nat.exists_eq_succ_of_ne_zero
              (Nat.ne_of_gt (Nat.lt_of_lt_of_le (Nat.succ_pos low) order))
            simp [marked]

theorem delete_rows {low high : Nat} (order : low ≤ high) (draft : List Passage) :
    Markup.delete low high (rows draft) = rows (deleteLines low high draft) := by
  induction draft generalizing low high with
  | nil => rfl
  | cons passage rest ih =>
      cases passage with
      | kept text =>
          rw [rows_kept_cons, Markup.delete, deleteLines]
          simp only [Mark.isLive, if_true]
          by_cases deleted : low = 0 ∧ 0 < high
          · rw [if_pos deleted, if_pos deleted, ih (Nat.zero_le _)]
          · rw [if_neg deleted, if_neg deleted, ih (Nat.sub_le_sub_right order 1), rows_kept_cons]
      | change id removed added =>
          rw [rows_change_cons, delete_ghosts, delete_live rfl order,
            ih (Nat.sub_le_sub_right order _), deleteLines]
          split
          · rename_i empty
            have none : removed = [] ∧ added.take low ++ added.drop high = [] := by
              constructor
              · exact List.eq_nil_of_length_eq_zero (by omega)
              · exact List.eq_nil_of_length_eq_zero (by omega)
            rw [none.1, none.2]
            rfl
          · rw [rows_change_cons]

end Draft

end Redline
