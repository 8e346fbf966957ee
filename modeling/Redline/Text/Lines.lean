namespace Redline.Text

/-- Splits at every newline, so a text always has one line more than it has newlines. -/
def splitLines (text : List Char) : List (List Char) := text.splitOn '\n'

def joinLines (lines : List (List Char)) : List Char := ['\n'].intercalate lines

def stripReturn : List Char → List Char
  | [] => []
  | ['\r'] => []
  | character :: rest => character :: stripReturn rest

/-- The lines of a text whose lines end at a newline, or at a carriage return and a
newline. What stands behind the last newline is a line of its own unless it is empty. -/
def endedLines : List (List Char) → List (List Char)
  | [] => []
  | [[]] => []
  | [line] => [line]
  | line :: next :: lines => stripReturn line :: endedLines (next :: lines)

def records (text : List Char) : List (List Char) := endedLines (splitLines text)

theorem splitLines_ne_nil (text : List Char) : splitLines text ≠ [] :=
  List.splitOn_ne_nil '\n' text

theorem joinLines_splitLines (text : List Char) : joinLines (splitLines text) = text :=
  List.intercalate_splitOn '\n'

theorem splitLines_single {line : List Char} (single : '\n' ∉ line) : splitLines line = [line] :=
  List.splitOn_eq_singleton single

theorem splitLines_join (first second : List Char) :
    splitLines (first ++ '\n' :: second) = splitLines first ++ splitLines second :=
  List.splitOn_append_cons_self first second

theorem length_splitLines (text : List Char) :
    (splitLines text).length = text.count '\n' + 1 := by
  induction text with
  | nil => rfl
  | cons character rest ih =>
      rw [splitLines] at ih ⊢
      rw [List.splitOn_cons_eq_if_modifyHead, List.count_cons, apply_ite List.length]
      split <;> simp [ih]

end Redline.Text
