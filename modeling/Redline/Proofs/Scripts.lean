import Redline.Proofs.Rows
import Redline.Script

namespace Redline.Json

theorem hexDigit?_digitChar {digit : Nat} (small : digit < 16) :
    hexDigit? (Nat.digitChar digit) = some digit := by
  revert digit
  decide

theorem hexValue?_control {code : Nat} (control : code < 0x20) :
    hexValue? '0' '0' (Nat.digitChar (code / 16)) (Nat.digitChar (code % 16)) = some code := by
  have zero : hexDigit? '0' = some 0 := by decide
  have high := hexDigit?_digitChar (show code / 16 < 16 by omega)
  have low := hexDigit?_digitChar (Nat.mod_lt code (by omega : 0 < 16))
  simp only [hexValue?, zero, high, low, Option.bind_eq_bind, Option.bind_some, Option.pure_def,
    Option.some.injEq]
  omega

theorem readText_quote (rest : List Char) : readText ('"' :: rest) = .ok ([], rest) := by
  rw [readText.eq_def]
  rfl

theorem readText_plain {character : Char} (noQuote : character ≠ '"')
    (noEscape : character ≠ '\\') (printed : 0x20 ≤ character.toNat) (rest : List Char) :
    readText (character :: rest) = prepend character (readText rest) := by
  rw [readText.eq_def]
  simp only [noQuote, noEscape, if_false]
  rw [if_neg (by omega)]

theorem readText_letter {letter character : Char} (short : letter ≠ 'u')
    (stands : unescape? letter = some character) (rest : List Char) :
    readText ('\\' :: letter :: rest) = prepend character (readText rest) := by
  rw [readText.eq_def]
  simp [short, stands]

theorem readText_unit {first second third fourth : Char} {unit : Nat}
    (value : hexValue? first second third fourth = some unit) (low : unit < 0xd800)
    (rest : List Char) :
    readText ('\\' :: 'u' :: first :: second :: third :: fourth :: rest) =
      prepend (Char.ofNat unit) (readText rest) := by
  have high : isHighSurrogate unit = false := decide_eq_false (by omega)
  have pair : isLowSurrogate unit = false := decide_eq_false (by omega)
  rw [readText.eq_def]
  simp [value, high, pair]

def lettered : List Char := ['"', '\\', '\x08', '\x0c', '\n', '\r', '\t']

theorem escapeChar_lettered {character : Char} (short : character ∈ lettered) :
    ∃ letter, escapeChar character = ['\\', letter] ∧ letter ≠ 'u' ∧
      unescape? letter = some character := by
  simp only [lettered, List.mem_cons, List.not_mem_nil, or_false] at short
  rcases short with rfl | rfl | rfl | rfl | rfl | rfl | rfl <;>
    exact ⟨_, rfl, by decide, by decide⟩

theorem escapeChar_other {character : Char} (other : character ∉ lettered) :
    escapeChar character =
      if character.toNat < 0x20 then
        ['\\', 'u', '0', '0', Nat.digitChar (character.toNat / 16),
          Nat.digitChar (character.toNat % 16)]
      else [character] := by
  simp only [lettered, List.mem_cons, List.not_mem_nil, or_false, not_or] at other
  simp [escapeChar, other]

theorem readText_escapeChar (character : Char) (rest : List Char) :
    readText (escapeChar character ++ rest) = prepend character (readText rest) := by
  by_cases short : character ∈ lettered
  · rcases escapeChar_lettered short with ⟨letter, written, noUnit, stands⟩
    rw [written]
    exact readText_letter noUnit stands rest
  · rw [escapeChar_other short]
    split
    · rename_i control
      have read := readText_unit (hexValue?_control control) (by omega) rest
      rwa [Char.ofNat_toNat] at read
    · rename_i printed
      apply readText_plain _ _ (Nat.le_of_not_lt printed)
      · rintro rfl
        exact short (by decide)
      · rintro rfl
        exact short (by decide)

theorem readText_escape (text rest : List Char) :
    readText (escape text ++ '"' :: rest) = .ok (text, rest) := by
  induction text with
  | nil => exact readText_quote rest
  | cons character text ih =>
      have written : escape (character :: text) = escapeChar character ++ escape text := rfl
      rw [written, List.append_assoc, readText_escapeChar, ih, prepend]

/-- Newlines are written as escapes, so a written text stays on its line. -/
theorem newline_notMem_escapeChar (character : Char) : '\n' ∉ escapeChar character := by
  have noDigit {digit : Nat} (small : digit < 16) : '\n' ≠ Nat.digitChar digit := by
    intro same
    have read := hexDigit?_digitChar small
    have none : hexDigit? '\n' = none := by decide
    rw [← same, none] at read
    exact absurd read (by simp)
  by_cases short : character ∈ lettered
  · rcases escapeChar_lettered short with ⟨letter, written, _, stands⟩
    have other : '\n' ≠ letter := by
      rintro rfl
      have none : unescape? '\n' = none := by decide
      rw [none] at stands
      exact absurd stands (by simp)
    simp [written, other]
  · have other : '\n' ≠ character := by
      rintro rfl
      exact short (by decide)
    rw [escapeChar_other short]
    split
    · rename_i control
      have high := noDigit (show character.toNat / 16 < 16 by omega)
      have low := noDigit (Nat.mod_lt character.toNat (by omega : 0 < 16))
      simp [high, low]
    · simp [other]

theorem newline_notMem_writeText (text : String) : '\n' ∉ writeText text := by
  simp [writeText, escape, newline_notMem_escapeChar]

theorem writeText_append (text : String) (rest : List Char) :
    writeText text ++ rest = '"' :: (escape text.toList ++ '"' :: rest) := by
  simp [writeText]

theorem skipBlanks_writeText (text : String) (rest : List Char) :
    skipBlanks (writeText text ++ rest) = '"' :: (escape text.toList ++ '"' :: rest) := by
  rw [writeText_append]
  rfl

theorem readString_writeText (text : String) (rest : List Char) :
    readString (writeText text ++ rest) = .ok (text, rest) := by
  rw [readString, skipBlanks_writeText]
  simp only [readText_escape, ok_bind, String.ofList_toList]
  rfl

theorem readVariant_writeText {α : Type} {variants : List (String × α)} {name : String} {value : α}
    (known : variants.lookup name = some value) (rest : List Char) :
    readVariant variants (writeText name ++ rest) = .ok (value, rest) := by
  rw [readVariant, skipBlanks_writeText]
  simp only [readText_escape, ok_bind, variant, String.ofList_toList, known]
  rfl

theorem readKind_writeKind (kind : DiffKind) (rest : List Char) :
    readKind (writeKind kind ++ rest) = .ok (kind, rest) := by
  apply readVariant_writeText
  cases kind <;> rfl

section Entries

variable {α : Type} {fields : List (Field α)} {field : Field α} {seen : List String}
  {record next : α} {name : String} {value rest : List Char}

def separator (first : Bool) : List Char := if first then [] else [',']

theorem nextKey_writeText (first : Bool) (name : String) (rest : List Char) :
    nextKey first (separator first ++ (writeText name ++ rest)) =
      .ok (some (escape name.toList ++ '"' :: rest)) := by
  rw [writeText_append]
  cases first <;> rfl

theorem readEntries_cons (first : Bool)
    (known : fields.find? (fun field => field.name == name) = some field) (fresh : name ∉ seen)
    (reads : field.read record (value ++ rest) = .ok (next, rest)) :
    readEntries fields first seen record
        (separator first ++ (writeText name ++ ':' :: (value ++ rest))) =
      readEntries fields false (name :: seen) next rest := by
  have colon : readColon (':' :: (value ++ rest)) = .ok (value ++ rest) := rfl
  have entry : readEntry fields seen record name (':' :: (value ++ rest)) =
      .ok ((name :: seen, next), rest) := by
    rw [readEntry, known]
    simp only [if_neg fresh, colon, ok_bind, reads]
    rfl
  have shorter : rest.length <
      (separator first ++ (writeText name ++ ':' :: (value ++ rest))).length := by
    simp only [List.length_append, List.length_cons]
    omega
  rw [readEntries, nextKey_writeText]
  simp only [readText_escape, String.ofList_toList, entry, if_pos shorter]

theorem readEntries_nil (first : Bool) :
    readEntries fields first seen record ('\x7d' :: rest) =
      .ok ((seen, record), '\x7d' :: rest) := by
  rw [readEntries]
  rfl

end Entries

theorem read_needed {α β : Type} {name : String} {reader : Reader β} {set : α → β → α}
    {text rest : List Char} {value : β} (record : α) (reads : reader text = .ok (value, rest)) :
    (needed name reader set).read record text = .ok (set record value, rest) := by
  simp only [needed, reads, ok_bind]
  rfl

theorem writeDiffLine_append (line : DiffLine) (rest : List Char) :
    writeDiffLine line ++ rest = '\x7b' :: (separator true ++ (writeText "type" ++ ':' ::
      (writeKind line.kind ++ (separator false ++ (writeText "line" ++ ':' ::
        (writeText line.text ++ '\x7d' :: rest)))))) := by
  simp [writeDiffLine, writeObject, writeEntries, separator]

theorem readDiffLine_writeDiffLine (line : DiffLine) (rest : List Char) :
    readDiffLine (writeDiffLine line ++ rest) = .ok (line, rest) := by
  have opened (text : List Char) : skipBlanks ('\x7b' :: text) = '\x7b' :: text := rfl
  rw [writeDiffLine_append, readDiffLine, readRecord, opened]
  simp only
  rw [readEntries_cons true rfl List.not_mem_nil (read_needed _ (readKind_writeKind line.kind _)),
    readEntries_cons false rfl (by simp) (read_needed _ (readString_writeText line.text _)),
    readEntries_nil]
  rfl

theorem newline_notMem_writeDiffLine (line : DiffLine) : '\n' ∉ writeDiffLine line := by
  simp [writeDiffLine, writeObject, writeEntries, writeKind, newline_notMem_writeText]

theorem readAll_writeDiffLine (line : DiffLine) :
    readAll readDiffLine (writeDiffLine line) = .ok line := by
  have read := readDiffLine_writeDiffLine line []
  rw [List.append_nil] at read
  rw [readAll, read]
  rfl

end Redline.Json

namespace Redline

namespace Text

theorem splitLines_append {line : List Char} (single : '\n' ∉ line) (rest : List Char) :
    splitLines (line ++ '\n' :: rest) = line :: splitLines rest := by
  rw [splitLines_join, splitLines_single single, List.singleton_append]

theorem stripReturn_append {last : Char} (other : last ≠ '\r') (line : List Char) :
    stripReturn (line ++ [last]) = line ++ [last] := by
  induction line with
  | nil => simp [stripReturn, other]
  | cons first rest ih =>
      have more : rest ++ [last] ≠ [] := by simp
      rw [List.cons_append, stripReturn, ih]
      exact fun _ none => absurd none more

theorem endedLines_cons (line : List Char) {lines : List (List Char)} (more : lines ≠ []) :
    endedLines (line :: lines) = stripReturn line :: endedLines lines := by
  rcases List.exists_cons_of_ne_nil more with ⟨next, later, rfl⟩
  rw [endedLines]

theorem records_append {line : List Char} (single : '\n' ∉ line) (rest : List Char) :
    records (line ++ '\n' :: rest) = stripReturn line :: records rest := by
  rw [records, splitLines_append single, endedLines_cons line (splitLines_ne_nil rest), records]

end Text

namespace Script

theorem records_writeLines (lines : List DiffLine) :
    Text.records (writeLines lines) = lines.map Json.writeDiffLine := by
  induction lines with
  | nil => rfl
  | cons line lines ih =>
      have written : writeLines (line :: lines) =
          Json.writeDiffLine line ++ '\n' :: writeLines lines := by
        simp [writeLines]
      have closed : Text.stripReturn (Json.writeDiffLine line) = Json.writeDiffLine line :=
        Text.stripReturn_append (by decide) ('\x7b' :: Json.writeEntries _)
      rw [written, Text.records_append (Json.newline_notMem_writeDiffLine line), closed, ih,
        List.map_cons]

theorem isBlankLine_writeDiffLine (line : DiffLine) :
    isBlankLine (Json.writeDiffLine line) = false := by
  rfl

theorem parseRecords_writeDiffLine (number : Nat) (lines : List DiffLine) :
    parseRecords number (lines.map Json.writeDiffLine) = .ok lines := by
  induction lines generalizing number with
  | nil => rfl
  | cons line lines ih =>
      rw [List.map_cons, parseRecords, isBlankLine_writeDiffLine, Json.readAll_writeDiffLine]
      simp only [Bool.false_eq_true, if_false, ih]

theorem ofFile_toUTF8 (text : String) : ofFile (.ok text.toUTF8) = parse text := by
  have decoded : FileError.decode (.ok text.toUTF8) = .ok text := by
    simp only [FileError.decode, ok_bind, String.fromUTF8?, text.isValidUTF8, String.toUTF8]
    rfl
  rw [ofFile, decoded]

/-- A script that was written is read back line by line, from its text and from a file. -/
theorem written_reads_back (lines : List DiffLine) :
    parse (write lines) = .ok lines ∧ ofFile (.ok (write lines).toUTF8) = .ok lines := by
  have parsed : parse (write lines) = .ok lines := by
    rw [parse, write, String.toList_ofList, records_writeLines, parseRecords_writeDiffLine]
  exact ⟨parsed, by rw [ofFile_toUTF8, parsed]⟩

end Script

end Redline
