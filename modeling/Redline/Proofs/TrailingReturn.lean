import Redline.Proofs.Scripts

/-! A carriage return behind a text of JSON is blank. Every reader of diff lines does the same
with and without it, and leaves it behind; a text that is refused is refused with it as well. -/

namespace Redline.Json

variable {α β γ δ ε : Type}

inductive Agrees (image : α → β) : Except Error β → Except Error α → Prop
  | ok (value : α) : Agrees image (.ok (image value)) (.ok value)
  | error (first second : Error) : Agrees image (.error first) (.error second)

namespace Agrees

variable {image : α → β} {carry : γ → δ} {long : Except Error β} {short : Except Error α}

theorem of_fails (fails : long.toOption = none) (second : Error) :
    Agrees image long (.error second) := by
  cases long with
  | ok value => simp [Except.toOption] at fails
  | error first => exact .error first second

theorem bind {follow : β → Except Error δ} {next : α → Except Error γ}
    (agrees : Agrees image long short)
    (rest : ∀ value, Agrees carry (follow (image value)) (next value)) :
    Agrees carry (long >>= follow) (short >>= next) := by
  cases agrees with
  | ok value => exact rest value
  | error first second => exact .error first second

theorem between (done : Except Error ε) {follow : ε → Except Error δ} {next : ε → Except Error γ}
    (rest : ∀ value, Agrees carry (follow value) (next value)) :
    Agrees carry (done >>= follow) (done >>= next) := by
  cases done with
  | error error => exact .error error error
  | ok value => exact rest value

theorem refusing {refused : Prop} [Decidable refused] (agrees : Agrees image long short)
    (first second : Error) :
    Agrees image (if refused then .error first else long)
      (if refused then .error second else short) := by
  by_cases holds : refused
  · rw [if_pos holds, if_pos holds]
    exact .error first second
  · rw [if_neg holds, if_neg holds]
    exact agrees

theorem eq_ok {value : α} (agrees : Agrees image long short) (read : short = .ok value) :
    long = .ok (image value) := by
  subst read
  cases agrees
  rfl

theorem eq_error {second : Error} (agrees : Agrees image long short)
    (refused : short = .error second) : ∃ first, long = .error first := by
  subst refused
  cases agrees with
  | error first => exact ⟨first, rfl⟩

theorem toOption_eq (agrees : Agrees image long short) :
    long.toOption = short.toOption.map image := by
  cases agrees with
  | ok value => rfl
  | error first second => rfl

end Agrees

def leave (read : α × List Char) : α × List Char := (read.1, read.2 ++ ['\r'])

def Steady (reader : Reader α) : Prop :=
  ∀ rest, Agrees leave (reader (rest ++ ['\r'])) (reader rest)

def Passes (skip : List Char → Except Error (List Char)) : Prop :=
  ∀ rest, Agrees (· ++ ['\r']) (skip (rest ++ ['\r'])) (skip rest)

/-! ## Strings -/

theorem prepend_agrees {long short : Except Error (List Char × List Char)} (character : Char)
    (agrees : Agrees leave long short) :
    Agrees leave (prepend character long) (prepend character short) := by
  cases agrees with
  | ok read => exact .ok (character :: read.1, read.2)
  | error first second => exact .error first second

@[simp] theorem hexValue?_return (first second third : Char) :
    hexValue? first second third '\r' = none := by
  have none : hexDigit? '\r' = none := by decide
  simp [hexValue?, none]

theorem unescape?_return : unescape? '\r' = none := by decide

/-- Where four characters do not stand, they do not stand with the carriage return either, or it
is the last of them, and that is no digit. -/
theorem few_return {short : List Char}
    (few : ∀ first second third fourth rest,
      short = first :: second :: third :: fourth :: rest → False) :
    (∃ first second third, short = [first, second, third]) ∨
      ∀ first second third fourth rest,
        short ++ ['\r'] = first :: second :: third :: fourth :: rest → False := by
  rcases short with _ | ⟨first, _ | ⟨second, _ | ⟨third, _ | ⟨fourth, rest⟩⟩⟩⟩
  · exact .inr (by simp)
  · exact .inr (by simp)
  · exact .inr (by simp)
  · exact .inl ⟨first, second, third, rfl⟩
  · exact (few first second third fourth rest rfl).elim

theorem readText_steady : Steady readText := by
  intro rest
  fun_induction readText rest with
  | case2 rest =>
      rw [List.cons_append, readText_quote]
      exact .ok ([], rest)
  | case9 first second third fourth high value isLow isHigh a b c d rest low next follows _ ih =>
      simp only [List.cons_append]
      rw [readText.eq_def]
      simp only [value, next, isLow, isHigh, follows]
      exact prepend_agrees _ ih
  | case11 first second third fourth high value isLow isHigh short few =>
      apply Agrees.of_fails
      simp only [List.cons_append]
      rw [readText.eq_def]
      rcases few_return few with ⟨a, b, c, rfl⟩ | fewer
      · simp [value, isLow, isHigh, Except.toOption]
      · simp [value, isLow, isHigh, Except.toOption]
  | case12 first second third fourth rest high value isLow isHigh noEnd noStart pair noUnit _ =>
      apply Agrees.of_fails
      simp only [List.cons_append]
      rw [readText.eq_def]
      rcases rest with _ | ⟨a, _ | ⟨b, rest⟩⟩
      · exact (noEnd rfl).elim
      · simp [value, isLow, isHigh, Except.toOption]
      · simp only [List.cons_append, value, isLow, isHigh]
        by_cases starts : a = '\\' ∧ b = 'u'
        · exact (noUnit rest (by rw [starts.1, starts.2])).elim
        · simp [Except.toOption]
          split <;> simp_all
  | case13 first second third fourth rest unit value low high _ ih =>
      simp only [List.cons_append]
      rw [readText.eq_def]
      simp only [value, low, high]
      exact prepend_agrees _ ih
  | case14 short few =>
      apply Agrees.of_fails
      rw [List.cons_append, List.cons_append, readText.eq_def]
      rcases few_return few with ⟨first, second, third, rfl⟩ | fewer
      · simp [Except.toOption]
      · simp [Except.toOption]
  | case15 letter rest short character stands _ ih =>
      simp only [List.cons_append]
      rw [readText_letter short stands]
      exact prepend_agrees _ ih
  | case18 letter rest noQuote noEscape printed ih =>
      simp only [List.cons_append]
      rw [readText_plain noQuote noEscape (Nat.le_of_not_lt printed)]
      exact prepend_agrees _ ih
  | _ =>
      -- Both texts are refused where the second one is.
      apply Agrees.of_fails
      simp only [List.cons_append, List.nil_append]
      rw [readText.eq_def]
      simp_all [Except.toOption, unescape?_return]

theorem skipText_passes : Passes skipText := by
  intro rest
  fun_induction skipText rest with
  | case2 rest =>
      rw [skipText.eq_def]
      exact .ok rest
  | case5 first second third fourth rest unit value _ ih =>
      simp only [List.cons_append]
      rw [skipText.eq_def]
      simpa [value] using ih
  | case6 short few =>
      apply Agrees.of_fails
      rw [List.cons_append, List.cons_append, skipText.eq_def]
      rcases few_return few with ⟨first, second, third, rfl⟩ | fewer
      · simp [Except.toOption]
      · simp [Except.toOption]
  | case7 letter rest short character stands _ ih =>
      simp only [List.cons_append]
      rw [skipText.eq_def]
      simpa [short, stands] using ih
  | case10 letter rest noQuote noEscape printed ih =>
      simp only [List.cons_append]
      rw [skipText.eq_def]
      simpa [noQuote, noEscape, printed] using ih
  | _ =>
      apply Agrees.of_fails
      simp only [List.cons_append, List.nil_append]
      rw [skipText.eq_def]
      simp_all [Except.toOption, unescape?_return]

/-! ## Numbers -/

theorem takeWhile_ended {belongs : Char → Bool} (ends : belongs '\r' = false) (rest : List Char) :
    (rest ++ ['\r']).takeWhile belongs = rest.takeWhile belongs := by
  induction rest with
  | nil => simp [ends]
  | cons character rest ih => rw [List.cons_append, List.takeWhile_cons, List.takeWhile_cons, ih]

theorem dropWhile_ended {belongs : Char → Bool} (ends : belongs '\r' = false) (rest : List Char) :
    (rest ++ ['\r']).dropWhile belongs = rest.dropWhile belongs ++ ['\r'] := by
  induction rest with
  | nil => simp [ends]
  | cons character rest ih =>
      rw [List.cons_append, List.dropWhile_cons, List.dropWhile_cons, ih]
      split <;> simp

theorem readDigits_steady (atEnd : Error) : Steady (readDigits atEnd) := by
  intro rest
  rcases rest with _ | ⟨character, rest⟩
  · exact .error _ _
  · have taken := takeWhile_ended (show '\r'.isDigit = false by decide) (character :: rest)
    have left := dropWhile_ended (show '\r'.isDigit = false by decide) (character :: rest)
    rw [List.cons_append] at taken left ⊢
    rw [readDigits, readDigits, taken, left]
    split
    · exact .ok (_, _)
    · exact .error _ _

theorem readWhole_eq (atEnd : Error) (rest : List Char) :
    readWhole atEnd rest = readDigits atEnd rest >>= fun read =>
      if read.1.head? = some '0' ∧ 1 < read.1.length then .error .invalidNumber else .ok read :=
  rfl

theorem readWhole_steady (atEnd : Error) : Steady (readWhole atEnd) := by
  intro rest
  rw [readWhole_eq, readWhole_eq]
  refine (readDigits_steady atEnd rest).bind fun read => ?_
  exact (Agrees.ok read).refusing _ _

theorem readFraction_steady (atEnd : Error) : Steady (readFraction atEnd) := by
  intro rest
  rcases rest with _ | ⟨character, rest⟩
  · exact .ok ([], [])
  · by_cases point : character = '.'
    · subst point
      exact readDigits_steady atEnd rest
    · rw [List.cons_append, readFraction, readFraction]
      · exact .ok ([], character :: rest)
      · simp [point]
      · simp [point]

theorem readSign_ended (rest : List Char) :
    readSign (rest ++ ['\r']) = leave (readSign rest) := by
  rcases rest with _ | ⟨character, rest⟩
  · rfl
  · rw [List.cons_append]
    unfold readSign
    split <;> simp_all [leave]

theorem readExponent_steady (atEnd : Error) : Steady (readExponent atEnd) := by
  intro rest
  rcases rest with _ | ⟨mark, rest⟩
  · exact .ok (none, [])
  · rw [List.cons_append, readExponent, readExponent]
    split
    · rw [readSign_ended]
      refine (readDigits_steady atEnd _).bind fun read => ?_
      exact .ok (_, _)
    · exact .ok (none, mark :: rest)

def readUnsigned (atEnd : Error) (negative : Bool) (rest : List Char) :
    Except Error (Numeral × List Char) := do
  let (whole, rest) ← readWhole atEnd rest
  let (fraction, rest) ← readFraction atEnd rest
  let (exponent, rest) ← readExponent atEnd rest
  return (⟨negative, whole, fraction, exponent⟩, rest)

theorem readNumeral_plain {character : Char} (atEnd : Error) (plain : character ≠ '-')
    (rest : List Char) :
    readNumeral atEnd (character :: rest) = readUnsigned atEnd false (character :: rest) := by
  rw [readNumeral, readUnsigned]
  simp [plain]

theorem readUnsigned_steady (atEnd : Error) (negative : Bool) :
    Steady (readUnsigned atEnd negative) := by
  intro rest
  refine (readWhole_steady atEnd rest).bind fun read => ?_
  refine (readFraction_steady atEnd read.2).bind fun read => ?_
  refine (readExponent_steady atEnd read.2).bind fun read => ?_
  exact .ok (_, _)

theorem readNumeral_steady (atEnd : Error) : Steady (readNumeral atEnd) := by
  intro rest
  rcases rest with _ | ⟨character, rest⟩
  · exact .error _ _
  · rw [List.cons_append]
    by_cases minus : character = '-'
    · subst minus
      exact readUnsigned_steady atEnd true rest
    · rw [readNumeral_plain atEnd minus, readNumeral_plain atEnd minus]
      exact readUnsigned_steady atEnd false (character :: rest)

/-! ## Values that are passed over -/

theorem skipBlanks_nil {rest : List Char} (none : skipBlanks rest = []) :
    skipBlanks (rest ++ ['\r']) = [] := by
  rw [skipBlanks] at none ⊢
  rw [List.dropWhile_append, none]
  rfl

theorem skipBlanks_cons {rest behind : List Char} {character : Char}
    (found : skipBlanks rest = character :: behind) :
    skipBlanks (rest ++ ['\r']) = character :: (behind ++ ['\r']) := by
  rw [skipBlanks] at found ⊢
  rw [List.dropWhile_append, found]
  rfl

/-- Behind the blanks, either nothing is left of both texts or they begin with the same
character. -/
@[elab_as_elim]
theorem behind_blanks {motive : List Char → List Char → Prop} (rest : List Char)
    (nil : motive [] [])
    (cons : ∀ character behind, motive (character :: (behind ++ ['\r'])) (character :: behind)) :
    motive (skipBlanks (rest ++ ['\r'])) (skipBlanks rest) := by
  rcases found : skipBlanks rest with _ | ⟨character, behind⟩
  · rw [skipBlanks_nil found]
    exact nil
  · rw [skipBlanks_cons found]
    exact cons character behind

theorem readWord_passes {letters : List Char} (visible : '\r' ∉ letters) :
    Passes (readWord letters) := by
  intro rest
  fun_induction readWord letters rest with
  | case1 rest => exact .ok rest
  | case2 letter letters =>
      rw [List.nil_append, readWord, if_neg (List.ne_of_not_mem_cons visible)]
      exact .error _ _
  | case3 letter letters rest ih =>
      rw [List.cons_append, readWord, if_pos rfl]
      exact ih (List.not_mem_of_not_mem_cons visible)
  | case4 letter letters character rest other =>
      rw [List.cons_append, readWord, if_neg other]
      exact .error _ _

theorem skipLeaf_passes (character : Char) : Passes (skipLeaf character) := by
  intro rest
  rw [skipLeaf, skipLeaf]
  split
  · exact skipText_passes rest
  split
  · exact readWord_passes (by decide) rest
  split
  · exact readWord_passes (by decide) rest
  split
  · exact readWord_passes (by decide) rest
  split
  · exact (readNumeral_steady _ (character :: rest)).bind fun read => .ok read.2
  · exact .error _ _

theorem skipKey_passes : Passes skipKey := by
  intro rest
  rw [skipKey, skipKey]
  refine behind_blanks rest (.error _ _) fun character behind => ?_
  simp only
  split
  · refine (skipText_passes behind).bind fun after => ?_
    refine behind_blanks after (.error _ _) fun colon rest => ?_
    simp only
    split
    · exact .ok rest
    · exact .error _ _
  · exact .error _ _

theorem skipFrom_value (brackets : List Bracket) (rest : List Char) :
    skipFrom .value brackets rest =
      match skipBlanks rest with
      | [] => .error (.endOf .value)
      | character :: behind =>
          if character = '[' then skipFrom .opened (.list :: brackets) behind
          else if character = '\x7b' then skipFrom .opened (.object :: brackets) behind
          else skipLeaf character behind >>= skipFrom .separator brackets := by
  rw [skipFrom.eq_def]
  rcases skipBlanks rest with _ | ⟨character, behind⟩
  · rfl
  · simp only
    rcases skipLeaf character behind with error | after <;> rfl

theorem skipFrom_nil {due : Due} (other : due ≠ .value) (rest : List Char) :
    skipFrom due [] rest = .ok rest := by
  rw [skipFrom.eq_def]
  cases due <;> simp_all

theorem skipFrom_cons {due : Due} (other : due ≠ .value) (bracket : Bracket)
    (outer : List Bracket) (rest : List Char) :
    skipFrom due (bracket :: outer) rest =
      match skipBlanks rest with
      | [] => .error (.endOf bracket.construct)
      | character :: behind =>
          if character = bracket.closing then skipFrom .separator outer behind
          else if due = .opened then
            match bracket with
            | .list => skipFrom .value (.list :: outer) (character :: behind)
            | .object => skipKey (character :: behind) >>= skipFrom .value (.object :: outer)
          else if character = ',' then
            match bracket with
            | .list => skipFrom .value (.list :: outer) behind
            | .object => skipKey behind >>= skipFrom .value (.object :: outer)
          else .error bracket.missing := by
  rw [skipFrom.eq_def]
  rcases skipBlanks rest with _ | ⟨character, behind⟩
  · cases due <;> simp_all
  · simp only
    rcases found : skipKey behind with error | after <;>
    rcases found : skipKey (character :: behind) with error | after <;>
    cases due <;> cases bracket <;> simp_all [bind, Except.bind]

theorem skipFrom_passes (due : Due) (brackets : List Bracket) :
    Passes (skipFrom due brackets) := by
  intro rest
  -- The induction follows the shorter text; the longer one is read one step in every case.
  fun_induction skipFrom due brackets rest with
  | case1 brackets rest found =>
      rw [skipFrom_value, skipBlanks_nil found]
      exact .error _ _
  | case2 brackets rest behind found ih =>
      rw [skipFrom_value, skipBlanks_cons found]
      exact ih
  | case3 brackets rest behind found _ ih =>
      rw [skipFrom_value, skipBlanks_cons found]
      exact ih
  | case4 brackets rest character behind found noList noObject error leaf =>
      rcases (skipLeaf_passes character behind).eq_error leaf with ⟨first, long⟩
      rw [skipFrom_value, skipBlanks_cons found]
      simp only [if_neg noList, if_neg noObject, long]
      exact .error _ _
  | case5 brackets rest character behind found noList noObject after leaf ih =>
      have long := (skipLeaf_passes character behind).eq_ok leaf
      rw [skipFrom_value, skipBlanks_cons found]
      simp only [if_neg noList, if_neg noObject, long]
      exact ih
  | case6 rest due other =>
      rw [skipFrom_nil other]
      exact .ok rest
  | case7 rest due other bracket outer found =>
      rw [skipFrom_cons other, skipBlanks_nil found]
      exact .error _ _
  | case8 rest due other bracket outer behind found ih =>
      rw [skipFrom_cons other, skipBlanks_cons found]
      simpa using ih
  | case9 rest outer character behind found other inside ih =>
      rw [skipFrom_cons other, skipBlanks_cons found]
      simpa [inside] using ih
  | case10 rest outer character behind found error key other inside =>
      rcases (skipKey_passes (character :: behind)).eq_error key with ⟨first, long⟩
      rw [List.cons_append] at long
      rw [skipFrom_cons other, skipBlanks_cons found]
      simp only [if_neg inside, if_true, long]
      exact .error _ _
  | case11 rest outer character behind found after key other inside ih =>
      have long := (skipKey_passes (character :: behind)).eq_ok key
      rw [List.cons_append] at long
      rw [skipFrom_cons other, skipBlanks_cons found]
      simp only [if_neg inside, if_true, long]
      exact ih
  | case12 rest due other outer behind separated found inside ih =>
      rw [skipFrom_cons other, skipBlanks_cons found]
      simpa [inside, separated] using ih
  | case13 rest due other outer behind separated error key found inside =>
      rcases (skipKey_passes behind).eq_error key with ⟨first, long⟩
      rw [skipFrom_cons other, skipBlanks_cons found]
      simp only [if_neg inside, if_neg separated, if_true, long]
      exact .error _ _
  | case14 rest due other outer behind separated after key found inside ih =>
      have long := (skipKey_passes behind).eq_ok key
      rw [skipFrom_cons other, skipBlanks_cons found]
      simp only [if_neg inside, if_neg separated, if_true, long]
      exact ih
  | case15 rest due other bracket outer character behind found inside separated noComma =>
      rw [skipFrom_cons other, skipBlanks_cons found]
      simp only [if_neg inside, if_neg separated, if_neg noComma]
      exact .error _ _

/-! ## Readers -/

theorem readString_steady : Steady readString := by
  intro rest
  rw [readString, readString]
  refine behind_blanks rest (.error _ _) fun character behind => ?_
  by_cases quote : character = '"'
  · subst quote
    exact (readText_steady behind).bind fun read => .ok (_, _)
  · simpa [quote] using Agrees.error _ _

theorem readUnit_steady : Steady readUnit := by
  intro rest
  rw [readUnit, readUnit]
  refine behind_blanks rest (.error _ _) fun character behind => ?_
  by_cases null : character = 'n'
  · subst null
    exact (readWord_passes (by decide) behind).bind fun after => .ok ((), after)
  · simpa [null] using Agrees.error _ _

theorem readColon_passes : Passes readColon := by
  intro rest
  rw [readColon, readColon]
  refine behind_blanks rest (.error _ _) fun character behind => ?_
  by_cases colon : character = ':'
  · subst colon
    exact .ok behind
  · simpa [colon] using Agrees.error _ _

theorem readVariantKey_steady {α : Type} (variants : List (String × α)) :
    Steady (readVariantKey variants) := by
  intro rest
  rw [readVariantKey, readVariantKey]
  refine behind_blanks rest (.error _ _) fun character behind => ?_
  by_cases quote : character = '"'
  · subst quote
    refine (readText_steady behind).bind fun read => ?_
    exact .between (variant variants read.1) fun value => .ok (value, read.2)
  · by_cases brace : character = '\x7d'
    · subst brace
      exact .error _ _
    · simpa [quote, brace] using Agrees.error _ _

theorem readVariant_steady {α : Type} (variants : List (String × α)) :
    Steady (readVariant variants) := by
  intro rest
  rw [readVariant, readVariant]
  refine behind_blanks rest (.error _ _) fun character behind => ?_
  by_cases quote : character = '"'
  · subst quote
    refine (readText_steady behind).bind fun read => ?_
    exact .between (variant variants read.1) fun value => .ok (value, read.2)
  by_cases brace : character = '\x7b'
  · subst brace
    refine (readVariantKey_steady variants behind).bind fun key => ?_
    refine (readColon_passes key.2).bind fun after => ?_
    refine (readUnit_steady after).bind fun unit => ?_
    simp only [leave]
    refine behind_blanks unit.2 (.error _ _) fun character behind => ?_
    by_cases close : character = '\x7d'
    · subst close
      exact .ok (key.1, behind)
    · simpa [close, throw, throwThe, MonadExceptOf.throw] using Agrees.error _ _
  · simpa [quote, brace] using Agrees.error _ _

theorem nextElement_ended (first : Bool) (rest : List Char) :
    Agrees (Option.map (· ++ ['\r'])) (nextElement first (rest ++ ['\r']))
      (nextElement first rest) := by
  rw [nextElement, nextElement]
  refine behind_blanks rest (.error _ _) fun character behind => ?_
  by_cases close : character = ']'
  · subst close
    exact .ok none
  simp only
  split
  · exact .ok (some (character :: behind))
  split
  · refine behind_blanks behind (.error _ _) fun character behind => ?_
    by_cases close : character = ']'
    · subst close
      exact .error _ _
    · simpa [close] using @Agrees.ok _ _ (Option.map (· ++ ['\r'])) (some (character :: behind))
  · exact .error _ _

theorem nextKey_ended (first : Bool) (rest : List Char) :
    Agrees (Option.map (· ++ ['\r'])) (nextKey first (rest ++ ['\r'])) (nextKey first rest) := by
  rw [nextKey, nextKey]
  refine behind_blanks rest (.error _ _) fun character behind => ?_
  by_cases close : character = '\x7d'
  · subst close
    exact .ok none
  simp only
  split
  · split
    · exact .ok (some behind)
    · exact .error _ _
  split
  · refine behind_blanks behind (.error _ _) fun character behind => ?_
    by_cases quote : character = '"'
    · subst quote
      exact .ok (some behind)
    by_cases close : character = '\x7d'
    · subst close
      exact .error _ _
    · simpa [quote, close] using Agrees.error _ _
  · exact .error _ _

theorem closeList_passes : Passes closeList := by
  intro rest
  rw [closeList, closeList]
  refine behind_blanks rest (.error _ _) fun character behind => ?_
  by_cases close : character = ']'
  · subst close
    exact .ok behind
  by_cases comma : character = ','
  · subst comma
    simp only
    refine behind_blanks behind (.error _ _) fun character behind => ?_
    by_cases close : character = ']'
    · subst close
      exact .error _ _
    · simpa [close] using Agrees.error _ _
  · simpa [close, comma] using Agrees.error _ _

theorem closeObject_passes : Passes closeObject := by
  intro rest
  rw [closeObject, closeObject]
  refine behind_blanks rest (.error _ _) fun character behind => ?_
  by_cases close : character = '\x7d'
  · subst close
    exact .ok behind
  by_cases comma : character = ','
  · subst comma
    exact .error _ _
  · simpa [close, comma] using Agrees.error _ _

section Records

variable {α : Type} {fields : List (Field α)}

theorem readElements_steady (steady : ∀ field ∈ fields, ∀ record, Steady (field.read record))
    (expected : String) (first : Bool) (index : Nat) (record : α) :
    Steady (readElements expected first index record fields) := by
  induction fields generalizing first index record with
  | nil => exact fun rest => .ok (record, rest)
  | cons field fields ih =>
      have steadyRest := ih fun other member => steady other (List.mem_cons_of_mem _ member)
      intro rest
      rw [readElements, readElements]
      refine (nextElement_ended first rest).bind fun element => ?_
      rcases element with _ | behind
      · exact (steadyRest first (index + 1) record rest).refusing _ _
      · refine (steady field List.mem_cons_self record behind).bind fun read => ?_
        exact steadyRest false (index + 1) read.1 read.2

theorem readEntry_steady (steady : ∀ field ∈ fields, ∀ record, Steady (field.read record))
    (seen : List String) (record : α) (name : String) :
    Steady (readEntry fields seen record name) := by
  intro rest
  rw [readEntry, readEntry]
  generalize found : fields.find? _ = entry
  rcases entry with _ | field
  · refine (readColon_passes rest).bind fun after => ?_
    exact (skipFrom_passes _ _ after).bind fun after => .ok (_, after)
  · simp only
    split
    · exact .error _ _
    · refine (readColon_passes rest).bind fun after => ?_
      refine (steady field (List.mem_of_find?_eq_some found) record after).bind fun read => ?_
      exact .ok (_, read.2)

theorem readEntries_steady (steady : ∀ field ∈ fields, ∀ record, Steady (field.read record))
    (first : Bool) (seen : List String) (record : α) :
    Steady (readEntries fields first seen record) := by
  intro rest
  fun_induction readEntries fields first seen record rest with
  | case1 first seen record rest error noKey =>
      rcases (nextKey_ended first rest).eq_error noKey with ⟨other, long⟩
      rw [readEntries, long]
      exact .error _ _
  | case2 first seen record rest atEnd =>
      rw [readEntries, (nextKey_ended first rest).eq_ok atEnd]
      exact .ok ((seen, record), rest)
  | case3 first seen record rest behind key error noName =>
      rcases (readText_steady behind).eq_error noName with ⟨other, long⟩
      rw [readEntries, (nextKey_ended first rest).eq_ok key]
      simp only [Option.map_some, long]
      exact .error _ _
  | case4 first seen record rest behind key name value named error noEntry =>
      rcases (readEntry_steady steady seen record _ value).eq_error noEntry with ⟨other, long⟩
      rw [readEntries, (nextKey_ended first rest).eq_ok key]
      simp only [Option.map_some, (readText_steady behind).eq_ok named, leave, long]
      exact .error _ _
  | case5 first seen record rest behind key name value named later next after entry shorter ih =>
      rw [readEntries, (nextKey_ended first rest).eq_ok key]
      simpa [(readText_steady behind).eq_ok named, leave,
        (readEntry_steady steady seen record _ value).eq_ok entry, shorter] using ih
  | case6 first seen record rest behind key name value named later next after entry longer =>
      rw [readEntries, (nextKey_ended first rest).eq_ok key]
      simpa [(readText_steady behind).eq_ok named, leave,
        (readEntry_steady steady seen record _ value).eq_ok entry, longer] using
        Agrees.error _ _

theorem readRecord_steady (steady : ∀ field ∈ fields, ∀ record, Steady (field.read record))
    (title : String) (start : α) : Steady (readRecord title start fields) := by
  intro rest
  rw [readRecord, readRecord]
  refine behind_blanks rest (.error _ _) fun character behind => ?_
  by_cases list : character = '['
  · subst list
    refine (readElements_steady steady _ true 0 start behind).bind fun read => ?_
    exact (closeList_passes read.2).bind fun after => .ok (read.1, after)
  by_cases object : character = '\x7b'
  · subst object
    refine (readEntries_steady steady true [] start behind).bind fun read => ?_
    simp only [leave]
    rcases missing? fields read.1.1 with _ | field
    · exact (closeObject_passes read.2).bind fun after => .ok (read.1.2, after)
    · exact .error _ _
  · simpa [list, object] using Agrees.error _ _

end Records

theorem needed_steady {α β : Type} {reader : Reader β} (steady : Steady reader) (name : String)
    (set : α → β → α) (record : α) : Steady ((needed name reader set).read record) := by
  intro rest
  exact (steady rest).bind fun read => .ok (set record read.1, read.2)

theorem readDiffLine_steady : Steady readDiffLine := by
  apply readRecord_steady
  intro field member record
  simp only [List.mem_cons, List.not_mem_nil, or_false] at member
  rcases member with rfl | rfl
  · exact needed_steady (readVariant_steady kinds) _ _ record
  · exact needed_steady readString_steady _ _ record

/-- A carriage return behind a text changes nothing: it is blank. -/
theorem readAll_ended {α : Type} {reader : Reader α} (steady : Steady reader) (text : List Char) :
    (readAll reader (text ++ ['\r'])).toOption = (readAll reader text).toOption := by
  have agrees : Agrees id (readAll reader (text ++ ['\r'])) (readAll reader text) := by
    refine (steady text).bind fun read => ?_
    simp only [leave]
    refine behind_blanks read.2 (.ok _) fun character behind => ?_
    exact .error _ _
  rw [agrees.toOption_eq, Option.map_id, id]

end Redline.Json
