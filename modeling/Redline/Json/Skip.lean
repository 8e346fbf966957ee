import Redline.Json.Number
import Redline.Json.Text

namespace Redline.Json

def isBlank (character : Char) : Bool :=
  character = ' ' || character = '\n' || character = '\t' || character = '\r'

def skipBlanks (rest : List Char) : List Char := rest.dropWhile isBlank

def readWord : List Char → List Char → Except Error (List Char)
  | [], rest => .ok rest
  | _ :: _, [] => .error (.endOf .value)
  | letter :: letters, character :: rest =>
      if character = letter then readWord letters rest else .error .expectedWord

theorem length_skipBlanks (rest : List Char) : (skipBlanks rest).length ≤ rest.length :=
  (List.dropWhile_suffix isBlank).length_le

theorem length_readWord {letters rest after : List Char}
    (read : readWord letters rest = .ok after) : after.length ≤ rest.length := by
  fun_induction readWord letters rest with
  | case1 rest => simp_all
  | case2 => simp at read
  | case3 letter letters rest ih => exact Nat.le_succ_of_le (ih read)
  | case4 => simp at read

theorem length_skipText {rest after : List Char} (skipped : skipText rest = .ok after) :
    after.length ≤ rest.length := by
  fun_induction skipText rest <;> simp_all <;> grind

theorem length_readDigits {atEnd : Error} {rest digits after : List Char}
    (read : readDigits atEnd rest = .ok (digits, after)) : after.length < rest.length := by
  unfold readDigits at read
  split at read
  · simp at read
  · next character behind =>
      split at read
      · next digit =>
          simp only [Except.ok.injEq, Prod.mk.injEq] at read
          rw [← read.2, List.dropWhile_cons_of_pos digit, List.length_cons]
          exact Nat.lt_succ_of_le (List.dropWhile_suffix Char.isDigit).length_le
      · simp at read

theorem length_readWhole {atEnd : Error} {rest digits after : List Char}
    (read : readWhole atEnd rest = .ok (digits, after)) : after.length < rest.length := by
  simp only [readWhole, bind, Except.bind, pure, Except.pure] at read
  split at read
  · simp at read
  · next found =>
      split at read
      · simp [throw, throwThe, MonadExceptOf.throw] at read
      · simp only [Except.ok.injEq, Prod.mk.injEq] at read
        exact read.2 ▸ length_readDigits found

theorem length_readFraction {atEnd : Error} {rest digits after : List Char}
    (read : readFraction atEnd rest = .ok (digits, after)) : after.length ≤ rest.length := by
  unfold readFraction at read
  split at read
  · exact Nat.le_of_lt (Nat.lt_succ_of_lt (length_readDigits read))
  · simp_all

theorem length_readSign (rest : List Char) : (readSign rest).2.length ≤ rest.length := by
  unfold readSign
  split <;> simp

theorem length_readExponent {atEnd : Error} {rest after : List Char}
    {exponent : Option (Bool × List Char)}
    (read : readExponent atEnd rest = .ok (exponent, after)) : after.length ≤ rest.length := by
  unfold readExponent at read
  split at read
  · simp_all
  · next mark behind =>
      split at read
      · simp only [bind, Except.bind, pure, Except.pure] at read
        split at read
        · simp at read
        · next found =>
            simp only [Except.ok.injEq, Prod.mk.injEq] at read
            have digits := length_readDigits found
            have sign := length_readSign behind
            rw [← read.2, List.length_cons]
            omega
      · simp_all

theorem length_readNumeral {atEnd : Error} {rest after : List Char} {numeral : Numeral}
    (read : readNumeral atEnd rest = .ok (numeral, after)) : after.length < rest.length := by
  simp only [readNumeral, bind, Except.bind, pure, Except.pure] at read
  split at read
  · simp at read
  · next whole =>
      split at read
      · simp at read
      · next fraction =>
          split at read
          · simp at read
          · next exponent =>
              simp only [Except.ok.injEq, Prod.mk.injEq] at read
              have first := length_readWhole whole
              have second := length_readFraction fraction
              have third := length_readExponent exponent
              rw [← read.2]
              split at first <;> simp_all <;> omega

def skipLeaf (character : Char) (rest : List Char) : Except Error (List Char) :=
  if character = '"' then skipText rest
  else if character = 'n' then readWord ['u', 'l', 'l'] rest
  else if character = 't' then readWord ['r', 'u', 'e'] rest
  else if character = 'f' then readWord ['a', 'l', 's', 'e'] rest
  else if character = '-' ∨ character.isDigit then do
    let (_, rest) ← readNumeral .invalidNumber (character :: rest)
    return rest
  else .error .expectedValue

theorem length_skipLeaf {character : Char} {rest after : List Char}
    (skipped : skipLeaf character rest = .ok after) : after.length ≤ rest.length := by
  unfold skipLeaf at skipped
  split at skipped
  · exact length_skipText skipped
  split at skipped
  · exact length_readWord skipped
  split at skipped
  · exact length_readWord skipped
  split at skipped
  · exact length_readWord skipped
  split at skipped
  · simp only [bind, Except.bind, pure, Except.pure] at skipped
    split at skipped
    · simp at skipped
    · next read =>
        simp only [Except.ok.injEq] at skipped
        exact Nat.le_of_lt_succ (skipped ▸ length_readNumeral read)
  · simp at skipped

inductive Bracket where
  | list
  | object
  deriving DecidableEq, Repr

def Bracket.construct : Bracket → Construct
  | list => .list
  | object => .object

def Bracket.closing : Bracket → Char
  | list => ']'
  | object => '\x7d'

def Bracket.missing : Bracket → Error
  | list => .expectedCommaOrBracket
  | object => .expectedCommaOrBrace

def skipKey (rest : List Char) : Except Error (List Char) :=
  match skipBlanks rest with
  | [] => .error (.endOf .object)
  | character :: behind =>
      if character = '"' then do
        match skipBlanks (← skipText behind) with
        | [] => .error (.endOf .object)
        | colon :: rest => if colon = ':' then .ok rest else .error .expectedColon
      else .error .keyNotString

theorem length_skipKey {rest after : List Char} (skipped : skipKey rest = .ok after) :
    after.length ≤ rest.length := by
  unfold skipKey at skipped
  have blanks := length_skipBlanks rest
  split at skipped
  · simp at skipped
  · next character behind found =>
      rw [found, List.length_cons] at blanks
      split at skipped
      · simp only [bind, Except.bind] at skipped
        split at skipped
        · simp at skipped
        · next text read =>
            have inner := length_skipText read
            have outer := length_skipBlanks text
            split at skipped
            · simp at skipped
            · next colon others found =>
                rw [found, List.length_cons] at outer
                split at skipped
                · simp only [Except.ok.injEq] at skipped
                  rw [← skipped]
                  omega
                · simp at skipped
      · simp at skipped

/-- What is due next: a value, or what stands behind an opening bracket or a value. -/
inductive Due where
  | value
  | opened
  | separator
  deriving DecidableEq, Repr

/-- Passes over a value, or over the rest of it up to the last of the open brackets. -/
def skipFrom (due : Due) (brackets : List Bracket) (rest : List Char) :
    Except Error (List Char) :=
  match due with
  | .value =>
      match _blanks : skipBlanks rest with
      | [] => .error (.endOf .value)
      | character :: behind =>
          if character = '[' then skipFrom .opened (.list :: brackets) behind
          else if character = '\x7b' then skipFrom .opened (.object :: brackets) behind
          else
            match _leaf : skipLeaf character behind with
            | .error error => .error error
            | .ok after => skipFrom .separator brackets after
  | due =>
      match brackets with
      | [] => .ok rest
      | bracket :: outer =>
          match _blanks : skipBlanks rest with
          | [] => .error (.endOf bracket.construct)
          | character :: behind =>
              if character = bracket.closing then skipFrom .separator outer behind
              else if due = .opened then
                match bracket with
                | .list => skipFrom .value (bracket :: outer) (character :: behind)
                | .object =>
                    match _key : skipKey (character :: behind) with
                    | .error error => .error error
                    | .ok after => skipFrom .value (bracket :: outer) after
              else if character = ',' then
                match bracket with
                | .list => skipFrom .value (bracket :: outer) behind
                | .object =>
                    match _key : skipKey behind with
                    | .error error => .error error
                    | .ok after => skipFrom .value (bracket :: outer) after
              else .error bracket.missing
termination_by 2 * rest.length + (if due = .value then 0 else 1)
decreasing_by
  all_goals
    have bound := length_skipBlanks rest
    rw [_blanks, List.length_cons] at bound
    try have leafBound := length_skipLeaf _leaf
    try have keyBound := length_skipKey _key
    simp_all
    try omega

def skipValue (rest : List Char) : Except Error (List Char) := skipFrom .value [] rest

end Redline.Json
