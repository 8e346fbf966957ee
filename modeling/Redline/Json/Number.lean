import Redline.Json.Error

namespace Redline.Json

def digitValue (character : Char) : Nat := character.toNat - '0'.toNat

structure Numeral where
  negative : Bool
  whole : List Char
  fraction : List Char
  exponent : Option (Bool × List Char)
  deriving DecidableEq, Repr

def readDigits (atEnd : Error) (rest : List Char) : Except Error (List Char × List Char) :=
  match rest with
  | [] => .error atEnd
  | character :: _ =>
      if character.isDigit then .ok (rest.takeWhile Char.isDigit, rest.dropWhile Char.isDigit)
      else .error .invalidNumber

def readWhole (atEnd : Error) (rest : List Char) : Except Error (List Char × List Char) := do
  let (digits, rest) ← readDigits atEnd rest
  if digits.head? = some '0' ∧ 1 < digits.length then throw .invalidNumber
  return (digits, rest)

def readFraction (atEnd : Error) : List Char → Except Error (List Char × List Char)
  | '.' :: rest => readDigits atEnd rest
  | rest => .ok ([], rest)

def readSign : List Char → Bool × List Char
  | '+' :: rest => (false, rest)
  | '-' :: rest => (true, rest)
  | rest => (false, rest)

def readExponent (atEnd : Error) (rest : List Char) :
    Except Error (Option (Bool × List Char) × List Char) :=
  match rest with
  | [] => .ok (none, [])
  | mark :: behind =>
      if mark = 'e' ∨ mark = 'E' then do
        let (negative, behind) := readSign behind
        let (digits, behind) ← readDigits atEnd behind
        return (some (negative, digits), behind)
      else .ok (none, rest)

def readNumeral (atEnd : Error) (rest : List Char) : Except Error (Numeral × List Char) := do
  let (negative, rest) :=
    match rest with
    | '-' :: behind => (true, behind)
    | _ => (false, rest)
  let (whole, rest) ← readWhole atEnd rest
  let (fraction, rest) ← readFraction atEnd rest
  let (exponent, rest) ← readExponent atEnd rest
  return (⟨negative, whole, fraction, exponent⟩, rest)

def wordLimit : Nat := 0x10000000000000000

def accumulate (significand taken : Nat) : List Char → Nat × Nat
  | [] => (significand, taken)
  | digit :: digits =>
      let next := significand * 10 + digitValue digit
      if next < wordLimit then accumulate next (taken + 1) digits else (significand, taken)

def greatestPower : Nat := 308

def tenPower (power : Nat) : Decimal.Magnitude :=
  (Decimal.Magnitude.ofRatio (Nat.pow 10 power) 1).getD .zero

def scaleDown (magnitude : Decimal.Magnitude) (power : Nat) : Decimal.Magnitude :=
  if power ≤ greatestPower then (magnitude.div (tenPower power)).getD .zero
  else if magnitude.mantissa = 0 then magnitude
  else scaleDown ((magnitude.div (tenPower greatestPower)).getD .zero) (power - greatestPower)
termination_by power
decreasing_by unfold greatestPower at *; omega

/-- The double for a significand and a power of ten. The significand and the power become doubles
first, and their product or quotient is rounded once more. -/
def scale (significand : Nat) (power : Int) : Except Error Decimal.Magnitude :=
  match Decimal.Magnitude.ofRatio significand 1 with
  | none => .error .numberOutOfRange
  | some magnitude =>
      if power < 0 then .ok (scaleDown magnitude power.natAbs)
      else if magnitude.mantissa = 0 then .ok magnitude
      else if greatestPower < power then .error .numberOutOfRange
      else
        match magnitude.mul (tenPower power.toNat) with
        | some magnitude => .ok magnitude
        | none => .error .numberOutOfRange

def exponentLimit : Nat := 0x80000000

def Numeral.magnitude (numeral : Numeral) : Except Error Decimal.Magnitude :=
  let (significand, taken) := accumulate 0 0 numeral.whole
  let left : Int := numeral.whole.length - taken
  let (significand, places) := accumulate significand 0 numeral.fraction
  let power := left - places
  match numeral.exponent with
  | none => scale significand power
  | some (negative, digits) =>
      let exponent := Nat.ofDigitChars 10 digits 0
      if exponent < exponentLimit then
        let sum := if negative then power - exponent else power + exponent
        scale significand (max (-(exponentLimit : Int)) (min sum (exponentLimit - 1)))
      else if significand = 0 ∨ negative then .ok .zero
      else .error .numberOutOfRange

/-- An integer that fits a word stays one; minus zero and everything else is a double. -/
def Numeral.value (numeral : Numeral) : Except Error Found := do
  let whole := Nat.ofDigitChars 10 numeral.whole 0
  if numeral.fraction.isEmpty ∧ numeral.exponent.isNone then
    if ¬numeral.negative ∧ whole < wordLimit then return .integer whole
    if numeral.negative ∧ 0 < whole ∧ whole ≤ wordLimit / 2 then return .integer (-whole)
  return .float (.finite numeral.negative (← numeral.magnitude))

end Redline.Json
