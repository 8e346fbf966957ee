import Redline.Decimal
import Redline.Text.Lower
import Redline.Text.Quoted

namespace Redline.Settings

/-- A text from the environment is taken for a truth value, an integer or a double if it can be
read as one. -/
inductive Value where
  | boolean (value : Bool)
  | integer (value : Int)
  | float (value : Decimal.Double)
  | text (value : String)
  deriving DecidableEq, Repr

def takeSign : List Char → Bool × List Char
  | '-' :: rest => (true, rest)
  | '+' :: rest => (false, rest)
  | rest => (false, rest)

def signedOf (negative : Bool) (digits : List Char) : Int :=
  let value : Int := Nat.ofDigitChars 10 digits 0
  if negative then -value else value

def integerLimit : Int := 0x8000000000000000

def integer? (text : List Char) : Option Int :=
  let (negative, digits) := takeSign text
  if digits.isEmpty ∨ ¬digits.all Char.isDigit then none
  else
    let value := signedOf negative digits
    if -integerLimit ≤ value ∧ value < integerLimit then some value else none

def exponent? : List Char → Option Int
  | [] => some 0
  | mark :: rest =>
      let (negative, digits) := takeSign rest
      if (mark = 'e' ∨ mark = 'E') ∧ ¬digits.isEmpty ∧ digits.all Char.isDigit then
        some (signedOf negative digits)
      else none

def decimal? (text : List Char) : Option (Nat × Int) := do
  let whole := text.takeWhile Char.isDigit
  let rest := text.dropWhile Char.isDigit
  let (fraction, rest) :=
    match rest with
    | '.' :: behind => (behind.takeWhile Char.isDigit, behind.dropWhile Char.isDigit)
    | rest => ([], rest)
  if whole.isEmpty ∧ fraction.isEmpty then none
  let exponent ← exponent? rest
  return (Nat.ofDigitChars 10 (whole ++ fraction) 0, exponent - fraction.length)

def float? (text : List Char) : Option Decimal.Double :=
  let (negative, rest) := takeSign text
  let word := rest.map Char.toLower
  if word = "inf".toList ∨ word = "infinity".toList then some (.infinite negative)
  else if word = "nan".toList then some .nan
  else
    match decimal? rest with
    | none => none
    | some (digits, power) =>
        match Decimal.Magnitude.ofDecimal digits power with
        | some magnitude => some (.finite negative magnitude)
        | none => some (.infinite negative)

namespace Value

def ofText (text : String) : Value :=
  if Text.lower text = "true" then boolean true
  else if Text.lower text = "false" then boolean false
  else
    match integer? text.toList with
    | some value => integer value
    | none =>
        match float? text.toList with
        | some value => float value
        | none => .text text

def truth? (word : String) : Option Bool :=
  if word ∈ ["1", "true", "on", "yes"] then some true
  else if word ∈ ["0", "false", "off", "no"] then some false
  else none

def label : Value → String
  | boolean value => "boolean `" ++ toString value ++ "`"
  | integer value => "integer `" ++ toString value ++ "`"
  | float value => "floating point `" ++ value.pointedText ++ "`"
  | text value => "string " ++ Text.quoted value

def plainText : Value → String
  | boolean value => toString value
  | integer value => toString value
  | float value => value.plainText
  | text value => value

def isZero : Decimal.Double → Bool
  | .finite _ magnitude => magnitude.mantissa == 0
  | _ => false

def greatestWord : Nat := 0xffffffffffffffff

/-- The nearest word: halves are rounded away from zero, and what is out of reach goes to the
nearer end. -/
def wordOf : Decimal.Double → Nat
  | .finite true _ => 0
  | .finite false magnitude => min magnitude.rounded greatestWord
  | .infinite negative => if negative then 0 else greatestWord
  | .nan => 0

def toBool : Value → Except (String × String) Bool
  | boolean value => .ok value
  | integer value => .ok (value != 0)
  | float value => .ok (!isZero value)
  | text value =>
      match truth? (Text.lower value) with
      | some truth => .ok truth
      | none => .error ("string " ++ Text.quoted (Text.lower value), "a boolean")

def toWord : Value → Except (String × String) Nat
  | boolean value => .ok value.toNat
  | integer value =>
      if 0 ≤ value then .ok value.toNat
      else .error ("64-bit integer `" ++ toString value ++ "`",
        "an unsigned 64 bit or less integer")
  | float value => .ok (wordOf value)
  | text value =>
      match truth? (Text.lower value) with
      | some truth => .ok truth.toNat
      | none => .error ("string " ++ Text.quoted value, "an integer")

end Value

end Redline.Settings
