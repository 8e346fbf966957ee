/-! Doubles as exact numbers, a mantissa below 2^53 times a power of two, and the shortest decimals
that read back as them. -/

namespace Redline.Decimal

/-- The number `mantissa * 2 ^ exponent`. The mantissa of a double is below 2^53, and not below
2^52 unless the exponent is the least one. -/
structure Magnitude where
  mantissa : Nat
  exponent : Int
  deriving DecidableEq, Repr

inductive Double where
  | finite (negative : Bool) (magnitude : Magnitude)
  | infinite (negative : Bool)
  | nan
  deriving DecidableEq, Repr

def leadingBit : Nat := 0x10000000000000

def leastExponent : Int := -1074

def greatestExponent : Int := 971

def roundEven (numerator denominator : Nat) : Nat :=
  let quotient := numerator / denominator
  let twice := 2 * (numerator % denominator)
  if twice < denominator then quotient
  else if denominator < twice then quotient + 1
  else quotient + quotient % 2

def inUnits (numerator denominator : Nat) (exponent : Int) : Nat × Nat :=
  if 0 ≤ exponent then (numerator, denominator * Nat.pow 2 exponent.toNat)
  else (numerator * Nat.pow 2 (-exponent).toNat, denominator)

def exponentOf (numerator denominator : Nat) : Int :=
  let guess := (numerator.log2 : Int) - denominator.log2 - 52
  let (units, unit) := inUnits numerator denominator guess
  max leastExponent (if units / unit < leadingBit then guess - 1 else guess)

namespace Magnitude

def zero : Magnitude := ⟨0, leastExponent⟩

def ofRatio (numerator denominator : Nat) : Option Magnitude :=
  if numerator = 0 then some zero
  else
    let exponent := exponentOf numerator denominator
    let (units, unit) := inUnits numerator denominator exponent
    let mantissa := roundEven units unit
    let (mantissa, exponent) :=
      if mantissa = 2 * leadingBit then (leadingBit, exponent + 1) else (mantissa, exponent)
    if greatestExponent < exponent then none else some ⟨mantissa, exponent⟩

def ratio (magnitude : Magnitude) : Nat × Nat :=
  if 0 ≤ magnitude.exponent then (magnitude.mantissa * Nat.pow 2 magnitude.exponent.toNat, 1)
  else (magnitude.mantissa, Nat.pow 2 (-magnitude.exponent).toNat)

def mul (first second : Magnitude) : Option Magnitude :=
  ofRatio (first.ratio.1 * second.ratio.1) (first.ratio.2 * second.ratio.2)

def div (first second : Magnitude) : Option Magnitude :=
  ofRatio (first.ratio.1 * second.ratio.2) (first.ratio.2 * second.ratio.1)

/-- The nearest double to `digits * 10 ^ power`. Powers far out of reach are settled without
computing them. -/
def ofDecimal (digits : Nat) (power : Int) : Option Magnitude :=
  if digits = 0 then some zero
  else if 400 < power then none
  else if power + digits.log2 < -400 then some zero
  else if 0 ≤ power then ofRatio (digits * Nat.pow 10 power.toNat) 1
  else ofRatio digits (Nat.pow 10 (-power).toNat)

def rounded (magnitude : Magnitude) : Nat :=
  let (numerator, denominator) := magnitude.ratio
  (2 * numerator + denominator) / (2 * denominator)

end Magnitude

structure Shortest where
  digits : Nat
  power : Int
  deriving DecidableEq, Repr

inductive Tie where
  | even
  | up
  deriving DecidableEq, Repr

def Tie.neighbour (tie : Tie) (floor : Nat) : Nat :=
  match tie with
  | even => floor + floor % 2
  | up => floor + 1

namespace Magnitude

/-- The bounds of the numbers that round to a double, and the double between them, in quarters
of its last binary digit. Below a power of two the doubles lie closer together. -/
def quarters (magnitude : Magnitude) : Nat × Nat × Nat :=
  let middle := 4 * magnitude.mantissa
  let below :=
    if magnitude.mantissa = leadingBit ∧ leastExponent < magnitude.exponent then 1 else 2
  (middle - below, middle, middle + 2)

def quarterIn (magnitude : Magnitude) (power : Int) : Nat × Nat :=
  let (numerator, denominator) := ratio ⟨1, magnitude.exponent - 2⟩
  if 0 ≤ power then (numerator, denominator * Nat.pow 10 power.toNat)
  else (numerator * Nat.pow 10 (-power).toNat, denominator)

def multiple? (magnitude : Magnitude) (tie : Tie) (power : Int) : Option Nat :=
  let (low, middle, high) := magnitude.quarters
  let (numerator, denominator) := magnitude.quarterIn power
  let closed := magnitude.mantissa % 2 = 0
  let inside (count : Nat) : Bool :=
    let place := count * denominator
    0 < count &&
      (if closed then low * numerator ≤ place && place ≤ high * numerator
      else low * numerator < place && place < high * numerator)
  let floor := middle * numerator / denominator
  let above := 2 * (middle * numerator - floor * denominator)
  let nearest :=
    if above < denominator then floor
    else if denominator < above then floor + 1
    else tie.neighbour floor
  let other := if nearest = floor then floor + 1 else floor
  if inside nearest then some nearest else if inside other then some other else none

def shortestFrom (magnitude : Magnitude) (tie : Tie) (power : Int) : Nat → Shortest
  | 0 => ⟨0, 0⟩
  | steps + 1 =>
      match magnitude.multiple? tie power with
      | some digits => ⟨digits, power⟩
      | none => magnitude.shortestFrom tie (power - 1) steps

/-- No double is as great as `10 ^ 309`, and every double is a multiple of `10 ^ -1074`. -/
def shortest (magnitude : Magnitude) (tie : Tie) : Shortest :=
  if magnitude.mantissa = 0 then ⟨0, 0⟩ else magnitude.shortestFrom tie 309 1384

end Magnitude

namespace Shortest

def digitText (shortest : Shortest) : List Char := Nat.toDigits 10 shortest.digits

def leading (shortest : Shortest) : Int := shortest.digitText.length + shortest.power - 1

def positional (shortest : Shortest) : List Char :=
  let digits := shortest.digitText
  let point := digits.length + shortest.power
  if 0 ≤ shortest.power then digits ++ List.replicate shortest.power.toNat '0'
  else if 0 < point then digits.take point.toNat ++ '.' :: digits.drop point.toNat
  else '0' :: '.' :: (List.replicate (-point).toNat '0' ++ digits)

def scientific (shortest : Shortest) : List Char :=
  let fraction := shortest.digitText.drop 1
  let exponent := shortest.leading
  shortest.digitText.take 1 ++ (if fraction.isEmpty then [] else '.' :: fraction) ++
    'e' :: (if exponent < 0 then '-' else '+') :: Nat.toDigits 10 exponent.natAbs

/-- Positional from `10 ^ -5` up to sixteen places before the point, where integers end
in `.0`; scientific beyond. -/
def balanced (shortest : Shortest) : List Char :=
  if shortest.leading < -5 ∨ 15 < shortest.leading then shortest.scientific
  else if 0 ≤ shortest.power then shortest.positional ++ ['.', '0']
  else shortest.positional

end Shortest

def signed (negative : Bool) (text : List Char) : String :=
  String.ofList (if negative then '-' :: text else text)

namespace Double

def plainText : Double → String
  | finite negative magnitude => signed negative (magnitude.shortest .up).positional
  | infinite negative => signed negative "inf".toList
  | nan => "NaN"

def pointedText (double : Double) : String :=
  match double with
  | finite _ magnitude =>
      if 0 ≤ (magnitude.shortest .up).power then double.plainText ++ ".0" else double.plainText
  | _ => double.plainText

def balancedText : Double → String
  | finite negative magnitude => signed negative (magnitude.shortest .even).balanced
  | infinite negative => signed negative "inf".toList
  | nan => "NaN"

end Double

end Redline.Decimal
