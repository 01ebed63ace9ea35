/-
Decimal text of doubles: a fixed number of places, a fixed number of digits with an exponent, or
the fewest digits that read back as the same number. All three are exact on the binary value; a
half goes to the even digit.
-/

import Pascaline.Bytes
import Pascaline.Number.Double

namespace Pascaline.Double

/-- The exponent `e` with `10 ^ e ≤ numerator / denominator < 10 ^ (e + 1)`, for a positive
ratio. -/
def decimalExponent (numerator denominator : Nat) : Int :=
  let estimate : Int :=
    (Nat.toDigits 10 numerator).length - (Nat.toDigits 10 denominator).length
  let reached :=
    if 0 ≤ estimate then denominator * Nat.pow 10 estimate.toNat ≤ numerator
    else denominator ≤ numerator * Nat.pow 10 (-estimate).toNat
  if reached then estimate else estimate - 1

/-- The ratio times a power of ten. -/
def scaleTen (ratio : Nat × Nat) (power : Int) : Nat × Nat :=
  if 0 ≤ power then (ratio.1 * Nat.pow 10 power.toNat, ratio.2)
  else (ratio.1, ratio.2 * Nat.pow 10 (-power).toNat)

/-- The digits of a number, padded with zeros in front to at least `width` digits. -/
def padded (width number : Nat) : Bytes :=
  let digits := Bytes.ofNat number
  List.replicate (width - digits.length) (Bytes.code '0') ++ digits

/-- The text of a number that has no digits, such as an infinity. -/
def special? (number : Double) : Option Bytes :=
  if number.isNaN then some "NaN"
  else if number.isInfinite then some (if number.isNegative then "-Inf" else "+Inf")
  else none

def signText (number : Double) : Bytes := if number.isNegative then "-" else []

/-- The number with `places` digits behind the point. -/
def toFixed (places : Nat) (number : Double) : Bytes :=
  match number.special? with
  | some text => text
  | none =>
    let (numerator, denominator) := scaleTen number.magnitude places
    let digits := padded (places + 1) (roundHalfEven numerator denominator)
    let whole := digits.length - places
    number.signText ++ digits.take whole ++ "." ++ digits.drop whole

/-- An exponent with its sign and at least two digits. -/
def exponentText (exponent : Int) : Bytes :=
  "e" ++ (if exponent < 0 then "-" else "+") ++ padded 2 exponent.natAbs

/-- Digits as a mantissa below ten with an exponent; a single digit has no point. -/
def scientificText (digits : Bytes) (exponent : Int) : Bytes :=
  let fraction : Bytes := if digits.length ≤ 1 then [] else "." ++ digits.drop 1
  digits.take 1 ++ fraction ++ exponentText exponent

/-- The nearest decimal of `count` significant digits to a positive ratio, as a natural with its
last place at `10 ^ (e - count + 1)`, together with that `e`. -/
def roundDigits (count : Nat) (ratio : Nat × Nat) : Nat × Int :=
  let exponent := decimalExponent ratio.1 ratio.2
  let (numerator, denominator) := scaleTen ratio (count - 1 - exponent)
  let digits := roundHalfEven numerator denominator
  if digits = Nat.pow 10 count then (Nat.pow 10 (count - 1), exponent + 1)
  else (digits, exponent)

/-- The number in scientific notation with `places` digits behind the point. -/
def toScientific (places : Nat) (number : Double) : Bytes :=
  match number.special? with
  | some text => text
  | none =>
    let (digits, exponent) :=
      if number.magnitude.1 = 0 then (0, 0) else roundDigits (places + 1) number.magnitude
    number.signText ++ scientificText (padded (places + 1) digits) exponent

/-- The decimals of `count` digits next to a positive ratio, below and above, that read back as
the given number; the nearer one first, and of two equally near the even one. -/
def readingBack (number : Double) (ratio : Nat × Nat) (exponent : Int) (count : Nat) : List Nat :=
  let power := (count : Int) - 1 - exponent
  let (numerator, denominator) := scaleTen ratio power
  let below := numerator / denominator
  let candidates :=
    if roundHalfEven numerator denominator = below then [below, below + 1] else [below + 1, below]
  candidates.filter fun candidate =>
    let (numerator, denominator) := scaleTen (candidate, 1) (-power)
    ofRatio? number.isNegative numerator denominator = some number

/-- The fewest digits that read back as the number, with the exponent of the first digit. Any
double reads back from seventeen digits. -/
def shortestDigits (number : Double) : Bytes × Int :=
  let ratio := number.magnitude
  if ratio.1 = 0 then ("0", 0)
  else
    let exponent := decimalExponent ratio.1 ratio.2
    let found := (List.range 17).findSome? fun index =>
      (readingBack number ratio exponent (index + 1)).head?.map fun digits => (digits, index + 1)
    match found with
    | none => (Bytes.ofNat (roundDigits 17 ratio).1, (roundDigits 17 ratio).2)
    | some (digits, count) =>
      let text := Bytes.ofNat digits
      (text, exponent + text.length - count)

/-- The digits without the zeros at their end. -/
def trimZeros (digits : Bytes) : Bytes :=
  match (digits.reverse.dropWhile (· = Bytes.code '0')).reverse with
  | [] => "0"
  | trimmed => trimmed

/-- The number in its fewest digits: positional for exponents from -4 to `limit - 1`, else
scientific. -/
def toShortest (limit : Int) (number : Double) : Bytes :=
  match number.special? with
  | some text => text
  | none =>
    let (digits, exponent) := number.shortestDigits
    let digits := trimZeros digits
    let zeros (count : Nat) := List.replicate count (Bytes.code '0')
    number.signText ++
      if exponent < -4 ∨ limit ≤ exponent then scientificText digits exponent
      else if exponent < 0 then "0." ++ zeros (-exponent - 1).toNat ++ digits
      else
        let whole := exponent.toNat + 1
        if digits.length ≤ whole then digits ++ zeros (whole - digits.length)
        else digits.take whole ++ "." ++ digits.drop whole

end Pascaline.Double
