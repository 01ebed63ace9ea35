/-
Double precision numbers, kept as their 64 bits so that equality is decidable and a number can
be taken apart exactly. Arithmetic and comparison follow IEEE 754. Conversions go through an
exact ratio of naturals, rounded once to the nearest double with ties to even.
-/

namespace Pascaline

/-- A double precision number, given by its bits: sign, eleven exponent bits, 52 fraction bits. -/
structure Double where
  bits : UInt64
  deriving DecidableEq, Inhabited

/-- The quotient of two naturals, rounded to the nearest natural, a half to the even one. -/
def roundHalfEven (numerator denominator : Nat) : Nat :=
  let quotient := numerator / denominator
  let twice := 2 * (numerator % denominator)
  if twice < denominator then quotient
  else if denominator < twice then quotient + 1
  else quotient + quotient % 2

namespace Double

/-- The number as the machine's floating point type. -/
def toFloat (number : Double) : Float := Float.ofBits number.bits

/-- The bits of a floating point value; all NaNs have the same bits. -/
def ofFloat (value : Float) : Double := ⟨value.toBits⟩

def zero : Double := ⟨0⟩
def one : Double := ⟨0x3FF0000000000000⟩
def nan : Double := ⟨0x7FF8000000000000⟩

/-- Infinity with a sign. -/
def infinity (negative : Bool) : Double :=
  ⟨if negative then 0xFFF0000000000000 else 0x7FF0000000000000⟩

def isNegative (number : Double) : Bool := number.bits.toNat.testBit 63

/-- The number with its sign bit set or cleared. -/
def withSign (number : Double) (negative : Bool) : Double :=
  ⟨number.bits &&& 0x7FFFFFFFFFFFFFFF ||| if negative then 0x8000000000000000 else 0⟩

/-- The first bit of a mantissa, which is not stored. The stored ones are below it. -/
def leadingBit : Nat := 0x10000000000000

/-- The biased exponent, 2047 for infinities and NaNs. -/
def exponentField (number : Double) : Nat := number.bits.toNat / leadingBit % 2048

def fractionField (number : Double) : Nat := number.bits.toNat % leadingBit

def isNaN (number : Double) : Bool := number.exponentField = 2047 ∧ number.fractionField ≠ 0

def isInfinite (number : Double) : Bool := number.exponentField = 2047 ∧ number.fractionField = 0

/-- The absolute value of a finite number as an exact ratio with a positive denominator. -/
def magnitude (number : Double) : Nat × Nat :=
  if number.exponentField = 0 then (number.fractionField, 1 <<< 1074)
  else
    let mantissa := number.fractionField + leadingBit
    if number.exponentField < 1075 then (mantissa, 1 <<< (1075 - number.exponentField))
    else (mantissa <<< (number.exponentField - 1075), 1)

/-- The double with the mantissa and the binary exponent of its last place. -/
def ofParts? (negative : Bool) (mantissa : Nat) (exponent : Int) : Option Double :=
  if mantissa < leadingBit then some (withSign ⟨mantissa.toUInt64⟩ negative)
  else
    let biased := (exponent + 1075).toNat
    if biased < 2047 then
      some (withSign ⟨(biased * leadingBit + (mantissa - leadingBit)).toUInt64⟩ negative)
    else none

/-- The double nearest to a ratio, ties to even, or nothing if it is beyond the largest double. -/
def ofRatio? (negative : Bool) (numerator denominator : Nat) : Option Double :=
  if numerator = 0 then some (withSign zero negative)
  else
    let estimate : Int := (numerator.log2 : Int) - denominator.log2
    let reached :=
      if 0 ≤ estimate then denominator <<< estimate.toNat ≤ numerator
      else denominator ≤ numerator <<< (-estimate).toNat
    let exponent := max ((if reached then estimate else estimate - 1) - 52) (-1074)
    let mantissa :=
      if 0 ≤ exponent then roundHalfEven numerator (denominator <<< exponent.toNat)
      else roundHalfEven (numerator <<< (-exponent).toNat) denominator
    if mantissa = 2 * leadingBit then ofParts? negative leadingBit (exponent + 1)
    else ofParts? negative mantissa exponent

/-- The nearest double to an integer. -/
def ofInt (number : Int) : Double :=
  (ofRatio? (number < 0) number.natAbs 1).getD (infinity (number < 0))

def add (left right : Double) : Double := ofFloat (left.toFloat + right.toFloat)
def sub (left right : Double) : Double := ofFloat (left.toFloat - right.toFloat)
def mul (left right : Double) : Double := ofFloat (left.toFloat * right.toFloat)
def div (left right : Double) : Double := ofFloat (left.toFloat / right.toFloat)

/-- Equality of values: both zeros are equal, a NaN differs from everything. -/
def eq (left right : Double) : Bool := left.toFloat == right.toFloat

def lt (left right : Double) : Bool := left.toFloat < right.toFloat
def le (left right : Double) : Bool := left.toFloat ≤ right.toFloat

/-- The remainder of the division truncated toward zero, which is always exact and has the sign
of the dividend. -/
def rem (left right : Double) : Double :=
  if left.isNaN || right.isNaN || left.isInfinite || right.magnitude.1 = 0 then nan
  else if right.isInfinite then left
  else
    let (leftNumerator, leftDenominator) := left.magnitude
    let (rightNumerator, rightDenominator) := right.magnitude
    let remainder :=
      leftNumerator * rightDenominator % (rightNumerator * leftDenominator)
    (ofRatio? left.isNegative remainder (leftDenominator * rightDenominator)).getD nan

/-- The integer part of a finite number. -/
def truncate (number : Double) : Int :=
  let (numerator, denominator) := number.magnitude
  let whole : Int := (numerator / denominator : Nat)
  if number.isNegative then -whole else whole

end Double

end Pascaline
