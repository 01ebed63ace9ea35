/-
Reading numbers from text. An integer is an optional sign and digits of a base. A real is
decimal, or hexadecimal with a binary exponent, or an infinity or NaN by name; underscores may
stand between digits or behind a base mark. A number outside the range of its type is refused.
-/

import Pascaline.Bytes
import Pascaline.Number.Double
import Pascaline.Number.Width

namespace Pascaline

open Bytes (code isDigit lowerAscii digitValue?)

/-- The natural written by digits of a base; no digits are zero. -/
def naturalOfDigits? (base : Nat) (digits : Bytes) : Option Nat :=
  digits.foldlM (fun value byte => do
    let digit ← digitValue? byte
    if digit < base then some (value * base + digit) else none) 0

/-- An optional sign and the text behind it. -/
def splitSign : Bytes → Bool × Bytes
  | [] => (false, [])
  | first :: rest =>
    if first = code '-' then (true, rest)
    else if first = code '+' then (false, rest)
    else (false, first :: rest)

/-- A 64-bit signed integer in decimal. -/
def readInt? (text : Bytes) : Option Int64 := do
  let (negative, digits) := splitSign text
  guard (digits ≠ [])
  let magnitude ← naturalOfDigits? 10 digits
  let number : Int := if negative then -magnitude else magnitude
  guard (fitsSigned 64 number)
  some (Int64.ofInt number)

/-- What stood before a character, for the placement of underscores. -/
inductive Before where
  | start
  | digit
  | underscore
  | other
  deriving DecidableEq

/-- The text behind a base mark, and whether the base is sixteen. -/
def splitBaseMark : Bytes → Option (Bool × Bytes)
  | zero :: letter :: rest =>
    let letter := lowerAscii letter
    if zero = code '0' ∧ (letter = code 'b' ∨ letter = code 'o' ∨ letter = code 'x') then
      some (letter = code 'x', rest)
    else none
  | _ => none

/-- Every underscore has a digit or base mark before it and a digit behind it. -/
def underscoresPlaced (hexadecimal : Bool) : Before → Bytes → Bool
  | before, [] => before ≠ .underscore
  | before, byte :: rest =>
    if isDigit byte ∨ (hexadecimal ∧ (digitValue? byte).any (· < 16)) then
      underscoresPlaced hexadecimal .digit rest
    else if byte = code '_' then
      before = .digit && underscoresPlaced hexadecimal .underscore rest
    else before ≠ .underscore && underscoresPlaced hexadecimal .other rest

/-- Underscores of an unsigned number are only between digits or behind its base mark. -/
def underscoresAllowed (text : Bytes) : Bool :=
  match splitBaseMark text with
  | some (hexadecimal, rest) => underscoresPlaced hexadecimal .digit rest
  | none => underscoresPlaced false .start text

/-- The digits of a mantissa: their value, how many stand behind the point, and the rest. -/
structure Mantissa where
  value : Nat := 0
  places : Nat := 0
  hasPoint : Bool := false
  hasDigits : Bool := false

/-- Reads digits, at most one point, and underscores as long as they come. -/
def readMantissa (base : Nat) : Mantissa → Bytes → Mantissa × Bytes
  | mantissa, [] => (mantissa, [])
  | mantissa, byte :: rest =>
    if byte = code '_' then readMantissa base mantissa rest
    else if byte = code '.' then
      if mantissa.hasPoint then (mantissa, byte :: rest)
      else readMantissa base { mantissa with hasPoint := true } rest
    else match digitValue? byte with
      | some digit =>
        if digit < base then
          readMantissa base
            { mantissa with
              value := mantissa.value * base + digit
              places := mantissa.places + if mantissa.hasPoint then 1 else 0
              hasDigits := true } rest
        else (mantissa, byte :: rest)
      | none => (mantissa, byte :: rest)

/-- The digits of an exponent with underscores among them, and the rest. Values from ten
thousand on are beyond every double, so further digits are not counted. -/
def readExponentDigits : Nat → Bytes → Nat × Bytes
  | value, [] => (value, [])
  | value, byte :: rest =>
    if byte = code '_' then readExponentDigits value rest
    else if isDigit byte then
      readExponentDigits
        (if value < 10000 then value * 10 + (byte - code '0').toNat else value) rest
    else (value, byte :: rest)

/-- An exponent behind its letter: an optional sign, then a digit at least. -/
def readExponent? (text : Bytes) : Option (Int × Bytes) :=
  let (negative, digits) := splitSign text
  match digits with
  | [] => none
  | first :: _ =>
    if isDigit first then
      let (value, rest) := readExponentDigits 0 digits
      some (if negative then -value else value, rest)
    else none

/-- The number of decimal digits. -/
def digitCount (number : Nat) : Int := (Nat.toDigits 10 number).length

/-- The double nearest to `value * 10 ^ exponent`. Far outside the range of doubles the answer
does not depend on the digits. -/
def ofDecimal? (negative : Bool) (value : Nat) (exponent : Int) : Option Double :=
  if value = 0 then some (Double.zero.withSign negative)
  else if 310 < digitCount value + exponent then none
  else if digitCount value + exponent < -330 then some (Double.zero.withSign negative)
  else if 0 ≤ exponent then Double.ofRatio? negative (value * Nat.pow 10 exponent.toNat) 1
  else Double.ofRatio? negative value (Nat.pow 10 (-exponent).toNat)

/-- The double nearest to `value * 2 ^ exponent`. -/
def ofBinary? (negative : Bool) (value : Nat) (exponent : Int) : Option Double :=
  if value = 0 then some (Double.zero.withSign negative)
  else if 1100 < (value.log2 : Int) + exponent then none
  else if (value.log2 : Int) + exponent < -1200 then some (Double.zero.withSign negative)
  else if 0 ≤ exponent then Double.ofRatio? negative (value <<< exponent.toNat) 1
  else Double.ofRatio? negative value (1 <<< (-exponent).toNat)

/-- An infinity, or NaN without a sign, by name in any case. -/
def readSpecial? (text : Bytes) : Option Double :=
  let (negative, name) := splitSign text
  let name := name.map lowerAscii
  if name = "inf" ∨ name = "infinity" then some (Double.infinity negative)
  else if text.map lowerAscii = "nan" then some Double.nan
  else none

/-- A hexadecimal real behind its mark: digits and a binary exponent. -/
def readHexReal? (negative : Bool) (text : Bytes) : Option Double := do
  let (mantissa, rest) := readMantissa 16 {} text
  guard mantissa.hasDigits
  let letter :: rest := rest | none
  guard (lowerAscii letter = code 'p')
  let (exponent, rest) ← readExponent? rest
  guard (rest = [])
  ofBinary? negative mantissa.value (exponent - 4 * mantissa.places)

/-- A decimal real without its sign: digits and perhaps an exponent. -/
def readDecimalReal? (negative : Bool) (text : Bytes) : Option Double := do
  let (mantissa, rest) := readMantissa 10 {} text
  guard mantissa.hasDigits
  match rest with
  | [] => ofDecimal? negative mantissa.value (-mantissa.places)
  | letter :: rest =>
    guard (lowerAscii letter = code 'e')
    let (exponent, rest) ← readExponent? rest
    guard (rest = [])
    ofDecimal? negative mantissa.value (exponent - mantissa.places)

/-- A double in any of its written forms, if it does not overflow. -/
def readReal? (text : Bytes) : Option Double :=
  match readSpecial? text with
  | some number => some number
  | none =>
    let (negative, body) := splitSign text
    if body.contains (code '_') ∧ !underscoresAllowed body then none
    else match splitBaseMark body with
      | some (true, first :: rest) => readHexReal? negative (first :: rest)
      | _ => readDecimalReal? negative body

end Pascaline
