/-
Byte strings. Names, literals, program text, input and output are sequences of arbitrary bytes,
so text that is not valid UTF-8 passes through every stage unchanged. Messages are byte strings
as well, because they quote such names.
-/

namespace Pascaline

/-- A byte string. -/
abbrev Bytes := List UInt8

namespace Bytes

/-- The UTF-8 encoding of a text. -/
def ofString (text : String) : Bytes := text.toUTF8.data.toList

instance : Coe String Bytes := ⟨ofString⟩

/-- The UTF-8 encoding of one character. -/
def ofChar (char : Char) : Bytes := String.utf8EncodeChar char

/-- The code of an ASCII character. -/
def code (char : Char) : UInt8 := char.toNat.toUInt8

/-- A natural number in decimal. -/
def ofNat (number : Nat) : Bytes := (Nat.toDigits 10 number).map code

/-- An integer in decimal, with a minus sign if it is negative. -/
def ofInt (number : Int) : Bytes :=
  if number < 0 then code '-' :: ofNat number.natAbs else ofNat number.natAbs

/-- A number in hexadecimal, lower case, padded with zeros to at least `width` digits. -/
def ofHex (width number : Nat) : Bytes :=
  let digits := (Nat.toDigits 16 number).map code
  List.replicate (width - digits.length) (code '0') ++ digits

/-- The items with `separator` between neighbours. -/
def join (separator : Bytes) : List Bytes → Bytes
  | [] => []
  | [item] => item
  | item :: rest => item ++ separator ++ join separator rest

/-- The letters `A` to `Z` in lower case; other bytes stay. -/
def lowerAscii (byte : UInt8) : UInt8 :=
  if code 'A' ≤ byte ∧ byte ≤ code 'Z' then byte + 32 else byte

/-- One of the ten decimal digits. -/
def isDigit (byte : UInt8) : Bool := code '0' ≤ byte ∧ byte ≤ code '9'

/-- The value of a digit in a base up to 36, letters in either case. -/
def digitValue? (byte : UInt8) : Option Nat :=
  let lower := lowerAscii byte
  if isDigit byte then some (byte - code '0').toNat
  else if code 'a' ≤ lower ∧ lower ≤ code 'z' then some ((lower - code 'a').toNat + 10)
  else none

end Bytes

end Pascaline
