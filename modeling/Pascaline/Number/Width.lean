/-
Integers of a width. All integers are held in 64 bits; a value of a narrower type is one that the
width leaves as it is.
-/

namespace Pascaline

/-- The value cut to a width and read as a signed number; one bit is read as zero or one. Other
widths than those of the integer types cut nothing. -/
def wrapToWidth (bits : Int16) (value : Int64) : Int64 :=
  if bits = 1 then value &&& 1
  else if bits = 8 then value.toInt8.toInt64
  else if bits = 16 then value.toInt16.toInt64
  else if bits = 32 then value.toInt32.toInt64
  else value

/-- Whether a number can be held in a number of bits with a sign. -/
def fitsSigned (bits : Nat) (number : Int) : Bool :=
  -(1 <<< (bits - 1) : Nat) ≤ number && number < (1 <<< (bits - 1) : Nat)

/-- Whether a number can be held in a number of bits without a sign. -/
def fitsUnsigned (bits : Nat) (number : Int) : Bool := 0 ≤ number && number < (1 <<< bits : Nat)

end Pascaline
