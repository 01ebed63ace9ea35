/-
Reading code points from units of sixteen bits. A code point beyond them is a pair of surrogates,
the high one first.
-/

import Pascaline.Bytes

namespace Pascaline.Text.Utf16

/-- The unit of two bytes, with the low byte first or last. -/
def unit (lowFirst : Bool) (first second : UInt8) : Nat :=
  if lowFirst then second.toNat * 256 + first.toNat else first.toNat * 256 + second.toNat

def isHighSurrogate (unit : Nat) : Bool := 0xD800 ≤ unit && unit ≤ 0xDBFF

def isLowSurrogate (unit : Nat) : Bool := 0xDC00 ≤ unit && unit ≤ 0xDFFF

/-- The code points of a byte string, up to one that is not well formed: a surrogate without its
partner, or half of a unit. -/
def points (lowFirst : Bool) : Bytes → List (Option Char)
  | [] => []
  | [_] => [none]
  | [first, second] =>
    let unit := unit lowFirst first second
    if isHighSurrogate unit || isLowSurrogate unit then [none] else [some (Char.ofNat unit)]
  | [first, second, _] =>
    let unit := unit lowFirst first second
    if isHighSurrogate unit || isLowSurrogate unit then [none]
    else [some (Char.ofNat unit), none]
  | first :: second :: third :: fourth :: rest =>
    let high := unit lowFirst first second
    let low := unit lowFirst third fourth
    if isLowSurrogate high then [none]
    else if isHighSurrogate high then
      if isLowSurrogate low then
        some (Char.ofNat (0x10000 + (high - 0xD800) * 1024 + (low - 0xDC00))) ::
          points lowFirst rest
      else [none]
    else some (Char.ofNat high) :: points lowFirst (third :: fourth :: rest)

/-- The number of bytes of a code point. -/
def width (char : Char) : Nat := if 0x10000 ≤ char.toNat then 4 else 2

end Pascaline.Text.Utf16
