/-
Bytes in base 64: four digits of six bits each stand for three bytes. The last group of four may be
padded. Ends of lines between the digits do not count.
-/

import Pascaline.Bytes

namespace Pascaline.Text.Base64

open Bytes (code)

/-- The six bits that a digit stands for. -/
def digit? (byte : UInt8) : Option Nat :=
  if code 'A' ≤ byte ∧ byte ≤ code 'Z' then some (byte - code 'A').toNat
  else if code 'a' ≤ byte ∧ byte ≤ code 'z' then some ((byte - code 'a').toNat + 26)
  else if code '0' ≤ byte ∧ byte ≤ code '9' then some ((byte - code '0').toNat + 52)
  else if byte = code '+' then some 62
  else if byte = code '/' then some 63
  else none

/-- The bytes of groups of four digits. A padded group is the last one, and its bits beyond full
bytes are dropped. -/
def groups? : Bytes → Option Bytes
  | [] => some []
  | first :: second :: third :: fourth :: rest => do
    let high := (← digit? first) * 64 + (← digit? second)
    if fourth = code '=' then
      guard (rest = [])
      if third = code '=' then return [UInt8.ofNat (high / 16)]
      else
        let bits := high * 64 + (← digit? third)
        return [UInt8.ofNat (bits / 1024), UInt8.ofNat (bits / 4)]
    else
      let bits := (high * 64 + (← digit? third)) * 64 + (← digit? fourth)
      return UInt8.ofNat (bits / 65536) :: UInt8.ofNat (bits / 256) :: UInt8.ofNat bits ::
        (← groups? rest)
  | _ => none

/-- The bytes that a text stands for. -/
def decode? (text : Bytes) : Option Bytes :=
  groups? (text.filter fun byte => byte ≠ code '\n' && byte ≠ code '\r')

end Pascaline.Text.Base64
