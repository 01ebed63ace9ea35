/-
Reading code points from a byte string. A byte that does not start a well-formed sequence stands
alone, so every byte string splits into code points and stray bytes in exactly one way.
-/

import Pascaline.Bytes

namespace Pascaline.Text

/-- A continuation byte, from 80 to BF. -/
def isContinuation (byte : UInt8) : Bool := 0x80 ≤ byte && byte ≤ 0xBF

/-- The six payload bits of a continuation byte. -/
def payload (byte : UInt8) : Nat := byte.toNat % 64

/-- The code point at the head of a byte string. Overlong forms, surrogates and values beyond
U+10FFFF are not well formed. -/
def firstChar? : Bytes → Option Char
  | [] => none
  | first :: rest =>
    if first < 0x80 then some (Char.ofNat first.toNat)
    else if 0xC2 ≤ first ∧ first ≤ 0xDF then
      match rest with
      | second :: _ =>
        if isContinuation second then
          some (Char.ofNat (first.toNat % 32 * 64 + payload second))
        else none
      | [] => none
    else if 0xE0 ≤ first ∧ first ≤ 0xEF then
      match rest with
      | second :: third :: _ =>
        let lowest : UInt8 := if first = 0xE0 then 0xA0 else 0x80
        let highest : UInt8 := if first = 0xED then 0x9F else 0xBF
        if lowest ≤ second ∧ second ≤ highest ∧ isContinuation third then
          some (Char.ofNat (first.toNat % 16 * 4096 + payload second * 64 + payload third))
        else none
      | _ => none
    else if 0xF0 ≤ first ∧ first ≤ 0xF4 then
      match rest with
      | second :: third :: fourth :: _ =>
        let lowest : UInt8 := if first = 0xF0 then 0x90 else 0x80
        let highest : UInt8 := if first = 0xF4 then 0x8F else 0xBF
        if lowest ≤ second ∧ second ≤ highest ∧ isContinuation third ∧ isContinuation fourth then
          some (Char.ofNat (first.toNat % 8 * 262144 + payload second * 4096 +
            payload third * 64 + payload fourth))
        else none
      | _ => none
    else none

/-- A piece of a byte string: a code point, or a byte outside every code point. -/
inductive Piece where
  | point (char : Char)
  | stray (byte : UInt8)
  deriving DecidableEq

/-- The pieces of a byte string behind its first `skip` bytes, which belong to the piece
before. -/
def piecesFrom : Nat → Bytes → List Piece
  | _, [] => []
  | skip + 1, _ :: rest => piecesFrom skip rest
  | 0, first :: rest =>
    match firstChar? (first :: rest) with
    | some char => .point char :: piecesFrom (char.utf8Size - 1) rest
    | none => .stray first :: piecesFrom 0 rest

/-- A byte string as code points and stray bytes. -/
def pieces (bytes : Bytes) : List Piece := piecesFrom 0 bytes

/-- The code point of a piece, unless it is a stray byte. -/
def Piece.char? : Piece → Option Char
  | .point char => some char
  | .stray _ => none

/-- The code points of a byte string that is well formed throughout. -/
def chars? (bytes : Bytes) : Option (List Char) := (pieces bytes).mapM Piece.char?

end Pascaline.Text
