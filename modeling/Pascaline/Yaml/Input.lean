/-
The characters of a text. A text is read in blocks, and a block with something that is no character
of a document is not seen at all: reading fails only if it comes there.
-/

import Pascaline.Text.Utf16
import Pascaline.Text.Utf8

namespace Pascaline.Yaml

/-- The characters that can be read, and whether they are the whole text. -/
structure Input where
  chars : List Char
  complete : Bool
  deriving DecidableEq

/-- A character that may stand in a document. -/
def isAllowed (char : Char) : Bool :=
  let code := char.toNat
  code = 0x09 ∨ code = 0x0A ∨ code = 0x0D ∨ (0x20 ≤ code ∧ code ≤ 0x7E) ∨ code = 0x85 ∨
    (0xA0 ≤ code ∧ code ≤ 0xD7FF) ∨ (0xE000 ≤ code ∧ code ≤ 0xFFFD ∧ code ≠ 0xFEFF) ∨
    (0x10000 ≤ code ∧ code ≤ 0x10FFFF)

/-- A character of a document or something else, and the number of bytes that it takes. -/
structure Slot where
  char : Option Char
  width : Nat

/-- The number of bytes that a byte announces as the first one of a character. -/
def announcedWidth (byte : UInt8) : Nat :=
  if 0xF0 ≤ byte ∧ byte ≤ 0xF7 then 4
  else if 0xE0 ≤ byte ∧ byte ≤ 0xEF then 3
  else if 0xC0 ≤ byte ∧ byte ≤ 0xDF then 2
  else 1

/-- The contents of a text of single bytes. -/
def slots (bytes : Bytes) : List Slot :=
  (Text.pieces bytes).map fun
    | .point char => ⟨(some char).filter isAllowed, char.utf8Size⟩
    | .stray byte => ⟨none, announcedWidth byte⟩

/-- The contents of a text of units of two bytes. -/
def wideSlots (lowFirst : Bool) (bytes : Bytes) : List Slot :=
  (Text.Utf16.points lowFirst bytes).map fun
    | some char => ⟨(some char).filter isAllowed, Text.Utf16.width char⟩
    | none => ⟨none, 2⟩

/-- The number of bytes in a block. -/
def blockSize : Nat := 512

/-- Reads slots. The room is what is left of a block; the characters of this block and those of the
blocks before it are kept with the last one first. What does not fit opens a new block. -/
def Input.ofSlots (room : Nat) (block done : List Char) : List Slot → Input
  | [] => ⟨(block ++ done).reverse, true⟩
  | slot :: rest =>
    let fits := slot.width ≤ room
    let room := if fits then room else blockSize
    let done := if fits then done else block ++ done
    let block := if fits then block else []
    match slot.char with
    | none => ⟨done.reverse, false⟩
    | some char => ofSlots (room - slot.width) (char :: block) done rest

/-- The characters of a text. A byte order mark at its start tells how they are written. -/
def Input.ofBytes : Bytes → Input
  | 0xFF :: 0xFE :: rest => ofSlots (blockSize - 2) [] [] (wideSlots true rest)
  | 0xFE :: 0xFF :: rest => ofSlots (blockSize - 2) [] [] (wideSlots false rest)
  | 0xEF :: 0xBB :: 0xBF :: rest => ofSlots (blockSize - 3) [] [] (slots rest)
  | bytes => ofSlots blockSize [] [] (slots bytes)

end Pascaline.Yaml
