/-
Quoted text: a byte string between double quotes. Printable code points stand for themselves,
the quote and the backslash are escaped, and everything else is written as an escape.
-/

import Pascaline.Text.Printable
import Pascaline.Text.Utf8

namespace Pascaline.Text

/-- One code point inside quotes. -/
def escape (char : Char) : Bytes :=
  if char = '"' ∨ char = '\\' then "\\" ++ Bytes.ofChar char
  else if isPrintable char then Bytes.ofChar char
  else match char.toNat with
    | 7 => "\\a"
    | 8 => "\\b"
    | 9 => "\\t"
    | 10 => "\\n"
    | 11 => "\\v"
    | 12 => "\\f"
    | 13 => "\\r"
    | number =>
      if number < 0x20 ∨ number = 0x7F then "\\x" ++ Bytes.ofHex 2 number
      else if number < 0x10000 then "\\u" ++ Bytes.ofHex 4 number
      else "\\U" ++ Bytes.ofHex 8 number

/-- A piece inside quotes. A byte outside every code point is escaped by its value. -/
def Piece.escape : Piece → Bytes
  | .point char => Text.escape char
  | .stray byte => "\\x" ++ Bytes.ofHex 2 byte.toNat

/-- A byte string in quotes. -/
def quote (bytes : Bytes) : Bytes := "\"" ++ (pieces bytes).flatMap Piece.escape ++ "\""

end Pascaline.Text
