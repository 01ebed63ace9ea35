/-
Kinds: the scalar types that a program can name, each with its native representation.
-/

import Pascaline.Types.Native

namespace Pascaline

/-- A scalar type of the source language; `none` stands for the absence of one. -/
inductive Kind where
  | none
  | integer
  | real
  | boolean
  | char
  | string
  | date
  deriving DecidableEq, Inhabited

namespace Kind

/-- A type name in lower case. Besides the ASCII capitals, the dotted capital `İ` becomes an `i`;
no other letter has a lower case that occurs in a type name. -/
def lowerName : Bytes → Bytes
  | 0xC4 :: 0xB0 :: rest => Bytes.code 'i' :: lowerName rest
  | byte :: rest => Bytes.lowerAscii byte :: lowerName rest
  | [] => []

/-- The names of types with their kinds. -/
def names : List (Bytes × Kind) := [
  ("int", .integer), ("integer", .integer), ("real", .real), ("boolean", .boolean),
  ("char", .char), ("string", .string), ("date", .date)]

/-- The kind that a type name stands for, in any case. -/
def ofName? (name : Bytes) : Option Kind := names.lookup (lowerName name)

/-- The representation in storage. -/
def native : Kind → Ty
  | .none => .void
  | .integer => .i32
  | .real => .double
  | .boolean => .i1
  | .char => .i8
  | .string | .date => .bytes

def category (kind : Kind) : Category := kind.native.category

/-- The conversion that prints a value of the kind, empty if there is none. -/
def printFormat (kind : Kind) : Bytes := kind.native.printFormat?.getD []

def text : Kind → Bytes
  | .none => "NONE"
  | .integer => "INTEGER"
  | .real => "REAL"
  | .boolean => "BOOLEAN"
  | .char => "CHAR"
  | .string => "STRING"
  | .date => "DATE"

end Kind

end Pascaline
