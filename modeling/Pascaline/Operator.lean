/-
Operators of the source language: their spellings, and the operations that they stand for in each
category of operands.
-/

import Pascaline.IR.Basic

namespace Pascaline.Operator

/-- Second spellings of operators. -/
def aliases : List (Bytes × Bytes) := [
  ("==", "="), ("!=", "<>"), ("AND", "and"), ("OR", "or"), ("NOT", "not"), ("DIV", "div"),
  ("MOD", "mod")]

/-- The first spelling of an operator. -/
def canonical (operator : Bytes) : Bytes := (aliases.lookup operator).getD operator

def isNot (operator : Bytes) : Bool := canonical operator = "not"

/-- The operators that can stand behind a variable. -/
def isPostfix (operator : Bytes) : Bool :=
  canonical operator = "+" ∨ canonical operator = "-"

/-- Arithmetic on integers, where both divisions truncate. -/
def integerArithmetic : List (Bytes × IR.Arith) := [
  ("+", .add), ("-", .sub), ("*", .mul), ("/", .div), ("div", .div), ("mod", .rem)]

/-- Arithmetic on floating point numbers, which have no integer division. -/
def realArithmetic : List (Bytes × IR.Arith) := [
  ("+", .add), ("-", .sub), ("*", .mul), ("/", .div), ("mod", .rem)]

def relations : List (Bytes × IR.Relation) := [
  ("=", .eq), ("<>", .ne), ("<", .lt), ("<=", .le), (">", .gt), (">=", .ge)]

/-- The arithmetic operation of an operator for operands of a category. -/
def arithmetic? (category : Category) (operator : Bytes) : Option IR.BinaryOp :=
  match category with
  | .integral => (integerArithmetic.lookup (canonical operator)).map .int
  | .floating => (realArithmetic.lookup (canonical operator)).map .float
  | _ => none

/-- The comparison of an operator for operands of a category. Booleans have equality only. -/
def comparison? (category : Category) (operator : Bytes) : Option IR.Predicate :=
  match category, relations.lookup (canonical operator) with
  | .integral, some relation => some (.signed relation)
  | .floating, some relation => some (.unordered relation)
  | .logical, some .eq => some (.signed .eq)
  | .logical, some .ne => some (.signed .ne)
  | _, _ => none

/-- The connective of an operator. -/
def connective? (operator : Bytes) : Option IR.BinaryOp :=
  if canonical operator = "and" then some .and
  else if canonical operator = "or" then some .or
  else none

end Pascaline.Operator
