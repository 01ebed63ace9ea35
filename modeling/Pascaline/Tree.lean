/-
Syntax trees. A tree is made of one sort of node for expressions, statements and routines alike,
so that a node in the wrong place is a fault to report and not a shape that cannot be written.
-/

import Pascaline.Number.Double
import Pascaline.Bytes

namespace Pascaline

/-- A parameter of a routine with the name of its type. -/
structure Param where
  name : Bytes
  type : Bytes
  deriving DecidableEq, Inhabited

/-- A node of a syntax tree with its position, or `missing` where a child is absent. A binary
operation without a right operand is a postfix operation, and `not` uses its right operand only. -/
inductive Node where
  | missing
  | integer (position : Int) (value : Int32)
  | real (position : Int) (value : Double)
  | char (position : Int) (value : UInt8)
  | string (position : Int) (value : Bytes)
  | date (position : Int) (value : Bytes)
  | boolean (position : Int) (value : Bool)
  | identifier (position : Int) (name : Bytes)
  | declaration (position : Int) (name type : Bytes)
  | arrayDeclaration (position : Int) (name type : Bytes) (first last : Int64)
  | assignment (position : Int) (name : Bytes) (value : Node)
  | arrayAssignment (position : Int) (name : Bytes) (index value : Node)
  | arrayAccess (position : Int) (name : Bytes) (index : Node)
  | binary (position : Int) (operator : Bytes) (left right : Node)
  | unary (position : Int) (operator : Bytes) (operand : Node)
  | comparison (position : Int) (operator : Bytes) (left right : Node)
  | logical (position : Int) (operator : Bytes) (left right : Node)
  | conditional (position : Int) (condition : Node) (consequent alternative : List Node)
  | forLoop (position : Int) (start condition step : Node) (body : List Node)
  | whileLoop (position : Int) (condition : Node) (body : List Node)
  | repeatLoop (position : Int) (body : List Node) (condition : Node)
  | procedure (position : Int) (name : Bytes) (params : List Param) (body : List Node)
  | function (position : Int) (name : Bytes) (params : List Param) (result : Bytes)
      (body : List Node)
  | call (position : Int) (name : Bytes) (args : List Node)
  | return (position : Int) (value : Node)
  | output (position : Int) (args : List Node)
  | input (position : Int) (target : Node)
  | block (position : Int) (statements : List Node)
  deriving Inhabited

namespace Node

/-- The position of a node; a missing node has none, which is zero. -/
def position : Node → Int
  | .missing => 0
  | .integer position _ | .real position _ | .char position _ | .string position _
  | .date position _ | .boolean position _ | .identifier position _ | .declaration position _ _
  | .arrayDeclaration position _ _ _ _ | .assignment position _ _
  | .arrayAssignment position _ _ _ | .arrayAccess position _ _ | .binary position _ _ _
  | .unary position _ _ | .comparison position _ _ _ | .logical position _ _ _
  | .conditional position _ _ _ | .forLoop position _ _ _ _ | .whileLoop position _ _
  | .repeatLoop position _ _ | .procedure position _ _ _ | .function position _ _ _ _
  | .call position _ _ | .return position _ | .output position _ | .input position _
  | .block position _ => position

/-- The sort of a node as messages name it. -/
def sortText : Node → Bytes
  | .missing => "<nil>"
  | .integer .. => "*ast.Integer"
  | .real .. => "*ast.Real"
  | .char .. => "*ast.Char"
  | .string .. => "*ast.String"
  | .date .. => "*ast.Date"
  | .boolean .. => "*ast.Boolean"
  | .identifier .. => "*ast.Identifier"
  | .declaration .. => "*ast.Declaration"
  | .arrayDeclaration .. => "*ast.ArrayDeclaration"
  | .assignment .. => "*ast.Assignment"
  | .arrayAssignment .. => "*ast.ArrayAssignment"
  | .arrayAccess .. => "*ast.ArrayAccess"
  | .binary .. => "*ast.BinaryOp"
  | .unary .. => "*ast.UnaryOp"
  | .comparison .. => "*ast.Comparison"
  | .logical .. => "*ast.LogicalOp"
  | .conditional .. => "*ast.If"
  | .forLoop .. => "*ast.For"
  | .whileLoop .. => "*ast.While"
  | .repeatLoop .. => "*ast.Repeat"
  | .procedure .. => "*ast.Procedure"
  | .function .. => "*ast.Function"
  | .call .. => "*ast.FuncCall"
  | .return .. => "*ast.Return"
  | .output .. => "*ast.Output"
  | .input .. => "*ast.Input"
  | .block .. => "*ast.StatementBlock"

def isMissing : Node → Bool
  | .missing => true
  | _ => false

end Node

/-- A program is a list of nodes. -/
abbrev Program := List Node

end Pascaline
