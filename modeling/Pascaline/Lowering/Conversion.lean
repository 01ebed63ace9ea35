/-
Conversions between integer widths and to booleans. A constant is converted on the spot; any
other value by an instruction.
-/

import Pascaline.Lowering.Basic
import Pascaline.Number.Width

namespace Pascaline.Lowering

open IR (Build Operand)

/-- An integer in another width: cut, or extended with its sign. -/
def resize (operand : Operand) (target : IntType) : Build Operand :=
  match operand.type with
  | .int source =>
    if source.bits = target.bits then return operand
    else match operand with
      | .int _ value => return .int target (wrapToWidth target.bits value)
      | _ =>
        if target.bits < source.bits then Build.convert .trunc operand (.int target)
        else Build.convert .sext operand (.int target)
  | _ => return operand

/-- An argument of a variadic function: narrow integers are widened to 32 bits, booleans without
a sign. -/
def promote (operand : Operand) : Build Operand :=
  match operand.type with
  | .int source =>
    if 32 ≤ source.bits then return operand
    else match operand with
      | .int _ value => return .int .i32 value
      | _ => Build.convert (if source.bits = 1 then .zext else .sext) operand .i32
  | _ => return operand

/-- A value that can be stored as a type. The categories must agree, and integers are resized. -/
def fit (name : Bytes) (target : Ty) (operand : Operand) : Lower Operand :=
  if target.category ≠ operand.type.category then
    failWith (.mismatch name target.category.text operand.type.category.text)
  else match target with
    | .int type => if target.category = .integral then build (resize operand type)
      else return operand
    | _ => return operand

/-- Two operands of one category; the narrower of two integers is widened. -/
def unify (operator : Bytes) (left right : Operand) : Lower (Operand × Operand × Category) := do
  if left.type.category ≠ right.type.category then
    failWith (.mismatch operator left.type.category.text right.type.category.text)
  else match left.type, right.type with
    | .int leftType, .int rightType =>
      if leftType.bits < rightType.bits then
        return (← build (resize left rightType), right, left.type.category)
      else if rightType.bits < leftType.bits then
        return (left, ← build (resize right leftType), left.type.category)
      else return (left, right, left.type.category)
    | _, _ => return (left, right, left.type.category)

/-- Whether a value is different from zero or from the null address. -/
def truth (operand : Operand) : Lower Operand :=
  match operand.type with
  | .int type =>
    if operand.type.category = .logical then return operand
    else build (Build.compare (.signed .ne) operand (.int type 0))
  | .float _ => build (Build.compare (.unordered .ne) operand (.float .zero))
  | .ptr _ => build (Build.compare (.signed .ne) operand .null)
  | _ =>
    failWith (.mismatch "operand" Category.logical.text operand.type.category.text)

/-- The opposite of the truth of a value. -/
def negate (operand : Operand) : Lower Operand := do
  let value ← truth operand
  build (Build.binary .xor value (.ofBool true))

/-- A value of a category, as the operand in a named place. -/
def expectCategory (place : Bytes) (category : Category) (operand : Operand) : Lower Unit :=
  if operand.type.category = category then return ()
  else failWith (.mismatch place category.text operand.type.category.text)

end Pascaline.Lowering
