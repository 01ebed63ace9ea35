/-
Values at run time. A value knows its sort but not its type; integers are held in 64 bits and cut
to the width of whatever receives them.
-/

import Pascaline.Number.Double
import Pascaline.Number.Width
import Pascaline.Types.Native

namespace Pascaline.Machine

/-- A value. `nil` is the null address and the result of a function without one; an address is a
cell of a memory. -/
inductive Value where
  | nil
  | int (value : Int64)
  | float (value : Double)
  | text (bytes : Bytes)
  | address (memory offset : Nat)
  | function (id : Nat)
  deriving DecidableEq, Inhabited

namespace Value

/-- The sort of a value as messages name it. -/
def sortText : Value → Bytes
  | .nil => "<nil>"
  | .int _ => "int64"
  | .float _ => "float64"
  | .text _ => "string"
  | .address .. => "back.addr"
  | .function _ => "*ir.Func"

/-- Equality of values at run time. Values of different sorts differ, and floating point numbers
are compared by value. -/
def same : Value → Value → Bool
  | .nil, .nil => true
  | .int left, .int right => left = right
  | .float left, .float right => left.eq right
  | .text left, .text right => left = right
  | .address leftMemory leftOffset, .address rightMemory rightOffset =>
    leftMemory = rightMemory ∧ leftOffset = rightOffset
  | .function left, .function right => left = right
  | _, _ => false

/-- A boolean as an integer. -/
def ofBool (value : Bool) : Value := .int (if value then 1 else 0)

/-- The value as received by a type: integers are cut to its width, all else stays. -/
def fit (type : Ty) (value : Value) : Value :=
  match value, type with
  | .int number, .int target => .int (wrapToWidth target.bits number)
  | _, _ => value

/-- The value that storage of a type starts with. -/
def zero : Ty → Value
  | .int _ => .int 0
  | .float _ => .float .zero
  | _ => .nil

end Value

end Pascaline.Machine
