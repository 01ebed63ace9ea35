/-
Memories. Every variable has a memory of its own, with one cell for a scalar and a cell per
element for an array. All cells receive values of one type.
-/

import Pascaline.Machine.Value

namespace Pascaline.Machine

/-- The cells behind a variable, and the type of what they receive. -/
structure Memory where
  type : Ty
  cells : Array Value
  deriving DecidableEq, Inhabited

namespace Memory

/-- The largest number of cells that a memory may be asked to have. -/
def maximumLength : Nat := 1 <<< 44

/-- A zeroed memory for a type, unless it is an array of an impossible length. -/
def new? : Ty → Option Memory
  | .array element length =>
    if length < 0 ∨ maximumLength < length.toNatClampNeg then none
    else some ⟨element, Array.replicate length.toNatClampNeg (Value.zero element)⟩
  | type => some ⟨type, #[Value.zero type]⟩

/-- The memory with all cells zeroed. -/
def clear (memory : Memory) : Memory :=
  { memory with cells := Array.replicate memory.cells.size (Value.zero memory.type) }

/-- The memory with one cell replaced. -/
def write (memory : Memory) (offset : Nat) (value : Value) : Memory :=
  { memory with cells := memory.cells.setIfInBounds offset value }

end Memory

end Pascaline.Machine
