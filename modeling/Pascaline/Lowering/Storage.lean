/-
Storage of symbols. A slot is reserved the first time that it is needed and stays with its symbol;
an element of an array is addressed by its distance from the first index.
-/

import Pascaline.Lowering.Basic
import Pascaline.Tree

namespace Pascaline.Lowering

open IR (Build Operand Slot)

/-- How storage for a name and type is reserved. -/
abbrev Reserve := Bytes → Ty → Build Slot

/-- The slot of a variable or array. -/
def allocate (reserve : Reserve) (name : Bytes) : Lower Slot := do
  match ← find? name with
  | none => failWith (.named .undeclaredIdentifier name)
  | some symbol =>
    if symbol.isRoutine then fail (.noStorage name)
    else match symbol.slot with
      | some slot => return slot
      | none =>
        let slot ← build (reserve name symbol.nativeType)
        updateSymbol name fun symbol => symbol.bind slot
        return slot

/-- The distance of an index from the first one. -/
def elementOffset (first : Int64) (index : Operand) : Build Operand :=
  if first = 0 then return index else Build.binary (.int .sub) index (.int .i32 first)

/-- The address of a variable, or with an index that of an element. The index is not compared
with the bounds here. -/
def lookup (reserve : Reserve) (name : Bytes) (index : Option Operand) : Lower Operand := do
  let slot ← allocate reserve name
  match index with
  | none => return .slot slot
  | some index =>
    match (← find? name).map Symbol.shape with
    | some (.array first _) =>
      build do Build.elementAddress (.slot slot) (← elementOffset first index)
    | _ => failWith (.named .malformedArrayAccess name)

/-! ### Routines -/

namespace Routine

/-- Variables of the outermost scope of the main routine belong to the module, and all others to
the stack of the function. -/
def reserve (routine : Routine) (depth : Nat) : Reserve :=
  if routine.isMain ∧ depth = 1 then Build.globalVariable else Build.alloca

/-- The name of a function, for messages. -/
def functionName (function : Nat) : Lower Bytes := do
  return (((← get).builder.function? function).map IR.Function.name).getD []

/-- The symbol of a variable and the address of it or of an element. Locals of a surrounding
routine cannot be reached. -/
def storage (routine : Routine) (name : Bytes) (index : Option Operand) :
    Lower (Symbol × Operand) := do
  match ← find? name with
  | none => failWith (.named .undeclaredIdentifier name)
  | some symbol =>
    if symbol.isRoutine then failWith (.mismatch name "variable" "function")
    else if let some owner := symbol.owner then
      if owner ≠ routine.function then
        fail (.foreignLocal name (← functionName owner) (← functionName routine.function))
    let depth := (← get).table.depth
    return (symbol, ← lookup (routine.reserve depth) name index)

/-- The variable behind a name that is not a whole array. -/
def scalarStorage (routine : Routine) (name misuse : Bytes) : Lower (Symbol × Operand) := do
  let (symbol, address) ← routine.storage name none
  if symbol.isArray then failWith (.malformedAccess name misuse)
  else return (symbol, address)

/-- Reserves the storage of a fresh variable of the routine and gives it its owner. Variables of
the module have none. -/
def claim (routine : Routine) (name : Bytes) : Lower Slot := do
  let slot ← allocate (routine.reserve (← get).table.depth) name
  if slot.storage ≠ .global then
    updateSymbol name fun symbol => { symbol with owner := some routine.function }
  return slot

/-- Declares a variable. One on the stack is cleared each time its declaration is executed. -/
def declareVariable (routine : Routine) (name type : Bytes)
    (declaration : Kind → Table → Except Fault Table) : Lower Unit := do
  if isReserved name then failWith (.named .duplicateDeclaration name)
  let kind ← resolve type
  declare (declaration kind)
  let slot ← within .allocate (routine.claim name)
  if slot.storage ≠ .global then
    if let some zero := Operand.zero? slot.type then
      build (Build.store (.slot slot) zero)

/-- Declares the parameters of the routine, from the one with the given position on. Arguments
are copied, so that assignments never reach the caller. -/
def declareParams (routine : Routine) : Nat → List Param → List Kind → Lower Unit
  | position, param :: params, kind :: kinds => do
    let slot ← within (.param param.name) do
      declare fun table => table.declareScalar param.name kind
      routine.claim param.name
    build do Build.store (.slot slot) (.slot (← Build.argument position))
    routine.declareParams (position + 1) params kinds
  | _, _, _ => return ()

end Routine

/-- The value of a variable or element. Parameters are values themselves. -/
def read (address : Operand) : Build Operand :=
  match address with
  | .slot place => if place.storage = .param then return address else Build.load address
  | _ => Build.load address

end Pascaline.Lowering
