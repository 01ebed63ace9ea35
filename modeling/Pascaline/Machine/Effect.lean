/-
The effect of an instruction. An instruction first reads its operands, which may trap, and then
has one effect, which always succeeds.
-/

import Pascaline.Machine.Basic

namespace Pascaline.Machine

open IR (Operand)

/-- What a machine reads from while it works out an instruction. -/
structure View where
  unit : IR.Module
  machine : Machine
  frame : Frame

namespace View

/-- The name of a stack variable of the running function, for messages. -/
def localName (view : View) (id : Nat) : Bytes :=
  ((view.unit.functions[view.frame.function]?).bind fun function =>
    (function.locals[id]?).map IR.Local.name).getD []

/-- A value that must be there. -/
def present (value : Option Value) : Except Trap Value :=
  match value with
  | some value => .ok value
  | none => .error .wildAccess

/-- The value of a slot: the address of its memory, or the argument itself. -/
def slotValue (view : View) (slot : IR.Slot) : Except Trap Value :=
  match slot.storage with
  | .param => present view.frame.args[slot.id]?
  | .global =>
    if slot.id < view.unit.globals.size then .ok (.address slot.id 0) else .error .wildAccess
  | .stack =>
    match view.frame.locals[slot.id]? with
    | some (some memory) => .ok (.address memory 0)
    | some none => .error (.unallocated (view.localName slot.id))
    | none => .error .wildAccess

def value (view : View) : Operand → Except Trap Value
  | .int _ number => .ok (.int number)
  | .float number => .ok (.float number)
  | .null => .ok .nil
  | .zeros _ => .error .aggregateValue
  | .data id => present ((view.unit.data[id]?).map fun datum => .text datum.bytes)
  | .slot place => view.slotValue place
  | .reg register => present view.frame.registers[register.id]?
  | .function id _ => .ok (.function id)

/-- An operand that must be an address. -/
def address (view : View) (operand : Operand) : Except Trap (Nat × Nat) := do
  match ← view.value operand with
  | .address memory offset => return (memory, offset)
  | other => .error (.notAddress other.sortText)

/-- An operand that must be an integer. -/
def integer (view : View) (operand : Operand) : Except Trap Int64 := do
  match ← view.value operand with
  | .int number => return number
  | other => .error (.notInteger other.sortText)

/-- An operand that must be a floating point number. -/
def float (view : View) (operand : Operand) : Except Trap Double := do
  match ← view.value operand with
  | .float number => return number
  | other => .error (.notFloat other.sortText)

/-- Values of all operands, each with its position if it traps. -/
def values (view : View) : Nat → List Operand → Except MachineFailure (List Value)
  | _, [] => .ok []
  | position, operand :: rest =>
    match view.value operand with
    | .error trap => .error ⟨[.argument position], trap⟩
    | .ok value => return value :: (← view.values (position + 1) rest)

end View

/-! ### Operations -/

def integerArithmetic (op : IR.Arith) (left right : Int64) : Except Trap Int64 :=
  match op with
  | .add => .ok (left + right)
  | .sub => .ok (left - right)
  | .mul => .ok (left * right)
  | .div => if right = 0 then .error .divisionByZero else .ok (left / right)
  | .rem => if right = 0 then .error .divisionByZero else .ok (left % right)

def floatArithmetic (op : IR.Arith) (left right : Double) : Double :=
  match op with
  | .add => left.add right
  | .sub => left.sub right
  | .mul => left.mul right
  | .div => left.div right
  | .rem => left.rem right

/-- An operation on integers. -/
def integerOperation (op : IR.BinaryOp) (left right : Int64) : Except Trap Int64 :=
  match op with
  | .int arith => integerArithmetic arith left right
  | .and => .ok (left &&& right)
  | .or => .ok (left ||| right)
  | .xor => .ok (left ^^^ right)
  | .float _ => .error .wildAccess
  | .unnamed code => .error (.unsupportedOperation code)

def integerRelation (relation : IR.Relation) (left right : Int64) : Bool :=
  match relation with
  | .eq => left = right
  | .ne => left ≠ right
  | .lt => left < right
  | .le => left ≤ right
  | .gt => right < left
  | .ge => right ≤ left

def floatRelation (relation : IR.Relation) (left right : Double) : Bool :=
  match relation with
  | .eq => left.eq right
  | .ne => !left.eq right
  | .lt => left.lt right
  | .le => left.le right
  | .gt => right.lt left
  | .ge => right.le left

/-- A relation that also holds if one of the numbers is a NaN. -/
def unorderedRelation (relation : IR.Relation) (left right : Double) : Bool :=
  left.isNaN || right.isNaN || floatRelation relation left right

/-- The number without the bits above a width. -/
def maskToWidth (bits : Int16) (number : Int64) : Except Trap Int64 :=
  if bits < 0 then .error .wildAccess
  else if 64 ≤ bits then .ok number
  else .ok (Int64.ofInt (number.toBitVec.toNat % 1 <<< bits.toNatClampNeg))

/-- A conversion of an integer, before it is cut to the width of its target. -/
def castInteger (cast : IR.Cast) (source : Ty) (number : Int64) : Except Trap Int64 :=
  match cast with
  | .trunc | .sext => .ok number
  | .zext =>
    match source with
    | .int type => maskToWidth type.bits number
    | _ => .ok number
  | .unnamed code => .error (.unsupportedCast code)

namespace View

def binary (view : View) (op : IR.BinaryOp) (left right : Operand) (type : Ty) :
    Except Trap Value :=
  match op with
  | .float arith => do
    let leftNumber ← view.float left
    let rightNumber ← view.float right
    return .float (floatArithmetic arith leftNumber rightNumber)
  | _ => do
    let leftNumber ← view.integer left
    let rightNumber ← view.integer right
    return (Value.int (← integerOperation op leftNumber rightNumber)).fit type

/-- A comparison. Equality compares values of all sorts, and the order integers only. -/
def compare (view : View) (predicate : IR.Predicate) (left right : Operand) :
    Except Trap Value :=
  match predicate with
  | .unordered relation => do
    let leftNumber ← view.float left
    let rightNumber ← view.float right
    return .ofBool (unorderedRelation relation leftNumber rightNumber)
  | .signed .eq => do
    let leftValue ← view.value left
    let rightValue ← view.value right
    return .ofBool (leftValue.same rightValue)
  | .signed .ne => do
    let leftValue ← view.value left
    let rightValue ← view.value right
    return .ofBool (!leftValue.same rightValue)
  | .signed relation => do
    let leftNumber ← view.integer left
    let rightNumber ← view.integer right
    return .ofBool (integerRelation relation leftNumber rightNumber)
  | .unnamed _ => do
    if predicate.isFloat then
      let _ ← view.float left
      let _ ← view.float right
    else
      let _ ← view.integer left
      let _ ← view.integer right
    return .ofBool false

def convert (view : View) (cast : IR.Cast) (operand : Operand) (type : Ty) :
    Except Trap Value := do
  let number ← view.integer operand
  return (Value.int (← castInteger cast operand.type number)).fit type

/-- The address of an element, which must lie inside the memory. -/
def elementAddress (view : View) (base index : Operand) : Except Trap Value := do
  let (memory, offset) ← view.address base
  let number ← view.integer index
  let length := ((view.machine.memories[memory]?).map fun cells => cells.cells.size).getD 0
  let target : Int := offset + number.toInt
  if target < 0 ∨ (length : Int) ≤ target then .error (.indexRange number.toInt length)
  else return .address memory target.toNat

end View

/-! ### Effects -/

/-- What an instruction does after it has read its operands. -/
inductive Effect where
  | assign (register : Nat) (value : Value)
  | allocate (slot : Nat) (memory : Memory)
  | write (memory offset : Nat) (value : Value)
  | clear (memory : Nat)
  | call (out : Option IR.Register) (callee : Nat) (args : List Value)
  deriving DecidableEq

namespace View

/-- A write of a value to a cell, which receives it by the type of the memory. -/
def write (view : View) (memory offset : Nat) (value : Value) : Except Trap Effect :=
  match view.machine.memories[memory]? with
  | some cells =>
    if offset < cells.cells.size then .ok (.write memory offset (value.fit cells.type))
    else .error .wildAccess
  | none => .error .wildAccess

/-- The effect of an instruction that reads a value into a register. -/
def assigning (out : IR.Register) (value : Except Trap Value) : Except MachineFailure Effect :=
  match value with
  | .ok value => .ok (.assign out.id value)
  | .error trap => .error (.bare trap)

def store (view : View) (address : Operand) (value : Operand) : Except Trap Effect := do
  let (memory, offset) ← view.address address
  match value with
  | .zeros _ => return .clear memory
  | _ => view.write memory offset (← view.value value)

def load (view : View) (address : Operand) : Except Trap Value := do
  let (memory, offset) ← view.address address
  present (view.machine.cell? memory offset)

/-- The effect of an instruction. -/
def effect (view : View) (instr : IR.Instr) : Except MachineFailure Effect :=
  match instr with
  | .alloca slot =>
    match Memory.new? slot.type with
    | some memory => .ok (.allocate slot.id memory)
    | none => .error (.bare .wildAccess)
  | .load out address => assigning out (view.load address)
  | .store address value => (view.store address value).mapError .bare
  | .elementAddress out base index => assigning out (view.elementAddress base index)
  | .binary out op left right => assigning out (view.binary op left right out.type)
  | .compare out predicate left right => assigning out (view.compare predicate left right)
  | .convert out cast operand => assigning out (view.convert cast operand out.type)
  | .call out callee args => return .call out callee (← view.values 0 args)

end View

end Pascaline.Machine
