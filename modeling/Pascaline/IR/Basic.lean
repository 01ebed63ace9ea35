/-
The intermediate representation: modules of functions made of blocks, typed slots and typed
registers. A block is straight-line code with at most one terminator at its end, and a branch
names a block of the same function by its index.
-/

import Pascaline.Number.Double
import Pascaline.Types.Native

namespace Pascaline.IR

/-! ### Operands -/

/-- Where the storage behind a slot is. -/
inductive Storage where
  | stack
  | global
  | param
  deriving DecidableEq, Inhabited

def Storage.text : Storage → Bytes
  | .stack => "stack"
  | .global => "global"
  | .param => "param"

/-- The storage behind a symbol: a local of the current function, a variable of the module, or a
parameter. -/
structure Slot where
  id : Nat
  storage : Storage
  type : Ty
  deriving DecidableEq, Inhabited

/-- A slot stands for its address, but a parameter for the argument itself. -/
def Slot.valueType (slot : Slot) : Ty :=
  match slot.storage with
  | .param => slot.type
  | .stack | .global => .ptr slot.type

structure Register where
  id : Nat
  type : Ty
  deriving DecidableEq, Inhabited

/-- What an instruction can take. Zeros are the all-zero value of an aggregate, and data is the
address of a byte string of the module. -/
inductive Operand where
  | int (type : IntType) (value : Int64)
  | float (value : Double)
  | null
  | zeros (type : Ty)
  | data (id : Nat)
  | slot (slot : Slot)
  | reg (register : Register)
  | function (id : Nat) (signature : Signature)
  deriving DecidableEq

namespace Operand

def type : Operand → Ty
  | .int type _ => .int type
  | .float _ => .double
  | .null | .data _ => .bytes
  | .zeros type => type
  | .slot place => place.valueType
  | .reg register => register.type
  | .function _ signature => .ptr signature.type

/-- A boolean constant. -/
def ofBool (value : Bool) : Operand := .int .i1 (if value then 1 else 0)

/-- The default value of a type, for types that have one. -/
def zero? : Ty → Option Operand
  | .int type => some (.int type 0)
  | .float _ => some (.float .zero)
  | .ptr _ => some .null
  | .array element length => some (.zeros (.array element length))
  | _ => none

end Operand

/-! ### Instructions -/

/-- The arithmetic operations that integers and floating point numbers share. -/
inductive Arith where
  | add
  | sub
  | mul
  | div
  | rem
  deriving DecidableEq

/-- A binary operation. A code outside the list has no name and cannot be executed. -/
inductive BinaryOp where
  | int (op : Arith)
  | float (op : Arith)
  | and
  | or
  | xor
  | unnamed (code : Int)
  deriving DecidableEq

/-- The order relations. -/
inductive Relation where
  | eq
  | ne
  | lt
  | le
  | gt
  | ge
  deriving DecidableEq

/-- A comparison of signed integers, or of floating point numbers that also holds if one of them
is a NaN. A code outside the list has no name and never holds. -/
inductive Predicate where
  | signed (relation : Relation)
  | unordered (relation : Relation)
  | unnamed (code : Int)
  deriving DecidableEq

/-- Codes from six on compare floating point numbers. -/
def Predicate.isFloat : Predicate → Bool
  | .signed _ => false
  | .unordered _ => true
  | .unnamed code => 6 ≤ code

/-- A conversion between integer widths. A code outside the list cannot be executed. -/
inductive Cast where
  | trunc
  | sext
  | zext
  | unnamed (code : Int)
  deriving DecidableEq

/-- An instruction inside a block. A call of a function without result writes no register. -/
inductive Instr where
  | alloca (slot : Slot)
  | load (out : Register) (address : Operand)
  | store (address value : Operand)
  | elementAddress (out : Register) (base index : Operand)
  | binary (out : Register) (op : BinaryOp) (left right : Operand)
  | compare (out : Register) (predicate : Predicate) (left right : Operand)
  | convert (out : Register) (cast : Cast) (operand : Operand)
  | call (out : Option Register) (callee : Nat) (args : List Operand)
  deriving DecidableEq

/-- The end of a block. -/
inductive Terminator where
  | branch (target : Nat)
  | branchIf (condition : Operand) (consequent alternative : Nat)
  | ret (value : Option Operand)
  | unreachable
  deriving DecidableEq

/-- The blocks that control may go to. -/
def Terminator.targets : Terminator → List Nat
  | .branch target => [target]
  | .branchIf _ consequent alternative => [consequent, alternative]
  | .ret _ | .unreachable => []

/-! ### Blocks, functions and modules -/

/-- A block. Its label is the stem it was created with, made unique by the number of earlier
blocks of the function with the same stem. -/
structure Block where
  stem : Bytes
  copy : Nat := 0
  code : Array Instr := #[]
  terminator : Option Terminator := none
  deriving DecidableEq

namespace Block

def label (block : Block) : Bytes :=
  if block.copy = 0 then block.stem else block.stem ++ Bytes.ofNat block.copy

def terminated (block : Block) : Bool := block.terminator.isSome

def successors (block : Block) : List Nat :=
  match block.terminator with
  | some terminator => terminator.targets
  | none => []

/-- The number of instructions, the terminator included. -/
def size (block : Block) : Nat := block.code.size + if block.terminated then 1 else 0

end Block

/-- A stack variable of a function. -/
structure Local where
  name : Bytes
  type : Ty
  deriving DecidableEq

/-- A function; an external one is served by the machine and has no blocks of its own. -/
structure Function where
  name : Bytes
  signature : Signature
  params : List Bytes := []
  external : Bool := false
  blocks : Array Block := #[]
  locals : Array Local := #[]
  registers : Nat := 0
  deriving DecidableEq

/-- A variable of a module. -/
structure Variable where
  name : Bytes
  type : Ty
  deriving DecidableEq

/-- A constant byte string of a module. -/
structure Datum where
  name : Bytes
  bytes : Bytes
  deriving DecidableEq

structure Module where
  name : Bytes
  data : Array Datum := #[]
  globals : Array Variable := #[]
  functions : Array Function := #[]
  deriving DecidableEq

namespace Module

/-- The index of the first function with a name. -/
def findFunction? (unit : Module) (name : Bytes) : Option Nat :=
  unit.functions.findIdx? fun function => function.name = name

/-- The names of functions and variables, which must differ from each other. -/
def names (unit : Module) : List Bytes :=
  unit.functions.toList.map Function.name ++ unit.globals.toList.map Variable.name

end Module

end Pascaline.IR
