/-
Building modules. A builder appends instructions at an insertion point, which is the end of a
block of some function. Code that follows a terminator goes to a fresh block that nothing
branches to. Operands are not validated; callers check categories first.
-/

import Pascaline.IR.Basic

namespace Pascaline.IR

/-- The insertion point: the end of a block. -/
structure Cursor where
  function : Nat
  block : Nat
  deriving DecidableEq

/-- A module under construction. Before the first function there is no insertion point. -/
structure Builder where
  unit : Module
  cursor : Option Cursor := none
  deriving DecidableEq

/-- A step of building. -/
abbrev Build := StateM Builder

/-! ### Names -/

/-- The names to try for a function or variable: the name itself, then with numbers behind it. -/
def candidateName (name : Bytes) : Nat → Bytes
  | 0 => name
  | number + 1 => name ++ "." ++ Bytes.ofNat (number + 1)

/-- The first candidate that is not taken. One of the first `taken.length + 1` is free. -/
def freshName (taken : List Bytes) (name : Bytes) : Bytes :=
  let free number := !taken.contains (candidateName name number)
  candidateName name (((List.range (taken.length + 1)).find? free).getD (taken.length + 1))

namespace Builder

/-- A builder of an empty module. -/
def new (name : Bytes) : Builder := { unit := { name } }

def function? (builder : Builder) (id : Nat) : Option Function := builder.unit.functions[id]?

/-- The function at the insertion point. -/
def currentFunction? (builder : Builder) : Option Function := do
  builder.function? (← builder.cursor).function

/-- The block at the insertion point. -/
def currentBlock? (builder : Builder) : Option Block := do
  let cursor ← builder.cursor
  (← builder.function? cursor.function).blocks[cursor.block]?

/-- Whether the block at the insertion point has its terminator. -/
def terminated (builder : Builder) : Bool := builder.currentBlock?.any Block.terminated

def modifyFunction (builder : Builder) (id : Nat) (change : Function → Function) : Builder :=
  { builder with
    unit := { builder.unit with functions := builder.unit.functions.modify id change } }

/-- Changes the function at the insertion point. -/
def modifyCurrentFunction (builder : Builder) (change : Function → Function) : Builder :=
  match builder.cursor with
  | none => builder
  | some cursor => builder.modifyFunction cursor.function change

/-- Changes the block at the insertion point. -/
def modifyCurrentBlock (builder : Builder) (change : Block → Block) : Builder :=
  match builder.cursor with
  | none => builder
  | some cursor =>
    builder.modifyFunction cursor.function fun function =>
      { function with blocks := function.blocks.modify cursor.block change }

end Builder

namespace Function

/-- The next block with a stem, numbered by the blocks with that stem before it. -/
def nextBlock (function : Function) (stem : Bytes) : Block :=
  { stem, copy := function.blocks.countP fun block => block.stem = stem }

def addBlock (function : Function) (stem : Bytes) : Function :=
  { function with blocks := function.blocks.push (function.nextBlock stem) }

end Function

namespace Build

/-- Moves the insertion point to the end of a block. -/
def insertAt (cursor : Cursor) : Build Unit :=
  modify fun builder => { builder with cursor := some cursor }

/-- Whether the block at the insertion point has its terminator. -/
def terminated : Build Bool := return (← get).terminated

/-- Moves the insertion point to another block of the current function. -/
def moveTo (block : Nat) : Build Unit :=
  modify fun builder =>
    { builder with cursor := builder.cursor.map fun cursor => { cursor with block } }

/-! ### Module members -/

/-- The index of an external function, which is added unless there is a function of that name. -/
def declareFunction (name : Bytes) (signature : Signature) : Build Nat :=
  modifyGet fun builder =>
    match builder.unit.findFunction? name with
    | some id => (id, builder)
    | none =>
      let name := freshName builder.unit.names name
      let functions := builder.unit.functions.push { name, signature, external := true }
      (builder.unit.functions.size, { builder with unit := { builder.unit with functions } })

/-- Adds a function with an entry block and moves the insertion point there. A name that is taken
gets a number. -/
def defineFunction (name : Bytes) (signature : Signature) (params : List Bytes) : Build Nat :=
  modifyGet fun builder =>
    let name := freshName builder.unit.names name
    let function := Function.addBlock { name, signature, params } "entry"
    let id := builder.unit.functions.size
    (id, { builder with
      unit := { builder.unit with functions := builder.unit.functions.push function }
      cursor := some ⟨id, 0⟩ })

/-- Adds an empty block to the current function. -/
def newBlock (stem : Bytes) : Build Nat :=
  modifyGet fun builder =>
    match builder.currentFunction? with
    | none => (0, builder)
    | some function =>
      (function.blocks.size, builder.modifyCurrentFunction fun function => function.addBlock stem)

/-- Adds a constant byte string. Every call adds a new one. -/
def string (name bytes : Bytes) : Build Operand :=
  modifyGet fun builder =>
    (.data builder.unit.data.size,
      { builder with unit := { builder.unit with data := builder.unit.data.push { name, bytes } } })

/-- Adds a variable of the module, zero at the start. -/
def globalVariable (name : Bytes) (type : Ty) : Build Slot :=
  modifyGet fun builder =>
    let name := freshName builder.unit.names name
    let globals := builder.unit.globals.push { name, type }
    (⟨builder.unit.globals.size, .global, type⟩,
      { builder with unit := { builder.unit with globals } })

/-! ### Instructions -/

/-- Leaves a block that has its terminator for a fresh one. -/
def leaveTerminated : Build Unit := do
  if ← terminated then
    let block ← newBlock "dead"
    moveTo block

/-- Appends an instruction. -/
def emit (instr : Instr) : Build Unit := do
  leaveTerminated
  modify fun builder =>
    builder.modifyCurrentBlock fun block => { block with code := block.code.push instr }

/-- Ends the block. -/
def finish (terminator : Terminator) : Build Unit := do
  leaveTerminated
  modify fun builder =>
    builder.modifyCurrentBlock fun block => { block with terminator := some terminator }

/-- The next register of the current function. -/
def freshRegister (type : Ty) : Build Register :=
  modifyGet fun builder =>
    let id := (builder.currentFunction?.map Function.registers).getD 0
    (⟨id, type⟩, builder.modifyCurrentFunction fun function =>
      { function with registers := function.registers + 1 })

/-- Reserves a stack variable of the current function. -/
def alloca (name : Bytes) (type : Ty) : Build Slot := do
  let slot ← modifyGet fun builder =>
    let id := (builder.currentFunction?.map fun function => function.locals.size).getD 0
    (Slot.mk id .stack type, builder.modifyCurrentFunction fun function =>
      { function with locals := function.locals.push { name, type } })
  emit (.alloca slot)
  return slot

/-- A parameter of the current function. -/
def argument (index : Nat) : Build Slot := do
  let params := ((← get).currentFunction?.map fun function => function.signature.params).getD []
  return ⟨index, .param, (params[index]?).getD .unknown⟩

def load (address : Operand) : Build Operand := do
  let out ← freshRegister address.type.pointee
  emit (.load out address)
  return .reg out

def store (address value : Operand) : Build Unit := emit (.store address value)

/-- The address of an element of the array at `base`. -/
def elementAddress (base index : Operand) : Build Operand := do
  let out ← freshRegister (.ptr base.type.pointee.element)
  emit (.elementAddress out base index)
  return .reg out

def binary (op : BinaryOp) (left right : Operand) : Build Operand := do
  let out ← freshRegister left.type
  emit (.binary out op left right)
  return .reg out

def compare (predicate : Predicate) (left right : Operand) : Build Operand := do
  let out ← freshRegister .i1
  emit (.compare out predicate left right)
  return .reg out

def convert (cast : Cast) (operand : Operand) (type : Ty) : Build Operand := do
  let out ← freshRegister type
  emit (.convert out cast operand)
  return .reg out

/-- A call; a function without result yields nothing. -/
def call (callee : Nat) (args : List Operand) : Build (Option Operand) := do
  let signature := ((← get).function? callee).map Function.signature
  match signature with
  | some signature =>
    if signature.hasResult then
      let out ← freshRegister signature.result
      emit (.call (some out) callee args)
      return some (.reg out)
    else
      emit (.call none callee args)
      return none
  | none =>
    emit (.call none callee args)
    return none

def branch (target : Nat) : Build Unit := finish (.branch target)

def branchIf (condition : Operand) (consequent alternative : Nat) : Build Unit :=
  finish (.branchIf condition consequent alternative)

/-- Returns from the function, without a value from one that has no result. -/
def ret (value : Option Operand) : Build Unit := finish (.ret value)

def unreachable : Build Unit := finish .unreachable

end Build

end Pascaline.IR
