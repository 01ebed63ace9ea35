/-
The state of a machine. Memories are numbered in the order of their creation, the variables of
the module first, and are never given back. A running function has a frame; the frames of its
callers wait at their call instructions.
-/

import Pascaline.IR.Basic
import Pascaline.Machine.Memory
import Pascaline.Machine.Trap

namespace Pascaline.Machine

/-- The memories, what is left of the input, what has been printed, the number of instructions
executed so far, and how many functions are active. -/
structure Machine where
  memories : Array Memory
  input : Bytes
  output : Array UInt8 := #[]
  steps : Nat := 0
  depth : Int := 0
  deriving DecidableEq

namespace Machine

/-- A machine for a module. It does not exist if some variable is an array of an impossible
length. -/
def new? (unit : IR.Module) (input : Bytes) : Option Machine := do
  let memories ← unit.globals.mapM fun global => Memory.new? global.type
  return { memories, input }

/-- The value in a cell, if there is such a cell. -/
def cell? (machine : Machine) (memory offset : Nat) : Option Value := do
  (← machine.memories[memory]?).cells[offset]?

def write (machine : Machine) (memory offset : Nat) (value : Value) : Machine :=
  { machine with memories := machine.memories.modify memory fun cells => cells.write offset value }

def clear (machine : Machine) (memory : Nat) : Machine :=
  { machine with memories := machine.memories.modify memory Memory.clear }

/-- The machine with one more memory, whose number is that of the memories before. -/
def allocate (machine : Machine) (memory : Memory) : Machine :=
  { machine with memories := machine.memories.push memory }

def print (machine : Machine) (text : Bytes) : Machine :=
  { machine with output := text.foldl Array.push machine.output }

/-- The machine with one more active function. -/
def enter (machine : Machine) : Machine := { machine with depth := machine.depth + 1 }

/-- The machine with one active function less. -/
def leave (machine : Machine) : Machine := { machine with depth := machine.depth - 1 }

/-- The machine with everything printed so far taken away. -/
def withoutOutput (machine : Machine) : Machine := { machine with output := #[] }

end Machine

/-- A running function: its registers, the memories of its stack variables, its arguments, and
the block and index of its next instruction. -/
structure Frame where
  function : Nat
  registers : Array Value
  locals : Array (Option Nat)
  args : Array Value
  block : Nat := 0
  index : Nat := 0
  deriving DecidableEq

namespace Frame

/-- The frame of a function at its start. -/
def new (id : Nat) (function : IR.Function) (args : List Value) : Frame where
  function := id
  registers := Array.replicate function.registers .nil
  locals := Array.replicate function.locals.size none
  args := args.toArray

def assign (frame : Frame) (register : Nat) (value : Value) : Frame :=
  { frame with registers := frame.registers.setIfInBounds register value }

def bind (frame : Frame) (slot memory : Nat) : Frame :=
  { frame with locals := frame.locals.setIfInBounds slot (some memory) }

/-- The frame at the next instruction of its block. -/
def advance (frame : Frame) : Frame := { frame with index := frame.index + 1 }

/-- The frame at the start of a block. -/
def jump (frame : Frame) (block : Nat) : Frame := { frame with block, index := 0 }

end Frame

/-- A frame that waits for the function it has called, with the register for the result. -/
structure Caller where
  frame : Frame
  out : Option IR.Register
  deriving DecidableEq

/-- Takes the result of the call and goes on behind it. -/
def Caller.resume (caller : Caller) (result : Value) : Frame :=
  match caller.out with
  | some out => (caller.frame.assign out.id (result.fit out.type)).advance
  | none => caller.frame.advance

/-- A machine that is running a function, with the waiting callers, the innermost first. -/
structure State where
  machine : Machine
  frame : Frame
  callers : List Caller
  deriving DecidableEq

/-- How far a run has come. -/
inductive Progress where
  | running (state : State)
  | finished (machine : Machine) (result : Value)
  | failed (machine : Machine) (failure : MachineFailure)
  deriving DecidableEq

/-- The limits of a run: the largest number of steps, zero for no limit, and whether the run has
been cancelled from outside. -/
structure Limits where
  maximum : Int := 0
  cancelled : Bool := false
  deriving DecidableEq

/-- The trap that ends a run at a step, if there is one. Cancellation is noticed at every 1024th
step. -/
def Limits.trap? (limits : Limits) (steps : Nat) : Option Trap :=
  if limits.maximum ≠ 0 ∧ limits.maximum < steps then some .stepLimit
  else if steps % 1024 = 0 ∧ limits.cancelled then some .canceled
  else none

end Pascaline.Machine
