/-
Runs of a machine. A step executes one instruction; a run repeats steps until the first function
returns, something traps, or a limit is reached. A limit only cuts a run short.
-/

import Pascaline.Machine.Effect
import Pascaline.Machine.Print
import Pascaline.Machine.Scan

namespace Pascaline.Machine

/-- The number of functions that may be active at once. -/
def maximumDepth : Nat := 10000

/-! ### Failures -/

def functionName (unit : IR.Module) (id : Nat) : Bytes :=
  ((unit.functions[id]?).map IR.Function.name).getD []

def blockLabel (unit : IR.Module) (frame : Frame) : Bytes :=
  ((unit.functions[frame.function]?).bind fun function =>
    (function.blocks[frame.block]?).map IR.Block.label).getD []

/-- The place of the next instruction of a frame. -/
def instructionStage (unit : IR.Module) (frame : Frame) : Stage :=
  .instruction (functionName unit frame.function) (blockLabel unit frame) frame.index

/-- The failure of a function as passed on by its waiting callers. -/
def passOn (unit : IR.Module) : Nat → List Caller → MachineFailure → MachineFailure
  | _, [], failure => failure
  | callee, caller :: callers, failure =>
    passOn unit caller.frame.function callers
      ((failure.within (.call (functionName unit callee))).within
        (instructionStage unit caller.frame))

/-- The machine behind a failure that is passed on: the running function and its waiting callers are
left one after the other. -/
def unwind : List Caller → Machine → Machine
  | [], machine => machine.leave
  | _ :: callers, machine => unwind callers machine.leave

/-- The end of a run by a failure of the running function. -/
def State.fail (unit : IR.Module) (state : State) (failure : MachineFailure) : Progress :=
  .failed (unwind state.callers state.machine)
    (passOn unit state.frame.function state.callers failure)

/-- The end of a run by a trap at the next instruction. -/
def State.failHere (unit : IR.Module) (state : State) (failure : MachineFailure) : Progress :=
  state.fail unit (failure.within (instructionStage unit state.frame))

/-! ### External functions -/

/-- What an external function does: the machine behind it, and its result. -/
def scanCall (machine : Machine) : List Value → Machine × Except Trap Value
  | [.text format, .address memory offset] =>
    match Scan.conversion format machine.input with
    | (input, .error trap) => ({ machine with input }, .error trap)
    | (input, .ok outcome) =>
      let machine := { machine with input }
      match outcome with
      | .read value =>
        match machine.memories[memory]? with
        | some cells =>
          if offset < cells.cells.size then
            let value := value.fit cells.type
            (machine.write memory offset value, .ok (.int outcome.code))
          else (machine, .error .wildAccess)
        | none => (machine, .error .wildAccess)
      | _ => (machine, .ok (.int outcome.code))
  | [.text _, target] => (machine, .error (.scanTargetSort target.sortText))
  | [format, _] => (machine, .error (.scanFormatSort format.sortText))
  | args => (machine, .error (.scanCount args.length))

/-- Prints by a format; the result is the number of bytes. -/
def printCall (machine : Machine) (args : List Value) : Machine × Except Trap Value :=
  match Print.output args with
  | .ok text => (machine.print text, .ok (.int (Int64.ofNat text.length)))
  | .error trap => (machine, .error trap)

/-- A call of an external function by its name. -/
def externalCall (name : Bytes) (machine : Machine) (args : List Value) :
    Machine × Except Trap Value :=
  if name = "printf" then printCall machine args
  else if name = "scanf" then scanCall machine args
  else (machine, .error (.unresolved name))

/-! ### Calls -/

/-- Why a defined function cannot be entered, if there is a reason. -/
def entryTrap? (function : IR.Function) (args : List Value) (depth : Int) : Option Trap :=
  if args.length ≠ function.signature.params.length then
    some (.argumentCount function.name function.signature.params.length args.length)
  else if maximumDepth ≤ depth then some (.callDepth function.name)
  else if function.blocks.size = 0 then some (.noBody function.name)
  else none

/-- Calls a function from the running one. -/
def State.call (unit : IR.Module) (state : State) (out : Option IR.Register) (callee : Nat)
    (args : List Value) : Progress :=
  let ⟨machine, frame, callers⟩ := state
  match unit.functions[callee]? with
  | none => State.failHere unit ⟨machine, frame, callers⟩ (.bare .wildAccess)
  | some function =>
    if function.external then
      match externalCall function.name machine args with
      | (machine, .ok result) =>
        .running ⟨machine, Caller.resume ⟨frame, out⟩ result, callers⟩
      | (machine, .error trap) =>
        State.failHere unit ⟨machine, frame, callers⟩ ⟨[.call function.name], trap⟩
    else match entryTrap? function args machine.depth with
      | some trap => State.failHere unit ⟨machine, frame, callers⟩ ⟨[.call function.name], trap⟩
      | none => .running ⟨machine.enter, .new callee function args, ⟨frame, out⟩ :: callers⟩

/-- Returns from the running function. -/
def State.return (state : State) (result : Value) : Progress :=
  let ⟨machine, _, callers⟩ := state
  match callers with
  | [] => .finished machine.leave result
  | caller :: callers => .running ⟨machine.leave, caller.resume result, callers⟩

/-! ### Steps -/

/-- Lets the effect of an instruction happen. -/
def State.apply (unit : IR.Module) (state : State) (effect : Effect) : Progress :=
  let ⟨machine, frame, callers⟩ := state
  match effect with
  | .assign register value => .running ⟨machine, (frame.assign register value).advance, callers⟩
  | .allocate slot memory =>
    let id := machine.memories.size
    .running ⟨machine.allocate memory, (frame.bind slot id).advance, callers⟩
  | .write memory offset value =>
    .running ⟨machine.write memory offset value, frame.advance, callers⟩
  | .clear memory => .running ⟨machine.clear memory, frame.advance, callers⟩
  | .call out callee args => State.call unit ⟨machine, frame, callers⟩ out callee args

/-- Executes an instruction. -/
def State.execute (unit : IR.Module) (state : State) (instr : IR.Instr) : Progress :=
  match View.effect ⟨unit, state.machine, state.frame⟩ instr with
  | .ok effect => state.apply unit effect
  | .error failure => state.failHere unit failure

/-- Goes where the end of a block says. -/
def State.terminate (unit : IR.Module) (state : State) (terminator : IR.Terminator) : Progress :=
  let view : View := ⟨unit, state.machine, state.frame⟩
  match terminator with
  | .branch target => .running { state with frame := state.frame.jump target }
  | .branchIf condition consequent alternative =>
    match view.integer condition with
    | .ok number =>
      let target := if number = 0 then alternative else consequent
      .running { state with frame := state.frame.jump target }
    | .error trap =>
      state.fail unit ⟨[.condition (functionName unit state.frame.function)
        (blockLabel unit state.frame)], trap⟩
  | .ret none => state.return .nil
  | .ret (some operand) =>
    match view.value operand with
    | .ok result => state.return result
    | .error trap => state.fail unit (.bare trap)
  | .unreachable =>
    state.fail unit (.bare
      (.unreachable (functionName unit state.frame.function) (blockLabel unit state.frame)))

/-- What a frame is about to execute. -/
inductive Next where
  | instruction (instr : IR.Instr)
  | terminator (terminator : IR.Terminator)
  | nothing
  deriving DecidableEq

def Frame.next (unit : IR.Module) (frame : Frame) : Next :=
  match (unit.functions[frame.function]?).bind fun function => function.blocks[frame.block]? with
  | none => .nothing
  | some block =>
    match block.code[frame.index]? with
    | some instr => .instruction instr
    | none =>
      match block.terminator with
      | some terminator => .terminator terminator
      | none => .nothing

/-- The state with one more step counted. -/
def State.tick (state : State) : State :=
  let ⟨machine, frame, callers⟩ := state
  ⟨{ machine with steps := machine.steps + 1 }, frame, callers⟩

/-- One step. Every instruction counts, the end of a block included; falling off a block that has
no end does not. -/
def State.step (unit : IR.Module) (limits : Limits) (state : State) : Progress :=
  match state.frame.next unit with
  | .nothing =>
    state.fail unit (.bare
      (.fellOff (functionName unit state.frame.function) (blockLabel unit state.frame)))
  | next =>
    let state := state.tick
    match limits.trap? state.machine.steps with
    | some trap => state.failHere unit (.bare trap)
    | none =>
      match next with
      | .instruction instr => state.execute unit instr
      | .terminator terminator => state.terminate unit terminator
      | .nothing => .running state

/-- As many steps as the fuel allows. -/
def Progress.advance (unit : IR.Module) (limits : Limits) : Nat → Progress → Progress
  | fuel + 1, .running state => advance unit limits fuel (state.step unit limits)
  | _, progress => progress

/-! ### Runs -/

/-- The start of a call from outside. An external function is served at once. -/
def start (unit : IR.Module) (machine : Machine) (callee : Nat) (args : List Value) : Progress :=
  match unit.functions[callee]? with
  | none => .failed machine (.bare .wildAccess)
  | some function =>
    if function.external then
      match externalCall function.name machine args with
      | (machine, .ok result) => .finished machine result
      | (machine, .error trap) => .failed machine (.bare trap)
    else match entryTrap? function args machine.depth with
      | some trap => .failed machine (.bare trap)
      | none => .running ⟨machine.enter, .new callee function args, []⟩

/-- The start of the main function, which must be defined. -/
def startMain (unit : IR.Module) (machine : Machine) : Progress :=
  match unit.findFunction? "main" with
  | none => .failed machine (.bare .noMain)
  | some id =>
    if (unit.functions[id]?).any IR.Function.external then .failed machine (.bare .noMain)
    else start unit machine id []

/-- The exit code of a result: an integer is its own, anything else is zero. -/
def exitCode : Value → Int64
  | .int code => code
  | _ => 0

/-- The failure of a run of the main function, whose absence is told without a place. -/
def mainFailure (failure : MachineFailure) : MachineFailure :=
  if failure.cause = .noMain then failure else failure.within .main

/-- A run that has ended: what the machine printed, and the result or the failure. -/
structure Ending where
  machine : Machine
  result : Except MachineFailure Value

/-- The end of a run, if it has come to its end. -/
def Progress.ending? : Progress → Option Ending
  | .running _ => none
  | .finished machine result => some ⟨machine, .ok result⟩
  | .failed machine failure => some ⟨machine, .error failure⟩

/-- The exit code of a run of the main function, or its failure. -/
def Ending.mainCode (ending : Ending) : Except MachineFailure Int64 :=
  match ending.result with
  | .ok result => .ok (exitCode result)
  | .error failure => .error (mainFailure failure)

end Pascaline.Machine
