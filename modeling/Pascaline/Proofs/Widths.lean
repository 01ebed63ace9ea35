/-
Integers never leave their width, and a machine stays usable. Whatever the functions of a compiled
program are called with from outside, and whether the calls succeed or fail, every integer in a
register, in a variable of the module or in a variable of an active function is in the range of the
type that is declared there, and so is every integer that a function of the program returns. Behind
a call no function is active any more, and the next call starts as the first one did.
-/

import Pascaline.Proofs.Isolation
import Pascaline.Proofs.Storage

namespace Pascaline

open IR (Operand)

/-! ### Ranges -/

/-- The numbers of an integer type. -/
structure IntType.Holds (type : IntType) (number : Int64) : Prop where
  i32 : type.bits = 32 → -2 ^ 31 ≤ number.toInt ∧ number.toInt < 2 ^ 31
  i8 : type.bits = 8 → -2 ^ 7 ≤ number.toInt ∧ number.toInt < 2 ^ 7
  i1 : type.bits = 1 → number = 0 ∨ number = 1

/-- A number from which a type cuts nothing off is one of its numbers. -/
theorem IntType.holds_of_wrap {type : IntType} {number : Int64}
    (same : wrapToWidth type.bits number = number) : type.Holds number := by
  refine ⟨fun bits => ?_, fun bits => ?_, fun bits => ?_⟩
  · have same : number.toInt32.toInt64 = number := by simpa [wrapToWidth, bits] using same
    rw [← same, Int32.toInt_toInt64]
    exact ⟨Int32.le_toInt _, Int32.toInt_lt _⟩
  · have same : number.toInt8.toInt64 = number := by simpa [wrapToWidth, bits] using same
    rw [← same, Int8.toInt_toInt64]
    exact ⟨Int8.le_toInt _, Int8.toInt_lt _⟩
  · have same : number &&& 1 = number := by simpa [wrapToWidth, bits] using same
    have bit : number.toBitVec &&& 1#64 = 0#64 ∨ number.toBitVec &&& 1#64 = 1#64 := by
      rw [BitVec.and_one_eq_setWidth_ofBool_getLsbD]
      cases number.toBitVec.getLsbD 0 <;> simp
    rw [← same]
    exact bit.imp Int64.toBitVec_inj.mp Int64.toBitVec_inj.mp

/-- The type that is declared for the cells of a variable. -/
def Ty.cell : Ty → Ty
  | .array element _ => element
  | type => type

namespace Machine

/-- A value that is in the range of a type, if both are integers. -/
def Value.InRange (value : Value) (type : Ty) : Prop :=
  ∀ (number : Int64) (width : IntType), value = .int number → type = .int width →
    width.Holds number

theorem Value.Fits.inRange {value : Value} {type : Ty} (fits : value.Fits type) :
    value.InRange type := by
  rintro number width rfl rfl
  exact IntType.holds_of_wrap (Value.int.inj fits)

/-- The cells of a variable are in the range of what is declared for them. -/
def Memory.InRange (memory : Memory) (type : Ty) : Prop :=
  ∀ value ∈ memory.cells, value.InRange type.cell

theorem Memory.Contained.inRange {memory : Memory} {type : Ty} (contained : memory.Contained)
    (isFor : memory.IsFor type) : memory.InRange type := by
  have cell : memory.type = type.cell := by cases type <;> exact isFor.1
  intro value member
  obtain ⟨offset, there⟩ := Array.getElem?_of_mem member
  rw [← cell]
  exact (contained offset value there).2.inRange

/-- All variables of the module are in range. -/
def Machine.InRange (unit : IR.Module) (machine : Machine) : Prop :=
  ∀ (place : Nat) (global : IR.Variable), unit.globals[place]? = some global →
    ∃ memory, machine.memories[place]? = some memory ∧ memory.InRange global.type

/-- All registers and variables of an active function are in range. -/
structure Frame.InRange (unit : IR.Module) (machine : Machine) (function : IR.Function)
    (frame : Frame) : Prop where
  found : unit.functions[frame.function]? = some function
  registers : ∀ (instr : IR.Instr) (out : IR.Register) (value : Value),
    function.Contains instr → instr.out? = some out → frame.registers[out.id]? = some value →
      value.InRange out.type
  locals : ∀ slot id : Nat, frame.locals[slot]? = some (some id) →
    ∃ place memory, function.locals[slot]? = some place ∧ machine.memories[id]? = some memory ∧
      memory.InRange place.type

section Ranges

variable {unit : IR.Module} {function : IR.Function} {base : Nat} {machine : Machine}
  {frame : Frame}

theorem Machine.Contained.inRange (contained : machine.Contained unit) : machine.InRange unit := by
  intro place global found
  obtain ⟨memory, there, isFor⟩ := contained.globals place global found
  exact ⟨memory, there, (contained.memories place memory there).inRange isFor⟩

theorem MayHold.inRange {instr : IR.Instr} {out : IR.Register} {value : Value}
    (holds : MayHold unit base machine instr value) (isOut : instr.out? = some out) :
    value.InRange out.type := by
  cases instr with
  | elementAddress =>
    rcases holds with rfl | ⟨_, _, _, rfl, _⟩
    · exact nofun
    · exact nofun
  | _ => exact (holds.2 out isOut).inRange

theorem Frame.Contained.inRange (contained : frame.Contained unit function base machine)
    (machineContained : machine.Contained unit) : frame.InRange unit machine function where
  found := contained.found
  registers instr out value contains isOut held :=
    (contained.registers instr out value contains isOut held).inRange isOut
  locals slot id bound := by
    obtain ⟨_, place, memory, placed, there, isFor⟩ := contained.locals slot id bound
    exact ⟨place, memory, placed, there, (machineContained.memories id memory there).inRange isFor⟩

/-! ### Results -/

/-- What a function returns has not been cut to the type of its result on the way. It is a register
or a constant all the same, and so it is in range. -/
theorem Frame.Contained.result_inRange {ledger : List Symbol} {operand : Operand} {result : Value}
    (tidy : unit.Tidy ledger) (contained : frame.Contained unit function base machine)
    (isNext : frame.next unit = .terminator (.ret (some operand)))
    (read : View.value ⟨unit, machine, frame⟩ operand = .ok result) :
    result.InRange function.signature.result := by
  obtain ⟨block, here, ended⟩ := contained.next_terminator isNext
  obtain ⟨marks, code⟩ := contained.code
  have settled := (tidy _ function contained.found _ block here).returns operand ended
  have role := (code.guarded.ending _ block _ here ended).values operand
    (List.mem_singleton.mpr rfl)
  have typed : some operand.type = function.signature.result? :=
    ((code.sound.coded _ block here).ending _ ended).typed
  have isType : function.signature.result = operand.type := by
    unfold Signature.result? at typed
    split at typed
    · exact (Option.some.inj typed).symm
    · cases typed
  rw [isType]
  cases role with
  | @int type value =>
    cases read
    exact (show (Value.int value).Fits (.int type) from congrArg Value.int settled.2).inRange
  | float | null =>
    cases read
    exact nofun
  | data id =>
    obtain ⟨datum, _, rfl⟩ := Option.map_eq_some_iff.mp (View.eq_some_of_present read)
    exact nofun
  | param storage => exact settled.elim
  | @register register instr contains isValue scalar =>
    have isOut : instr.out? = some register := by
      cases instr <;> first | exact isValue | cases isValue
    exact (contained.registers instr register result contains isOut
      (View.eq_some_of_present read)).inRange isOut

end Ranges

/-! ### Calls from outside -/

/-- The functions that are active, the running one first. -/
def State.functions (state : State) : List Nat := state.frames.map Frame.function

section Calls

variable {unit : IR.Module} {limits : Limits} {state next : State} {callee : Nat}
  {progress : Progress} {machine : Machine}

/-- A step leaves the function active that was called from outside. -/
theorem State.Moves.getLast?_functions (moves : state.Moves unit next) :
    next.functions.getLast? = state.functions.getLast? := by
  cases moves with
  | within callers same => simp only [State.functions, State.frames, callers, List.map_cons, same.1]
  | jump callers _ same => simp only [State.functions, State.frames, callers, List.map_cons, same]
  | enter callers => simp [State.functions, State.frames, callers]
  | leave callers same => simp [State.functions, State.frames, callers, same.1]

/-- An instruction does not end a run with a result. -/
theorem State.execute_ne_finished (state : State) (instr : IR.Instr) (machine : Machine)
    (result : Value) : state.execute unit instr ≠ .finished machine result := by
  unfold State.execute
  split
  · rename_i effect _
    cases effect with
    | call out callee args =>
      unfold State.apply State.call
      dsimp only
      repeat' split
      all_goals exact nofun
    | _ => exact nofun
  · exact nofun

/-- A run ends with what the function returns that was called from outside. -/
theorem State.step_finished {result : Value}
    (stepped : state.step unit limits = .finished machine result) :
    state.callers = [] ∧ (result = .nil ∨ ∃ operand,
      state.frame.next unit = .terminator (.ret (some operand)) ∧
      View.value ⟨unit, state.tick.machine, state.tick.frame⟩ operand = .ok result) := by
  have returned {value : Value} (returns : state.tick.return value = .finished machine result) :
      state.callers = [] ∧ value = result := by
    obtain ⟨_, _, callers⟩ := state
    cases callers with
    | nil =>
      cases returns
      exact ⟨rfl, rfl⟩
    | cons caller callers => cases returns
  unfold State.step at stepped
  cases isNext : state.frame.next unit with
  | nothing =>
    rw [isNext] at stepped
    cases stepped
  | instruction instr =>
    rw [isNext] at stepped
    dsimp only at stepped
    split at stepped
    · cases stepped
    · exact absurd stepped (state.tick.execute_ne_finished instr machine result)
  | terminator terminator =>
    rw [isNext] at stepped
    dsimp only at stepped
    split at stepped
    · cases stepped
    · unfold State.terminate at stepped
      cases terminator with
      | branch | unreachable => cases stepped
      | branchIf condition consequent alternative =>
        dsimp only at stepped
        split at stepped <;> cases stepped
      | ret value =>
        cases value with
        | none =>
          obtain ⟨callers, rfl⟩ := returned stepped
          exact ⟨callers, .inl rfl⟩
        | some operand =>
          dsimp only at stepped
          split at stepped
          · rename_i value read
            obtain ⟨callers, rfl⟩ := returned stepped
            exact ⟨callers, .inr ⟨operand, rfl, read⟩⟩
          · cases stepped

/-- How far a call of a function has come whose result is in range. -/
def Progress.Answers (unit : IR.Module) (callee : Nat) : Progress → Prop
  | .running state => state.Contained unit unit.globals.size [] ∧
      state.functions.getLast? = some callee
  | .finished _ result => ∀ function, unit.functions[callee]? = some function →
      function.external = false → result.InRange function.signature.result
  | .failed .. => True

theorem State.answers_step {ledger : List Symbol} (guarded : unit.Guarded)
    (tidy : unit.Tidy ledger) (contained : state.Contained unit unit.globals.size [])
    (outermost : state.functions.getLast? = some callee) :
    (state.step unit limits).Answers unit callee := by
  have leads := contained.step guarded limits
  cases stepped : state.step unit limits with
  | running next =>
    rw [stepped] at leads
    exact ⟨leads.contained rfl rfl, (step_moves stepped).getLast?_functions.trans outermost⟩
  | finished machine result =>
    intro function found _
    obtain ⟨callers, rfl | ⟨operand, isNext, read⟩⟩ := step_finished stepped
    · exact nofun
    · obtain ⟨running, frame⟩ := contained.tick.frame
      rw [State.functions, State.frames, callers] at outermost
      cases outermost
      cases frame.found.symm.trans found
      exact frame.result_inRange tidy isNext read
  | failed machine failure => trivial

theorem Progress.Answers.advance {ledger : List Symbol} (guarded : unit.Guarded)
    (tidy : unit.Tidy ledger) (answers : progress.Answers unit callee) (limits : Limits)
    (fuel : Nat) : (progress.advance unit limits fuel).Answers unit callee := by
  induction fuel generalizing progress with
  | zero =>
    rw [advance_zero]
    exact answers
  | succ fuel rest =>
    cases progress with
    | running state => exact rest (State.answers_step guarded tidy answers.1 answers.2)
    | finished machine result => exact answers
    | failed machine failure => exact answers

theorem start_answers {args : List Value} (guarded : unit.Guarded)
    (contained : machine.Contained unit) (plain : ∀ value ∈ args, value.isPlain = true) :
    (start unit machine callee args).Answers unit callee := by
  unfold start
  split
  · trivial
  · rename_i function found
    split
    · rename_i isExternal
      split
      · intro other otherFound defined
        cases found.symm.trans otherFound
        rw [isExternal] at defined
        cases defined
      · trivial
    · rename_i defined
      split
      · trivial
      · have entered : machine.Spares unit unit.globals.size machine.enter :=
          .of_memories contained rfl
        exact ⟨⟨entered.contained, ⟨function, .new guarded found (eq_false_of_ne_true defined) plain
          contained.globals_le⟩, [], rfl, by simp⟩, rfl⟩

theorem Progress.Reachable.answers {ledger : List Symbol} (guarded : unit.Guarded)
    (tidy : unit.Tidy ledger) (reachable : progress.Reachable unit limits callee) :
    progress.Answers unit callee := by
  obtain ⟨inUse, plain, fuel⟩ := reachable
  exact (start_answers guarded (inUse.contained guarded) plain).advance guarded tidy limits fuel

/-! ### Counting the active functions -/

/-- The counter of the machine agrees with the functions that are active. -/
def Progress.Counts (progress : Progress) : Prop := progress.machine.depth = progress.active

theorem State.counts_iff : (Progress.running state).Counts ↔
    state.machine.depth = (state.callers.length + 1 : Nat) := by
  simp [Progress.Counts, Progress.machine, Progress.active, Progress.state?, State.frames]

/-- A function of the outside world is not counted. -/
theorem externalCall_depth (name : Bytes) (machine : Machine) (args : List Value) :
    (externalCall name machine args).1.depth = machine.depth := by
  unfold externalCall
  split
  · unfold printCall
    split <;> rfl
  · split
    · unfold scanCall
      split
      · split
        · rfl
        · dsimp only
          split
          · split
            · split <;> rfl
            · rfl
          · rfl
      all_goals rfl
    · rfl

namespace State

/-- A failure ends all active functions. -/
theorem counts_fail (counts : (Progress.running state).Counts) (failure : MachineFailure) :
    (state.fail unit failure).Counts := by
  rw [counts_iff] at counts
  rw [State.fail, unwind_eq, Progress.Counts, Progress.machine, counts, sub_self]
  rfl

theorem counts_return (counts : (Progress.running state).Counts) (result : Value) :
    (state.return result).Counts := by
  obtain ⟨machine, frame, callers⟩ := state
  rw [counts_iff] at counts
  cases callers with
  | nil =>
    show machine.depth - 1 = 0
    rw [counts]
    rfl
  | cons caller callers =>
    have counted : machine.depth = (callers.length + 1 + 1 : Nat) := counts
    rw [State.return, counts_iff]
    show machine.depth - 1 = (callers.length + 1 : Nat)
    omega

theorem counts_call (counts : (Progress.running state).Counts) (out : Option IR.Register)
    (callee : Nat) (args : List Value) : (state.call unit out callee args).Counts := by
  obtain ⟨machine, frame, callers⟩ := state
  unfold State.call
  dsimp only
  split
  · exact counts_fail counts _
  · rename_i function found
    split
    · have same := externalCall_depth function.name machine args
      split
      · rename_i later result called
        rw [called] at same
        rw [counts_iff] at counts ⊢
        exact same.trans counts
      · rename_i later trap called
        rw [called] at same
        have stands : (Progress.running ⟨later, frame, callers⟩).Counts := by
          rw [counts_iff] at counts ⊢
          exact same.trans counts
        exact counts_fail stands _
    · split
      · exact counts_fail counts _
      · rw [counts_iff] at counts ⊢
        show machine.depth + 1 = _
        rw [counts]
        rfl

/-- A step enters one function, leaves one, leaves all of them, or stays where it is. The counter
follows. -/
theorem counts_step (counts : (Progress.running state).Counts) :
    (state.step unit limits).Counts := by
  have ticked : (Progress.running state.tick).Counts := counts
  have executed (instr : IR.Instr) : (state.tick.execute unit instr).Counts := by
    unfold State.execute
    split
    · rename_i effect _
      cases effect with
      | call out callee args => exact counts_call ticked out callee args
      | _ => exact ticked
    · exact counts_fail ticked _
  have terminated (terminator : IR.Terminator) : (state.tick.terminate unit terminator).Counts := by
    unfold State.terminate
    cases terminator with
    | branch target => exact ticked
    | branchIf condition consequent alternative =>
      dsimp only
      split
      · exact ticked
      · exact counts_fail ticked _
    | ret value =>
      cases value with
      | none => exact counts_return ticked _
      | some operand =>
        dsimp only
        split
        · exact counts_return ticked _
        · exact counts_fail ticked _
    | unreachable => exact counts_fail ticked _
  unfold State.step
  cases state.frame.next unit with
  | nothing => exact counts_fail counts _
  | instruction instr =>
    dsimp only
    split
    · exact counts_fail ticked _
    · exact executed instr
  | terminator terminator =>
    dsimp only
    split
    · exact counts_fail ticked _
    · exact terminated terminator

end State

theorem Progress.Counts.advance (counts : progress.Counts) (limits : Limits) (fuel : Nat) :
    (progress.advance unit limits fuel).Counts := by
  induction fuel generalizing progress with
  | zero =>
    rw [advance_zero]
    exact counts
  | succ fuel rest =>
    cases progress with
    | running state => exact rest (State.counts_step counts)
    | finished machine result => exact counts
    | failed machine failure => exact counts

/-- The first function of a call is counted, unless it is not entered. -/
theorem start_counts {args : List Value} (idle : machine.depth = 0) :
    (start unit machine callee args).Counts := by
  unfold start
  split
  · exact idle
  · rename_i function found
    split
    · have same := externalCall_depth function.name machine args
      split <;> rename_i called <;> rw [called] at same <;> exact same.trans idle
    · split
      · exact idle
      · rw [State.counts_iff]
        show machine.depth + 1 = _
        rw [idle]
        rfl

/-- Behind a call no function is active. -/
theorem Progress.Counts.ended {ending : Ending} (counts : progress.Counts)
    (ended : progress.ending? = some ending) : ending.machine.depth = 0 := by
  rw [← ending_machine ended]
  cases progress with
  | running state => cases ended
  | finished machine result => exact counts
  | failed machine failure => exact counts

/-- Between calls the counter of a machine is back at zero, whether the calls have returned or
failed. -/
theorem InUse.depth (inUse : InUse unit machine) : machine.depth = 0 := by
  induction inUse with
  | made made =>
    obtain ⟨memories, _, isMachine⟩ := Option.bind_eq_some_iff.mp made
    cases isMachine
    rfl
  | called _ _ ends idle =>
    obtain ⟨fuel, ended⟩ := ends
    exact ((start_counts idle).advance _ fuel).ended ended

theorem Progress.Reachable.counts (reachable : progress.Reachable unit limits callee) :
    progress.Counts := by
  obtain ⟨inUse, plain, fuel⟩ := reachable
  exact (start_counts inUse.depth).advance limits fuel

/-- A function of the module can be called on every machine without active functions, as soon as it
is given as many arguments as it has parameters. -/
theorem start_running {function : IR.Function} {args : List Value} (guarded : unit.Guarded)
    (found : unit.functions[callee]? = some function) (defined : function.external = false)
    (count : args.length = function.signature.params.length) (idle : machine.depth = 0) :
    start unit machine callee args = .running ⟨machine.enter, .new callee function args, []⟩ := by
  obtain ⟨marks, _, code⟩ := guarded.defined callee function found defined
  have entry : function.blocks.size ≠ 0 := Nat.ne_of_gt code.complete.entry
  have enters : entryTrap? function args machine.depth = none := by
    simp [entryTrap?, count, entry, maximumDepth, idle]
  simp only [start, found, defined, enters, Bool.false_eq_true, if_false]

end Calls

end Machine

namespace Lowering

open Machine in
/-- Integers never leave their width, and a machine stays usable. On a machine on which functions
have been called in whatever way, all variables of the module are in range, the counter of active
functions is at zero and every function of the program can be called. At every state that a call
comes to, also all registers and variables of the active functions are in range, what the running
function returns is, and the counter tells how many functions are active. The result of a call of a
function of the program is in range. Behind a call, whether it has returned or failed, the counter
is back at zero, and its machine is one on which functions have been called. -/
theorem compile_keepsWidths {name : Bytes} {program : Program} {unit : IR.Module}
    (compiled : compile name program = .ok unit) :
    (∀ machine, InUse unit machine → machine.InRange unit ∧ machine.depth = 0 ∧
      ∀ (callee : Nat) (function : IR.Function) (args : List Value),
        unit.functions[callee]? = some function → function.external = false →
        args.length = function.signature.params.length →
          start unit machine callee args =
            .running ⟨machine.enter, .new callee function args, []⟩) ∧
    ∀ (limits : Limits) (callee : Nat) (progress : Progress),
      progress.Reachable unit limits callee →
        progress.machine.InRange unit ∧ progress.machine.depth = progress.active ∧
        (∀ state, progress = .running state →
          (∀ frame ∈ state.frames, ∃ function, frame.InRange unit state.machine function) ∧
          ∀ (function : IR.Function) (operand : Operand) (result : Value),
            unit.functions[state.frame.function]? = some function →
            state.frame.next unit = .terminator (.ret (some operand)) →
            View.value ⟨unit, state.machine, state.frame⟩ operand = .ok result →
              result.InRange function.signature.result) ∧
        (∀ (machine : Machine) (result : Value) (function : IR.Function),
          progress = .finished machine result → unit.functions[callee]? = some function →
          function.external = false → result.InRange function.signature.result) ∧
        ∀ ending, progress.ending? = some ending →
          ending.machine.depth = 0 ∧ InUse unit ending.machine := by
  have guarded := compile_guarded compiled
  obtain ⟨ledger, _, tidy, _⟩ := compile_stored compiled
  refine ⟨fun machine inUse => ⟨(inUse.contained guarded).inRange, inUse.depth,
    fun callee function args found defined count =>
      start_running guarded found defined count inUse.depth⟩,
    fun limits callee progress reachable => ?_⟩
  have contained := reachable.contained guarded
  have counts := reachable.counts
  refine ⟨(Progress.machine_contained contained).inRange, counts, ?_, ?_, ?_⟩
  · rintro state rfl
    refine ⟨fun frame member => ?_, fun function operand result found isNext read => ?_⟩
    · obtain ⟨function, frameContained⟩ := State.Contained.frames contained member
      exact ⟨function, frameContained.inRange (State.Contained.machine contained)⟩
    · obtain ⟨running, frame⟩ := State.Contained.frame contained
      cases frame.found.symm.trans found
      exact frame.result_inRange tidy isNext read
  · rintro machine result function rfl
    exact reachable.answers guarded tidy function
  · intro ending ended
    obtain ⟨inUse, plain, fuel⟩ := reachable
    exact ⟨counts.ended ended, .called inUse plain ⟨fuel, ended⟩⟩

/-- A function that returns its argument. -/
def echo : Program :=
  [.function 1 "echo" [⟨"number", "INTEGER"⟩] "INTEGER" [.return 2 (.identifier 2 "number")]]

open Machine in
theorem compile_keepsWidths_echo :
    ∃ unit machine later, compile "echo" echo = .ok unit ∧ InUse unit machine ∧
      (start unit machine 1 [.int 1099511627783]).advance unit {} 9 = .finished later (.int 7) ∧
      IntType.i32.Holds 7 ∧ later.depth = 0 ∧ InUse unit later := by
  have checks : ((compile "echo" echo).toOption.any fun unit =>
      (Machine.new? unit []).any fun machine =>
      (unit.functions[1]?).any fun function =>
        function.external = false ∧ function.signature.result = .i32 ∧
        (start unit machine 1 [.int 1099511627783]).advance unit {} 9 = .finished
          ((start unit machine 1 [.int 1099511627783]).advance unit {} 9).machine (.int 7)) =
            true := by
    decide +kernel
  obtain ⟨unit, compiled, checks⟩ := compile_any checks
  obtain ⟨machine, made, checks⟩ := (Option.any_eq_true ..).mp checks
  obtain ⟨function, found, checks⟩ := (Option.any_eq_true ..).mp checks
  obtain ⟨defined, isResult, finished⟩ := of_decide_eq_true checks
  generalize Progress.machine _ = later at finished
  have inUse : InUse unit machine := .made made
  have reachable : Progress.Reachable unit {} 1 (.finished later (.int 7)) := by
    rw [← finished]
    exact .call inUse (by simp [Value.isPlain]) 9
  obtain ⟨_, _, _, inRange, between⟩ := (compile_keepsWidths compiled).2 _ _ _ reachable
  have holds := inRange later (.int 7) function rfl found defined
  rw [isResult] at holds
  exact ⟨unit, machine, later, compiled, inUse, finished, holds _ _ rfl rfl,
    between ⟨later, .ok (.int 7)⟩ rfl⟩

end Lowering

end Pascaline
