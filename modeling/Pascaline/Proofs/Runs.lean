/-
Runs of a machine. What a step does to the frames of a state is said once; along a whole run every
frame, whether it runs or waits, then stands in a block to which a path leads from the entry of its
function.

The number of steps that a run takes does not matter for what it computes. A run comes to a
progress if it is there after some number of steps.
-/

import Pascaline.Machine.Run
import Pascaline.Proofs.Reachability

namespace Pascaline.Machine

variable {unit : IR.Module} {limits : Limits} {state next : State}

/-! ### Steps one after the other -/

@[simp]
theorem Progress.advance_zero (progress : Progress) :
    progress.advance unit limits 0 = progress := by
  cases progress <;> rfl

@[simp]
theorem Progress.advance_running (fuel : Nat) (state : State) :
    (Progress.running state).advance unit limits (fuel + 1) =
      (state.step unit limits).advance unit limits fuel := rfl

theorem Progress.advance_add (progress : Progress) (first second : Nat) :
    progress.advance unit limits (first + second) =
      (progress.advance unit limits first).advance unit limits second := by
  induction first generalizing progress with
  | zero => rw [Nat.zero_add, advance_zero]
  | succ first step =>
    rw [Nat.succ_add]
    cases progress with
    | running state => exact step _
    | finished machine result => cases second <;> rfl
    | failed machine failure => cases second <;> rfl

/-! ### What a step does to frames -/

/-- The frames of a state: the running one, and those that wait for it. -/
def State.frames (state : State) : List Frame := state.frame :: state.callers.map Caller.frame

/-- Two frames of one function in the same block. -/
def Frame.SameBlock (frame other : Frame) : Prop :=
  other.function = frame.function ∧ other.block = frame.block

/-- What a step does to the frames of a state that goes on running: the running frame goes on in
its block, or branches to another, or waits for a function that it has called, or is given up for
the frame that called it. -/
inductive State.Moves (unit : IR.Module) (state next : State) : Prop
  | within (callers : next.callers = state.callers) (same : state.frame.SameBlock next.frame)
  | jump {function : IR.Function} (callers : next.callers = state.callers)
      (found : unit.functions[state.frame.function]? = some function)
      (same : next.frame.function = state.frame.function)
      (branch : next.frame.block ∈ function.successors state.frame.block)
  | enter {function : IR.Function} {out : Option IR.Register}
      (callers : next.callers = ⟨state.frame, out⟩ :: state.callers)
      (found : unit.functions[next.frame.function]? = some function)
      (block : next.frame.block = 0)
  | leave {caller : Caller} (callers : state.callers = caller :: next.callers)
      (same : caller.frame.SameBlock next.frame)

theorem Caller.resume_sameBlock (caller : Caller) (result : Value) :
    caller.frame.SameBlock (caller.resume result) := by
  unfold Caller.resume
  split <;> exact ⟨rfl, rfl⟩

variable {callee : Nat} {args : List Value} {instr : IR.Instr} {terminator : IR.Terminator}
  {progress : Progress}

theorem State.call_moves {out : Option IR.Register}
    (called : state.call unit out callee args = .running next) : state.Moves unit next := by
  obtain ⟨machine, frame, callers⟩ := state
  simp only [State.call] at called
  split at called
  · cases called
  · rename_i function found
    split at called
    · split at called
      · cases called
        exact .within rfl (Caller.resume_sameBlock ⟨frame, out⟩ _)
      · cases called
    · split at called
      · cases called
      · cases called
        exact .enter rfl found rfl

theorem State.return_moves {result : Value} (returned : state.return result = .running next) :
    state.Moves unit next := by
  obtain ⟨machine, frame, callers⟩ := state
  cases callers with
  | nil => cases returned
  | cons caller callers =>
    cases returned
    exact .leave rfl (caller.resume_sameBlock result)

theorem State.execute_moves (executed : state.execute unit instr = .running next) :
    state.Moves unit next := by
  unfold State.execute at executed
  split at executed
  · rename_i effect _
    cases effect with
    | call out callee args => exact call_moves executed
    | _ =>
      cases executed
      exact .within rfl ⟨rfl, rfl⟩
  · cases executed

theorem State.terminate_moves {function : IR.Function} {block : IR.Block}
    (found : unit.functions[state.frame.function]? = some function)
    (blockFound : function.blocks[state.frame.block]? = some block)
    (ended : block.terminator = some terminator)
    (terminated : state.terminate unit terminator = .running next) : state.Moves unit next := by
  have branch {target : Nat} (listed : target ∈ terminator.targets) :
      target ∈ function.successors state.frame.block :=
    IR.Function.mem_successors.mpr ⟨block, terminator, blockFound, ended, listed⟩
  unfold State.terminate at terminated
  cases terminator with
  | branch target =>
    cases terminated
    exact .jump rfl found rfl (branch (List.mem_singleton.mpr rfl))
  | branchIf condition consequent alternative =>
    dsimp only at terminated
    split at terminated
    · cases terminated
      refine .jump rfl found rfl (branch ?_)
      show ite _ _ _ ∈ [consequent, alternative]
      split <;> simp
    · cases terminated
  | ret value =>
    cases value with
    | none => exact return_moves terminated
    | some operand =>
      dsimp only at terminated
      split at terminated
      · exact return_moves terminated
      · cases terminated
  | unreachable => cases terminated

/-- What a frame executes stands in its block. -/
theorem Frame.next_cases (unit : IR.Module) (frame : Frame) :
    frame.next unit = .nothing ∨
      ∃ function block, unit.functions[frame.function]? = some function ∧
        function.blocks[frame.block]? = some block ∧
        ((∃ instr, block.code[frame.index]? = some instr ∧
            frame.next unit = .instruction instr) ∨
          ∃ terminator, block.code[frame.index]? = none ∧ block.terminator = some terminator ∧
            frame.next unit = .terminator terminator) := by
  unfold Frame.next
  cases located : (unit.functions[frame.function]?).bind fun function =>
      function.blocks[frame.block]? with
  | none => exact .inl rfl
  | some block =>
    obtain ⟨function, found, blockFound⟩ := Option.bind_eq_some_iff.mp located
    dsimp only
    cases code : block.code[frame.index]? with
    | some instr => exact .inr ⟨function, block, found, blockFound, .inl ⟨instr, code, rfl⟩⟩
    | none =>
      cases ended : block.terminator with
      | none => exact .inl rfl
      | some terminator =>
        exact .inr ⟨function, block, found, blockFound, .inr ⟨terminator, code, ended, rfl⟩⟩

theorem State.step_moves (stepped : state.step unit limits = .running next) :
    state.Moves unit next := by
  have moves (moved : state.tick.Moves unit next) : state.Moves unit next := by
    cases moved with
    | within callers same => exact .within callers same
    | jump callers found same branch => exact .jump callers found same branch
    | enter callers found block => exact .enter callers found block
    | leave callers same => exact .leave callers same
  unfold State.step at stepped
  rcases state.frame.next_cases unit with nothing | ⟨function, block, found, blockFound, rest⟩
  · rw [nothing] at stepped
    cases stepped
  · rcases rest with ⟨instr, _, isNext⟩ | ⟨terminator, _, ended, isNext⟩
    · rw [isNext] at stepped
      dsimp only at stepped
      split at stepped
      · cases stepped
      · exact moves (execute_moves stepped)
    · rw [isNext] at stepped
      dsimp only at stepped
      split at stepped
      · cases stepped
      · exact moves (terminate_moves found blockFound ended stepped)

/-! ### Where frames stand -/

/-- The frame stands in a block to which a path leads from the entry of its function. -/
def Frame.Located (unit : IR.Module) (frame : Frame) : Prop :=
  ∃ function, unit.functions[frame.function]? = some function ∧ function.Reaches 0 frame.block

theorem Frame.Located.sameBlock {frame other : Frame} (located : frame.Located unit)
    (same : frame.SameBlock other) : other.Located unit := by
  obtain ⟨function, found, path⟩ := located
  exact ⟨function, by rw [same.1]; exact found, by rw [same.2]; exact path⟩

/-- A step keeps all frames where they belong. -/
theorem State.Moves.located (moves : state.Moves unit next)
    (located : ∀ frame ∈ state.frames, frame.Located unit) :
    ∀ frame ∈ next.frames, frame.Located unit := by
  have running := located state.frame (List.mem_cons_self ..)
  have waiting : ∀ caller ∈ state.callers, caller.frame.Located unit := fun caller member =>
    located caller.frame (List.mem_cons_of_mem _ (List.mem_map_of_mem member))
  -- It is enough to look at the new frame and at each new caller.
  have both (isLocated : next.frame.Located unit)
      (callers : ∀ caller ∈ next.callers, caller.frame.Located unit) :
      ∀ frame ∈ next.frames, frame.Located unit := by
    intro frame member
    rcases List.mem_cons.mp member with rfl | member
    · exact isLocated
    · obtain ⟨caller, listed, rfl⟩ := List.mem_map.mp member
      exact callers caller listed
  cases moves with
  | within callers same =>
    exact both (running.sameBlock same) (by rw [callers]; exact waiting)
  | jump callers found same branch =>
    obtain ⟨_, isFound, path⟩ := running
    rw [found] at isFound
    cases isFound
    exact both ⟨_, by rw [same]; exact found, path.tail branch⟩
      (by rw [callers]; exact waiting)
  | enter callers found block =>
    refine both ⟨_, found, by rw [block]; exact .refl⟩ fun caller member => ?_
    rw [callers] at member
    rcases List.mem_cons.mp member with rfl | member
    · exact running
    · exact waiting caller member
  | leave callers same =>
    refine both ((waiting _ (by rw [callers]; exact List.mem_cons_self ..)).sameBlock same)
      fun caller member => waiting caller (by rw [callers]; exact List.mem_cons_of_mem _ member)

/-- Along a run all frames stay where they belong. -/
theorem Progress.advance_located {fuel : Nat}
    (located : ∀ state, progress = .running state → ∀ frame ∈ state.frames, frame.Located unit)
    (advanced : progress.advance unit limits fuel = .running next) :
    ∀ frame ∈ next.frames, frame.Located unit := by
  induction fuel generalizing progress with
  | zero => exact located next (by rw [← advanced, advance_zero])
  | succ fuel step =>
    cases progress with
    | running state =>
      refine step (fun later stepped => ?_) advanced
      exact (State.step_moves stepped).located (located state rfl)
    | finished machine result => cases advanced
    | failed machine failure => cases advanced

/-- A call from outside starts at the entry of a function. -/
theorem start_located {machine : Machine}
    (started : start unit machine callee args = .running state) :
    ∀ frame ∈ state.frames, frame.Located unit := by
  unfold start at started
  split at started
  · cases started
  · rename_i function found
    split at started
    · split at started <;> cases started
    · split at started
      · cases started
      · cases started
        intro frame member
        obtain rfl := List.mem_singleton.mp member
        exact ⟨function, found, .refl⟩

/-! ### Where a run comes to -/

theorem Progress.running_of_advance {steps : Nat}
    (advanced : progress.advance unit limits steps = .running next) :
    ∃ before, progress = .running before := by
  cases progress with
  | running state => exact ⟨state, rfl⟩
  | finished machine result => cases steps <;> cases advanced
  | failed machine failure => cases steps <;> cases advanced

theorem Limits.trap?_none (steps : Nat) : Limits.trap? {} steps = none := by
  simp [Limits.trap?]

theorem State.step_instruction (isNext : state.frame.next unit = .instruction instr) :
    state.step unit {} = state.tick.execute unit instr := by
  simp only [State.step, isNext, Limits.trap?_none]

theorem State.step_terminator (isNext : state.frame.next unit = .terminator terminator) :
    state.step unit {} = state.tick.terminate unit terminator := by
  simp only [State.step, isNext, Limits.trap?_none]

theorem View.values_eq {view : View} {args : List IR.Operand} {values : List Value}
    (read : List.Forall₂ (fun arg value => view.value arg = .ok value) args values)
    (position : Nat) : view.values position args = .ok values := by
  induction read generalizing position with
  | nil => rfl
  | cons first _ rest =>
    rw [View.values, first]
    simp only [rest]
    rfl

/-- The cause of a failure is not changed on its way out. -/
theorem passOn_cause (unit : IR.Module) (callee : Nat) (callers : List Caller)
    (failure : MachineFailure) : (passOn unit callee callers failure).cause = failure.cause := by
  induction callers generalizing callee failure with
  | nil => rfl
  | cons caller callers rest => rw [passOn, rest]; rfl

/-- A failure changes nothing on the machine but the number of active functions. -/
theorem unwind_eq (callers : List Caller) (machine : Machine) :
    unwind callers machine =
      { machine with depth := machine.depth - (callers.length + 1 : Nat) } := by
  induction callers generalizing machine with
  | nil => rfl
  | cons caller callers rest =>
    have counted : machine.depth - 1 - (callers.length + 1 : Nat) =
        machine.depth - (callers.length + 1 + 1 : Nat) := by omega
    rw [unwind, rest, Machine.leave, List.length_cons, ← counted]

theorem unwind_memories (callers : List Caller) (machine : Machine) :
    (unwind callers machine).memories = machine.memories := by
  rw [unwind_eq]

end Pascaline.Machine
