/-
Limits only cut a run short. Every instruction is counted before it is executed, and a limit looks
at the count alone. So a run under limits is the run without them up to the first count at which
they trap: it has the same end if that comes before, and otherwise it stops there, with the output
that the run without limits has printed until then.
-/

import Pascaline.Proofs.Runs
import Pascaline.Session

namespace Pascaline.Machine

variable {unit : IR.Module} {base limits : Limits} {state : State} {progress : Progress}

/-- The machine of a run, wherever the run is. -/
def Progress.machine : Progress → Machine
  | .running state => state.machine
  | .finished machine _ | .failed machine _ => machine

/-- A run comes to its end. -/
def EndsWith (unit : IR.Module) (limits : Limits) (start : Progress) (ending : Ending) : Prop :=
  ∃ fuel, (start.advance unit limits fuel).ending? = some ending

/-- A run under limits is one under weaker limits, cut short by a trap at a count of steps. If the
longer run ends before that count, both have the same ending. Otherwise the longer run gets to the
count, the shorter one fails there, and from there on the output of the longer run begins with that
of the shorter one. -/
def CutShort (unit : IR.Module) (base limits : Limits) (start : Progress) (count : Nat)
    (trap : Trap) : Prop :=
  ∃ ending, EndsWith unit limits start ending ∧
    ((EndsWith unit base start ending ∧ ending.machine.steps < count) ∨
      ((∀ other, EndsWith unit base start other → count ≤ other.machine.steps) ∧
        (∃ fuel, (start.advance unit base fuel).machine.steps = count) ∧
        ending.machine.steps = count ∧
        (∃ failure, ending.result = .error failure ∧ failure.cause = trap) ∧
        ∀ fuel, count ≤ (start.advance unit base fuel).machine.steps →
          ending.machine.output.toList <+:
            (start.advance unit base fuel).machine.output.toList))

/-! ### Counting and printing -/

/-- What an instruction does to a machine apart from its memories and its input: it counts nothing,
and it only adds to the output. -/
structure Continues (before after : Machine) : Prop where
  steps : after.steps = before.steps
  output : before.output.toList <+: after.output.toList

theorem Continues.refl (machine : Machine) : Continues machine machine :=
  ⟨rfl, List.prefix_refl _⟩

/-- A failure that is passed on leaves functions; what was printed stays printed. -/
theorem unwind_continues (callers : List Caller) (machine : Machine) :
    Continues machine (unwind callers machine) := by
  rw [unwind_eq]
  exact ⟨rfl, List.prefix_refl _⟩

theorem State.fail_continues (failure : MachineFailure) :
    Continues state.machine (state.fail unit failure).machine :=
  unwind_continues state.callers state.machine

theorem Continues.trans {first second third : Machine} (early : Continues first second)
    (late : Continues second third) : Continues first third :=
  ⟨late.steps.trans early.steps, early.output.trans late.output⟩

/-- Output is only ever added at the end. -/
theorem print_continues (machine : Machine) (text : Bytes) :
    Continues machine (machine.print text) := by
  refine ⟨rfl, ?_⟩
  show machine.output.toList <+: (text.foldl Array.push machine.output).toList
  rw [List.foldl_push_eq_append, Array.toList_append]
  exact List.prefix_append _ _

theorem scanCall_continues (machine : Machine) (args : List Value) :
    Continues machine (scanCall machine args).1 := by
  unfold scanCall
  split
  · split
    · exact ⟨rfl, List.prefix_refl _⟩
    · dsimp only
      split
      · split
        · split <;> exact ⟨rfl, List.prefix_refl _⟩
        · exact ⟨rfl, List.prefix_refl _⟩
      · exact ⟨rfl, List.prefix_refl _⟩
  all_goals exact .refl machine

theorem externalCall_continues (name : Bytes) (machine : Machine) (args : List Value) :
    Continues machine (externalCall name machine args).1 := by
  unfold externalCall
  split
  · unfold printCall
    split
    · exact print_continues machine _
    · exact .refl machine
  · split
    · exact scanCall_continues machine args
    · exact .refl machine

theorem State.call_continues (out : Option IR.Register) (callee : Nat) (args : List Value) :
    Continues state.machine (state.call unit out callee args).machine := by
  obtain ⟨machine, frame, callers⟩ := state
  simp only [State.call]
  split
  · exact unwind_continues callers machine
  · rename_i function _
    split
    · have continues := externalCall_continues function.name machine args
      split <;> rename_i called <;> rw [called] at continues
      · exact continues
      · exact continues.trans (unwind_continues callers _)
    · split
      · exact unwind_continues callers machine
      · exact ⟨rfl, List.prefix_refl _⟩

theorem State.return_continues (result : Value) :
    Continues state.machine (state.return result).machine := by
  obtain ⟨machine, frame, callers⟩ := state
  cases callers <;> exact ⟨rfl, List.prefix_refl _⟩

/-- One case for each kind of instruction; only calls reach the output. -/
theorem State.execute_continues (instr : IR.Instr) :
    Continues state.machine (state.execute unit instr).machine := by
  unfold State.execute
  split
  · rename_i effect _
    cases effect with
    | call out callee args => exact state.call_continues out callee args
    | _ => exact ⟨rfl, List.prefix_refl _⟩
  · exact state.fail_continues _

theorem State.terminate_continues (terminator : IR.Terminator) :
    Continues state.machine (state.terminate unit terminator).machine := by
  unfold State.terminate
  cases terminator with
  | branch target => exact .refl _
  | branchIf condition consequent alternative =>
    dsimp only
    split
    · exact .refl _
    · exact state.fail_continues _
  | ret value =>
    cases value with
    | none => exact state.return_continues _
    | some operand =>
      dsimp only
      split
      · exact state.return_continues _
      · exact state.fail_continues _
  | unreachable => exact state.fail_continues _

/-! ### One step under limits -/

/-- What limits do to a step. Falling off a block is not counted and knows no limits. Any other step
is counted; where the limits trap it does nothing more, and where they do not it is the step without
limits, which may print. -/
inductive State.Counted (unit : IR.Module) (state : State) : Prop
  | fallsOff (failure : MachineFailure)
      (falls : ∀ limits,
        state.step unit limits = .failed (unwind state.callers state.machine) failure)
  | counts
      (traps : ∀ limits trap, Limits.trap? limits (state.machine.steps + 1) = some trap →
        ∃ failure, failure.cause = trap ∧
          state.step unit limits = .failed (unwind state.callers state.tick.machine) failure)
      (passes : ∀ limits, Limits.trap? limits (state.machine.steps + 1) = none →
        state.step unit limits = state.step unit {})
      (continues : Continues state.tick.machine (state.step unit {}).machine)

variable {trap : Trap} {ending : Ending} {count : Nat}

/-- The trap is looked for before the instruction, which then has no effect at all. -/
theorem State.step_trapped (something : state.frame.next unit ≠ .nothing)
    (trapped : limits.trap? (state.machine.steps + 1) = some trap) :
    state.step unit limits = state.tick.failHere unit (.bare trap) := by
  have trapped : limits.trap? state.tick.machine.steps = some trap := trapped
  unfold State.step
  cases isNext : state.frame.next unit with
  | nothing => exact absurd isNext something
  | instruction instr => simp only [trapped]
  | terminator terminator => simp only [trapped]

/-- Limits that do not strike at this step might as well not be there. -/
theorem State.step_untrapped (untrapped : limits.trap? (state.machine.steps + 1) = none) :
    state.step unit limits = state.step unit {} := by
  have untrapped : limits.trap? state.tick.machine.steps = none := untrapped
  unfold State.step
  cases state.frame.next unit with
  | nothing => rfl
  | instruction instr => simp only [untrapped, Limits.trap?_none]
  | terminator terminator => simp only [untrapped, Limits.trap?_none]

theorem State.counted (unit : IR.Module) (state : State) : state.Counted unit := by
  have counts (something : state.frame.next unit ≠ .nothing)
      (continues : Continues state.tick.machine (state.step unit {}).machine) :
      state.Counted unit :=
    .counts (fun _ _ trapped => ⟨_, passOn_cause _ _ _ _, step_trapped something trapped⟩)
      (fun _ => step_untrapped) continues
  rcases state.frame.next_cases unit with nothing | ⟨_, _, _, _, ⟨instr, _, isNext⟩ |
    ⟨terminator, _, _, isNext⟩⟩
  · refine .fallsOff (passOn unit state.frame.function state.callers (.bare (.fellOff
      (functionName unit state.frame.function) (blockLabel unit state.frame)))) fun limits => ?_
    unfold State.step
    rw [nothing]
    rfl
  · refine counts (by simp [isNext]) ?_
    rw [step_instruction isNext]
    exact state.tick.execute_continues instr
  · refine counts (by simp [isNext]) ?_
    rw [step_terminator isNext]
    exact state.tick.terminate_continues terminator

/-! ### Whole runs -/

/-- A run never counts back and never takes back what it has printed. -/
structure Follows (before after : Machine) : Prop where
  steps : before.steps ≤ after.steps
  output : before.output.toList <+: after.output.toList

theorem Follows.refl (machine : Machine) : Follows machine machine :=
  ⟨Nat.le_refl _, List.prefix_refl _⟩

/-- Counts and outputs both only grow, so a run can be followed step by step. -/
theorem Follows.trans {first second third : Machine} (early : Follows first second)
    (late : Follows second third) : Follows first third :=
  ⟨Nat.le_trans early.steps late.steps, early.output.trans late.output⟩

theorem Continues.follows {before after : Machine} (continues : Continues before after) :
    Follows before after :=
  ⟨continues.steps.ge, continues.output⟩

theorem tick_follows (state : State) : Follows state.machine state.tick.machine :=
  ⟨Nat.le_succ _, List.prefix_refl _⟩

theorem step_follows (unit : IR.Module) (limits : Limits) (state : State) :
    Follows state.machine (state.step unit limits).machine := by
  cases state.counted unit with
  | fallsOff failure falls =>
    rw [falls]
    exact (unwind_continues state.callers state.machine).follows
  | counts traps passes continues =>
    cases trapped : limits.trap? (state.machine.steps + 1) with
    | some trap =>
      obtain ⟨failure, _, stepped⟩ := traps limits trap trapped
      rw [stepped]
      exact (tick_follows state).trans
        (unwind_continues state.callers state.tick.machine).follows
    | none =>
      rw [passes limits trapped]
      exact (tick_follows state).trans continues.follows

theorem advance_follows (unit : IR.Module) (limits : Limits) (fuel : Nat) (start : Progress) :
    Follows start.machine (start.advance unit limits fuel).machine := by
  induction fuel generalizing start with
  | zero =>
    rw [Progress.advance_zero]
    exact .refl _
  | succ fuel rest =>
    cases start with
    | running state => exact (step_follows unit limits state).trans (rest _)
    | finished machine result => exact .refl _
    | failed machine failure => exact .refl _

theorem ending_machine (ended : progress.ending? = some ending) :
    progress.machine = ending.machine := by
  cases progress with
  | running state => cases ended
  | finished machine result =>
    cases ended
    rfl
  | failed machine failure =>
    cases ended
    rfl

theorem EndsWith.step (ends : EndsWith unit limits (state.step unit limits) ending) :
    EndsWith unit limits (.running state) ending := by
  obtain ⟨fuel, ended⟩ := ends
  exact ⟨fuel + 1, ended⟩

/-- The step that is made has spent one unit of fuel, and what is left is enough for the rest. -/
theorem EndsWith.of_step (ends : EndsWith unit limits (.running state) ending) :
    EndsWith unit limits (state.step unit limits) ending := by
  obtain ⟨fuel, ended⟩ := ends
  cases fuel with
  | zero => cases ended
  | succ fuel => exact ⟨fuel, ended⟩

/-- A run that has ended stays as it is, so it is cut short nowhere. -/
theorem CutShort.of_ending (ended : progress.ending? = some ending)
    (before : progress.machine.steps < count) : CutShort unit base limits progress count trap := by
  have ends (limits : Limits) : EndsWith unit limits progress ending :=
    ⟨0, by rw [Progress.advance_zero]; exact ended⟩
  exact ⟨ending, ends limits, .inl ⟨ends base, by rw [← ending_machine ended]; exact before⟩⟩

/-- The step that both runs make can be put in front. -/
theorem CutShort.step (same : state.step unit base = state.step unit limits)
    (before : state.machine.steps < count)
    (cut : CutShort unit base limits (state.step unit limits) count trap) :
    CutShort unit base limits (.running state) count trap := by
  obtain ⟨ending, ends, cases⟩ := cut
  refine ⟨ending, ends.step, ?_⟩
  rw [← same] at cases
  rcases cases with ⟨endsToo, early⟩ | ⟨late, ⟨fuel, counted⟩, steps, failed, prints⟩
  · exact .inl ⟨endsToo.step, early⟩
  · refine .inr
      ⟨fun other endsToo => late other endsToo.of_step, ⟨fuel + 1, counted⟩, steps, failed,
      fun fuel reached => ?_⟩
    cases fuel with
    | zero => exact absurd reached (Nat.not_le.mpr before)
    | succ fuel => exact prints fuel reached

/-- The step at which the limits trap. The longer run goes on from the same place. -/
theorem CutShort.trapped {failure : MachineFailure}
    (stepped : state.step unit limits = .failed (unwind state.callers state.tick.machine) failure)
    (cause : failure.cause = trap) (last : state.machine.steps + 1 = count)
    (counted : (state.step unit base).machine.steps = count) :
    CutShort unit base limits (.running state) count trap := by
  have unwound := unwind_continues state.callers state.tick.machine
  refine ⟨⟨unwind state.callers state.tick.machine, .error failure⟩, ⟨1, ?_⟩, .inr ⟨?_, ⟨1, ?_⟩,
    unwound.steps.trans last, ⟨failure, rfl, cause⟩, fun fuel _ => ?_⟩⟩
  · rw [Progress.advance_running, Progress.advance_zero, stepped]
    rfl
  · intro other ends
    obtain ⟨fuel, ended⟩ := ends.of_step
    rw [← ending_machine ended, ← counted]
    exact (advance_follows unit base fuel _).steps
  · rw [Progress.advance_running, Progress.advance_zero, counted]
  · rw [unwind_eq]
    exact (advance_follows unit base fuel (.running state)).output

/-- A run is cut short at the first count at which its limits trap, if the weaker limits let all
steps before that count pass. -/
theorem cutShort_of_trap {start : Progress} (before : start.machine.steps < count)
    (basePasses : ∀ steps, 0 < steps → steps < count → base.trap? steps = none)
    (passes : ∀ steps, 0 < steps → steps < count → limits.trap? steps = none)
    (traps : limits.trap? count = some trap) : CutShort unit base limits start count trap := by
  -- Every step is counted, so the distance from the count at which the limits trap shrinks.
  induction distance : count - start.machine.steps generalizing start with
  | zero => omega
  | succ left rest =>
    cases start with
    | finished machine result => exact .of_ending rfl before
    | failed machine failure => exact .of_ending rfl before
    | running state =>
      cases state.counted unit with
      | fallsOff failure falls =>
        refine .step ((falls base).trans (falls limits).symm) before ?_
        rw [falls limits]
        refine .of_ending rfl ?_
        rw [Progress.machine, (unwind_continues state.callers state.machine).steps]
        exact before
      | counts trapped passed continues =>
        have next : state.machine.steps + 1 ≤ count := before
        have counted : (state.step unit {}).machine.steps = state.machine.steps + 1 :=
          continues.steps
        rcases Nat.lt_or_eq_of_le next with earlier | last
        · have stepped := passed limits (passes _ (Nat.succ_pos _) earlier)
          refine .step ((passed base (basePasses _ (Nat.succ_pos _) earlier)).trans stepped.symm)
            before ?_
          rw [stepped]
          refine rest (by rw [counted]; exact earlier) ?_
          rw [counted]
          have distance : count - state.machine.steps = left + 1 := distance
          omega
        · obtain ⟨failure, cause, stepped⟩ := trapped limits trap (by rw [last]; exact traps)
          refine .trapped stepped cause last ?_
          cases baseTrap : base.trap? (state.machine.steps + 1) with
          | none => rw [passed base baseTrap, counted, last]
          | some other =>
            obtain ⟨failure, _, stepped⟩ := trapped base other baseTrap
            rw [stepped, Progress.machine, (unwind_continues _ _).steps]
            exact last

/-! ### Runs of the main function -/

theorem new?_fresh {input : Bytes} {machine : Machine}
    (made : Machine.new? unit input = some machine) : machine.steps = 0 := by
  obtain ⟨memories, _, isMachine⟩ := Option.bind_eq_some_iff.mp made
  cases isMachine
  rfl

/-- Nothing is counted before the first instruction. -/
theorem startMain_steps (unit : IR.Module) (machine : Machine) :
    (startMain unit machine).machine.steps = machine.steps := by
  unfold startMain
  split
  · rfl
  · split
    · rfl
    · unfold start
      split
      · rfl
      · rename_i function _
        split
        · have continues := externalCall_continues function.name machine []
          split <;> rename_i called <;> rw [called] at continues <;> exact continues.steps
        · split <;> rfl

/-- The counts at which a cancelled run under a limit has to stop, where no limit is zero. -/
def stops (limit : Nat) : Set Nat :=
  {count | 0 < count ∧ (1024 ∣ count ∨ (limit ≠ 0 ∧ limit < count))}

/-- Cancellation is noticed at every 1024th step, so there is such a count whatever the limit is. -/
theorem exists_isLeast_stops (limit : Nat) : ∃ count, IsLeast (stops limit) count := by
  classical
  have some : ∃ count, count ∈ stops limit := ⟨1024, by decide, .inl (Nat.dvd_refl _)⟩
  exact ⟨Nat.find some, Nat.find_spec some, fun other isStop => Nat.find_min' some isStop⟩

theorem trap?_limit (limit steps : Nat) :
    Limits.trap? { maximum := limit } steps =
      if limit ≠ 0 ∧ limit < steps then some .stepLimit else none := by
  simp [Limits.trap?]

theorem trap?_cancelled {limit steps : Nat} :
    Limits.trap? { maximum := limit, cancelled := true } steps =
      if limit ≠ 0 ∧ limit < steps then some .stepLimit
      else if 1024 ∣ steps then some .canceled else none := by
  simp [Limits.trap?, Nat.dvd_iff_mod_eq_zero]

/-- A limit on the steps of the main function cuts its run short when it is passed, and nothing
else changes. A run that was cancelled before it began is cut short at the first step whose count
is a multiple of 1024 or passes the limit. -/
theorem startMain_cutShort {input : Bytes} {machine : Machine} (limit : Nat)
    (made : Machine.new? unit input = some machine) :
    (0 < limit → CutShort unit {} { maximum := limit } (startMain unit machine) (limit + 1)
      .stepLimit) ∧
    ∃ count, IsLeast (stops limit) count ∧
      CutShort unit { maximum := limit } { maximum := limit, cancelled := true }
        (startMain unit machine) count
        (if limit ≠ 0 ∧ limit < count then .stepLimit else .canceled) := by
  have fresh : (startMain unit machine).machine.steps = 0 :=
    (startMain_steps unit machine).trans (new?_fresh made)
  refine ⟨fun positive => ?_, ?_⟩
  · refine cutShort_of_trap (by omega) (fun steps _ _ => Limits.trap?_none steps)
      (fun steps _ early => ?_) ?_
    · rw [trap?_limit, if_neg (by omega)]
    · rw [trap?_limit, if_pos (by omega)]
  · obtain ⟨count, isStop, least⟩ := exists_isLeast_stops limit
    have passes (steps : Nat) (positive : 0 < steps) (early : steps < count) :
        ¬1024 ∣ steps ∧ ¬(limit ≠ 0 ∧ limit < steps) := by
      have notStop : steps ∉ stops limit := fun isStop => Nat.not_le.mpr early (least isStop)
      exact not_or.mp fun stopped => notStop ⟨positive, stopped⟩
    refine ⟨count, ⟨isStop, least⟩, cutShort_of_trap (by rw [fresh]; exact isStop.1)
      (fun steps positive early => ?_) (fun steps positive early => ?_) ?_⟩
    · rw [trap?_limit, if_neg (passes steps positive early).2]
    · rw [trap?_cancelled, if_neg (passes steps positive early).2,
        if_neg (passes steps positive early).1]
    · rw [trap?_cancelled]
      by_cases passed : limit ≠ 0 ∧ limit < count
      · rw [if_pos passed, if_pos passed]
      · rw [if_neg passed, if_neg passed, if_pos (isStop.2.resolve_right passed)]

/-- A loop that prints its turns and never ends. -/
def endless : Program :=
  [.declaration 1 "turn" "INTEGER",
    .whileLoop 2 (.boolean 2 true) [.output 3 [.binary 3 "+" (.identifier 3 "turn") .missing]]]

theorem startMain_cutShort_endless :
    ∃ unit machine, compile "endless" endless = .ok unit ∧
      Machine.new? unit [] = some machine ∧
      CutShort unit {} { maximum := (20 : Nat) } (startMain unit machine) 21 .stepLimit ∧
      ∃ count, IsLeast (stops 20) count ∧
        CutShort unit { maximum := (20 : Nat) } { maximum := (20 : Nat), cancelled := true }
          (startMain unit machine) count
          (if 20 ≠ 0 ∧ 20 < count then .stepLimit else .canceled) := by
  have starts : ((compile "endless" endless).toOption.bind fun unit =>
      Machine.new? unit []).isSome = true := by decide +kernel
  cases compiled : compile "endless" endless with
  | error failure =>
    rw [compiled] at starts
    cases starts
  | ok unit =>
    rw [compiled] at starts
    obtain ⟨machine, made⟩ := Option.isSome_iff_exists.mp starts
    have cut := startMain_cutShort 20 made
    exact ⟨unit, machine, rfl, made, cut.1 (by decide), cut.2⟩

end Pascaline.Machine
