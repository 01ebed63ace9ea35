/-
Calls are isolated. A function that is called cannot tell where its caller keeps anything: it is
given no address, finds none in memory, and gets none as a result. So while it runs, the frames that
wait for it and the memories of their variables stay as they are, and when it has returned the
caller differs in one register, the one for the result.
-/

import Pascaline.Proofs.Containment

namespace Pascaline

open IR (Operand Slot)

namespace Machine

/-- The state of a run that goes on. -/
def Progress.state? : Progress → Option State
  | .running state => some state
  | .finished .. | .failed .. => none

theorem Progress.eq_running {progress : Progress} {state : State}
    (isState : progress.state? = some state) : progress = .running state := by
  cases progress with
  | running other =>
    cases isState
    rfl
  | finished | failed => cases isState

/-- The number of functions that are active in a run. -/
def Progress.active (progress : Progress) : Nat :=
  (progress.state?.map fun state => state.frames.length).getD 0

/-- The call at which a state stands returns to a later one: the run goes on with more active
functions until there are, for the first time, as many as before. -/
def State.Returns (unit : IR.Module) (limits : Limits) (state later : State) : Prop :=
  ∃ fuel, (state.step unit limits).advance unit limits fuel = .running later ∧
    later.frames.length = state.frames.length ∧
    ∀ earlier < fuel,
      state.frames.length < ((state.step unit limits).advance unit limits earlier).active

/-- A frame behind a call: it is as it was at the call, except for the register of the call. -/
structure Frame.Resumes (out : Option IR.Register) (frame later : Frame) : Prop where
  function : later.function = frame.function
  block : later.block = frame.block
  index : later.index = frame.index + 1
  locals : later.locals = frame.locals
  args : later.args = frame.args
  registers : ∀ id : Nat, (∀ register, out = some register → register.id ≠ id) →
    later.registers[id]? = frame.registers[id]?

section Calls

variable {unit : IR.Module} {limits : Limits} {state later : State}

theorem Caller.resume_resumes (caller : Caller) (result : Value) :
    caller.frame.Resumes caller.out (caller.resume result) := by
  obtain ⟨frame, out⟩ := caller
  cases out with
  | none => exact ⟨rfl, rfl, rfl, rfl, rfl, fun _ _ => rfl⟩
  | some out =>
    refine ⟨rfl, rfl, rfl, rfl, rfl, fun id other => ?_⟩
    show (frame.registers.setIfInBounds out.id (result.fit out.type))[id]? = _
    rw [Array.getElem?_setIfInBounds, if_neg (other out rfl)]

/-- Calling a function that is defined in the module starts it in a frame of its own, from which
nothing that the callers have can be reached. -/
theorem State.Contained.enters {base : Nat} {outer : List Caller} {out : Option IR.Register}
    {callee : Nat} {args : List Operand} {called : IR.Function} {next : State}
    (guarded : unit.Guarded) (contained : state.Contained unit base outer)
    (isNext : state.frame.next unit = .instruction (.call out callee args))
    (found : unit.functions[callee]? = some called) (defined : called.external = false)
    (stepped : state.step unit limits = .running next) :
    state.tick.machine.enter = next.machine ∧
      next.Contained unit state.machine.memories.size (⟨state.frame, out⟩ :: state.callers) := by
  obtain ⟨function, frame⟩ := contained.tick.frame
  obtain ⟨block, here, there⟩ := frame.next_instruction isNext
  unfold State.step at stepped
  rw [isNext] at stepped
  dsimp only at stepped
  split at stepped
  · cases stepped
  · unfold State.execute at stepped
    split at stepped
    · rename_i effect done
      have allowed := frame.allows contained.tick.machine here there done
      cases read : View.values ⟨unit, state.tick.machine, state.tick.frame⟩ 0 args with
      | error failure =>
        simp only [View.effect, read] at done
        cases done
      | ok values =>
        simp only [View.effect, read] at done
        cases done
        obtain ⟨_, _, plain⟩ := allowed
        have plain := plain called found defined
        simp only [State.apply, State.call, found, defined, Bool.false_eq_true, if_false] at stepped
        split at stepped
        · cases stepped
        · have spares : state.tick.machine.Spares unit base state.tick.machine.enter :=
            .of_memories contained.tick.machine rfl
          cases stepped
          exact ⟨rfl, spares.contained,
            ⟨called, .new guarded found defined plain (Nat.le_refl _)⟩, [], rfl, by simp⟩
    · cases stepped

/-- A run inside a call comes back to the caller with a result, and spares all memories that were
there when the call began. -/
theorem State.Contained.comesBack {base fuel : Nat} {caller : Caller} {rest : List Caller}
    (guarded : unit.Guarded) (contained : state.Contained unit base (caller :: rest))
    (advanced : (Progress.running state).advance unit limits fuel = .running later)
    (back : later.frames.length = rest.length + 1)
    (inside : ∀ earlier < fuel,
      rest.length + 1 < ((Progress.running state).advance unit limits earlier).active) :
    state.machine.Spares unit base later.machine ∧ later.callers = rest ∧
      ∃ result, later.frame = caller.resume result := by
  induction fuel generalizing state with
  | zero =>
    rw [Progress.advance_zero] at advanced
    cases advanced
    obtain ⟨inner, isInner, _⟩ := contained.callers
    have more : later.frames.length = inner.length + (rest.length + 1) + 1 := by
      rw [State.frames, List.length_cons, List.length_map, isInner, List.length_append,
        List.length_cons]
    omega
  | succ fuel step =>
    rw [Progress.advance_running] at advanced
    have leads := contained.step guarded limits
    have insideNext : ∀ earlier < fuel,
        rest.length + 1 < ((state.step unit limits).advance unit limits earlier).active :=
      fun earlier fewer => inside (earlier + 1) (Nat.succ_lt_succ fewer)
    generalize state.step unit limits = progress at advanced leads insideNext
    cases leads with
    | on spares next =>
      obtain ⟨sparesToo, callers, isResult⟩ := step next advanced insideNext
      exact ⟨spares.trans sparesToo, callers, isResult⟩
    | @back machine other others result spares isOuter callers plain =>
      cases isOuter
      -- The caller has its result, so the run has not gone on from there.
      cases fuel with
      | zero =>
        cases advanced
        exact ⟨spares, rfl, result, rfl⟩
      | succ fuel =>
        have more := insideNext 0 (Nat.succ_pos fuel)
        rw [Progress.advance_zero] at more
        simp [Progress.active, Progress.state?, State.frames] at more
    | finished | failed =>
      obtain ⟨_, isRunning⟩ := Progress.running_of_advance advanced
      cases isRunning

end Calls

end Machine

namespace Lowering

open Machine in
/-- Calls are isolated. At every state that a run of a compiled program comes to, no memory holds an
address, no function has been passed one and none is returned. When a call of a function of the
program returns, all frames that wait are as they were, the caller has changed in the register of
the call only, and so has no memory apart from those of the variables of the module. In particular
the variables of all active functions are as they were. -/
theorem compile_isolatesCalls {name : Bytes} {program : Program} {unit : IR.Module}
    (compiled : compile name program = .ok unit) {limits : Limits} {callee : Nat} {state : State}
    (reachable : Progress.Reachable unit limits callee (.running state)) :
    (∀ memory ∈ state.machine.memories, ∀ value ∈ memory.cells, value.isPlain = true) ∧
    (∀ frame ∈ state.frames, ∀ value ∈ frame.args, value.isPlain = true) ∧
    (∀ operand result, state.frame.next unit = .terminator (.ret (some operand)) →
      View.value ⟨unit, state.machine, state.frame⟩ operand = .ok result →
        result.isPlain = true) ∧
    ∀ (out : Option IR.Register) (called : Nat) (function : IR.Function) (args : List Operand)
      (later : State), state.frame.next unit = .instruction (.call out called args) →
      unit.functions[called]? = some function → function.external = false →
      state.Returns unit limits later →
        later.callers = state.callers ∧ state.frame.Resumes out later.frame ∧
        (∀ frame ∈ state.frames, ∀ memory, some memory ∈ frame.locals →
          unit.globals.size ≤ memory ∧ memory < state.machine.memories.size) ∧
        ∀ memory, unit.globals.size ≤ memory → memory < state.machine.memories.size →
          later.machine.memories[memory]? = state.machine.memories[memory]? := by
  have guarded := compile_guarded compiled
  have contained : state.Contained unit unit.globals.size [] := reachable.contained guarded
  refine ⟨fun memory member value listed => ?_, fun frame member value listed => ?_,
    fun operand result isNext read => ?_,
    fun out called function args later isNext found defined returns => ?_⟩
  · obtain ⟨id, there⟩ := Array.getElem?_of_mem member
    obtain ⟨offset, held⟩ := Array.getElem?_of_mem listed
    exact (contained.machine.memories id memory there offset value held).1
  · obtain ⟨place, there⟩ := Array.getElem?_of_mem listed
    obtain ⟨function, frameContained⟩ := contained.frames member
    exact frameContained.args place value there
  · obtain ⟨function, frame⟩ := contained.frame
    obtain ⟨block, here, ended⟩ := frame.next_terminator isNext
    obtain ⟨marks, code⟩ := frame.code
    exact frame.value_plain ((code.guarded.ending _ block _ here ended).values operand
      (List.mem_singleton.mpr rfl)) read
  · obtain ⟨fuel, advanced, back, inside⟩ := returns
    obtain ⟨next, stepped⟩ := Progress.running_of_advance advanced
    rw [stepped] at advanced inside
    obtain ⟨isMachine, entered⟩ := contained.enters guarded isNext found defined stepped
    have waiting : state.frames.length = state.callers.length + 1 := by simp [State.frames]
    rw [waiting] at back inside
    obtain ⟨spares, callers, result, isResult⟩ := entered.comesBack guarded advanced back inside
    refine ⟨callers, ?_, fun frame member memory bound => ?_, fun memory above below => ?_⟩
    · rw [isResult]
      exact Caller.resume_resumes ⟨state.frame, out⟩ result
    · obtain ⟨owner, frameContained⟩ := contained.frames member
      obtain ⟨slot, bound⟩ := Array.getElem?_of_mem bound
      obtain ⟨above, _, cells, _, there, _⟩ := frameContained.locals slot memory bound
      exact ⟨above, (Array.getElem?_eq_some_iff.mp there).1⟩
    · rw [spares.spared memory, ← isMachine]
      · rfl
      · rintro (isGlobal | isNew) <;> omega

/-- A function that adds up a number and all below it, by calling itself. -/
def addsUp : Program :=
  [.function 1 "total" [⟨"number", "INTEGER"⟩] "INTEGER"
    [.declaration 2 "rest" "INTEGER",
    .conditional 3 (.comparison 3 ">" (.identifier 3 "number") (.integer 3 0))
      [.assignment 4 "rest"
        (.call 4 "total" [.binary 4 "-" (.identifier 4 "number") (.integer 4 1)])] [],
    .return 5 (.binary 5 "+" (.identifier 5 "number") (.identifier 5 "rest"))]]

open Machine in
theorem compile_isolatesCalls_addsUp :
    ∃ unit state out args function later, compile "sums" addsUp = .ok unit ∧
      Progress.Reachable unit {} 1 (.running state) ∧
      state.frame.next unit = .instruction (.call out 1 args) ∧
      unit.functions[1]? = some function ∧ function.external = false ∧
      state.Returns unit {} later ∧ state.machine.memories.size < later.machine.memories.size ∧
      later.callers = state.callers ∧ state.frame.Resumes out later.frame := by
  have checks : ((compile "sums" addsUp).toOption.any fun unit =>
      (Machine.new? unit []).any fun machine =>
      (((start unit machine 1 [.int 2]).advance unit {} 9).state?).any fun state =>
      (((state.step unit {}).advance unit {} 28).state?).any fun later =>
      (unit.functions[1]?).any fun function =>
        function.external = false ∧
        state.frame.next unit = .instruction (.call (some ⟨4, .i32⟩) 1 [.reg ⟨3, .i32⟩]) ∧
        later.frames.length = state.frames.length ∧
        state.machine.memories.size < later.machine.memories.size ∧
        ∀ earlier < 28,
          state.frames.length < ((state.step unit {}).advance unit {} earlier).active) = true := by
    decide +kernel
  obtain ⟨unit, compiled, checks⟩ := compile_any checks
  obtain ⟨machine, made, checks⟩ := (Option.any_eq_true ..).mp checks
  obtain ⟨state, isState, checks⟩ := (Option.any_eq_true ..).mp checks
  obtain ⟨later, isLater, checks⟩ := (Option.any_eq_true ..).mp checks
  obtain ⟨function, found, checks⟩ := (Option.any_eq_true ..).mp checks
  obtain ⟨defined, isNext, back, more, inside⟩ := of_decide_eq_true checks
  have reachable : Progress.Reachable unit {} 1 (.running state) := by
    rw [← Progress.eq_running isState]
    exact .call (.made made) (by simp [Value.isPlain]) 9
  have returns : state.Returns unit {} later :=
    ⟨28, Progress.eq_running isLater, back, inside⟩
  obtain ⟨_, _, _, calls⟩ := compile_isolatesCalls compiled reachable
  obtain ⟨callers, resumes, _⟩ := calls _ 1 function _ later isNext found defined returns
  exact ⟨unit, state, _, _, function, later, compiled, reachable, isNext, found, defined, returns,
    more, callers, resumes⟩

end Lowering

end Pascaline
