/-
Functions that lack a return. Lowering a function fails for that reason exactly if control can come
to the end of its body; a function that lowers has a terminator in every block, and no run that
enters it comes to a block that ends as unreachable.
-/

import Pascaline.Proofs.Construction
import Pascaline.Proofs.Runs

namespace Pascaline

open IR (Build Operand Slot Site)

namespace Machine

/-- Whatever is run in a module with this function: a frame of the function that is running has
something to execute, and that is not the end of a block that counts as unreachable. -/
def GoesOn (function : IR.Function) : Prop :=
  ∀ (unit : IR.Module) (id : Nat), unit.functions[id]? = some function →
    ∀ (machine : Machine) (callee : Nat) (args : List Value) (limits : Limits) (fuel : Nat)
      (state : State), (start unit machine callee args).advance unit limits fuel = .running state →
      state.frame.function = id →
        state.frame.next unit ≠ .nothing ∧ state.frame.next unit ≠ .terminator .unreachable

/-- A run stays inside a function that is complete. -/
theorem goesOn_of_complete {function : IR.Function} (complete : function.Complete) :
    GoesOn function := by
  intro unit id found machine callee args limits fuel state advanced isHere
  have located := Progress.advance_located (fun _ started => start_located started) advanced
    state.frame (List.mem_cons_self ..)
  obtain ⟨_, isFound, path⟩ := located
  rw [isHere, found] at isFound
  cases isFound
  have inside : state.frame.block < function.blocks.size := by
    rcases Relation.ReflTransGen.cases_tail path with same | ⟨_, _, branch⟩
    · rw [same]
      exact complete.entry
    · exact complete.closed _ _ branch
  have blockFound := Array.getElem?_eq_getElem inside
  have ended := complete.ended _ _ blockFound
  rw [← isHere] at found
  rcases state.frame.next_cases unit with nothing | ⟨_, block, isFound, isBlock, rest⟩
  · -- A block with a terminator has something to execute at every index.
    obtain ⟨terminator, isTerminator⟩ := Option.isSome_iff_exists.mp ended
    unfold Frame.next at nothing
    rw [found, Option.bind_some, blockFound] at nothing
    dsimp only at nothing
    split at nothing
    · cases nothing
    · rw [isTerminator] at nothing
      cases nothing
  · rw [found] at isFound
    cases isFound
    rcases rest with ⟨instr, _, isNext⟩ | ⟨terminator, _, isTerminator, isNext⟩
    · rw [isNext]
      exact ⟨nofun, nofun⟩
    · rw [isNext]
      refine ⟨nofun, fun unreachable => ?_⟩
      cases unreachable
      exact complete.avoids _ _ path isBlock isTerminator

end Machine

namespace Lowering

variable {Result Next : Type}

/-- The failure of a function without a return at its end. -/
def missingReturn (name : Bytes) : LoweringFailure :=
  .bare (.ofDiagnostic (.named .missingReturn name))

/-! ### Failures that are not a missing return -/

/-- A step never fails in a certain way. -/
def Avoids (failure : LoweringFailure) (step : Lower Result) : Prop :=
  ∀ before after, step before ≠ .error failure after

variable {failure : LoweringFailure} {step : Lower Result} {next : Result → Lower Next}
  {before after : Workspace} {name : Bytes} {params : List Param}

/-- If the first of two steps does not fail in a certain way, the second one does. -/
theorem Avoids.bind_error (avoids : Avoids failure step)
    (failed : (step >>= next) before = .error failure after) :
    ∃ made middle, step before = .ok made middle ∧ next made middle = .error failure after := by
  simp only [bind, EStateM.bind] at failed
  cases first : step before with
  | ok made middle =>
    rw [first] at failed
    exact ⟨made, middle, rfl, failed⟩
  | error other middle =>
    rw [first] at failed
    cases failed
    exact (avoids _ _ first).elim

/-- If the second of two steps does not fail in a certain way, the first one does. -/
theorem Avoids.error_of_bind (avoids : ∀ made, Avoids failure (next made))
    (failed : (step >>= next) before = .error failure after) :
    step before = .error failure after := by
  simp only [bind, EStateM.bind] at failed
  cases first : step before with
  | ok made middle =>
    rw [first] at failed
    exact (avoids _ _ _ failed).elim
  | error other middle =>
    rw [first] at failed
    cases failed
    rfl

theorem Avoids.pure (failure : LoweringFailure) (made : Result) :
    Avoids failure (pure made : Lower Result) := by
  intro before after failed
  cases failed

theorem Avoids.bind (first : Avoids failure step) (second : ∀ made, Avoids failure (next made)) :
    Avoids failure (step >>= next) := by
  intro before after failed
  obtain ⟨made, middle, _, rest⟩ := first.bind_error failed
  exact second made middle after rest

theorem Avoids.build (failure : LoweringFailure) (step : Build Result) :
    Avoids failure (build step) := by
  intro before after failed
  cases failed

/-- A failure that a stage has passed on is not a bare one. -/
theorem Avoids.within (cause : Cause) (stage : Stage) (step : Lower Result) :
    Avoids (.bare cause) (within stage step) := by
  intro before after failed
  unfold Lowering.within at failed
  split at failed
  · cases failed
  · have same := congrArg Failure.trail (EStateM.Result.error.inj failed).1
    cases same

theorem Avoids.resolveParams (cause : Cause) (params : List Param) :
    Avoids (.bare cause) (resolveParams params) := by
  induction params with
  | nil => exact .pure _ _
  | cons param params rest => exact .bind (.within _ _ _) fun _ => .bind rest fun _ => .pure _ _

theorem Avoids.resolveResult (cause : Cause) (result : Bytes) :
    Avoids (.bare cause) (resolveResult result) := by
  unfold Lowering.resolveResult
  split
  · exact .pure _ _
  · exact .within _ _ _

theorem Avoids.declareParams (cause : Cause) (routine : Routine) (position : Nat)
    (params : List Param) (kinds : List Kind) :
    Avoids (.bare cause) (routine.declareParams position params kinds) := by
  induction params generalizing position kinds with
  | nil => exact .pure _ _
  | cons param params rest =>
    cases kinds with
    | nil => exact .pure _ _
    | cons kind kinds =>
      exact .bind (.within _ _ _) fun _ => .bind (.build _ _) fun _ => rest _ _

theorem Avoids.declareRoutine (name other : Bytes) (kinds : List Kind) (kind : Kind) :
    Avoids (missingReturn name) (declare fun table => table.declareRoutine other kinds kind) := by
  intro before after failed
  obtain ⟨_, _, got, failed⟩ := Avoids.bind_error (fun _ _ failed => by cases failed) failed
  obtain ⟨rfl, rfl⟩ := (get_eq_ok _ _ _).mp got
  cases declared : before.table.declareRoutine other kinds kind with
  | ok table =>
    simp only [declared] at failed
    cases failed
  | error fault =>
    simp only [declared] at failed
    have cause := congrArg Failure.cause (EStateM.Result.error.inj failed).1
    unfold Table.declareRoutine Table.declare at declared
    split at declared
    · cases declared
      cases cause
    · split at declared
      · cases declared
        cases cause
      · cases declared

theorem inScope_error (failed : inScope step before = .error failure after) :
    ∃ inner, step { before with table := before.table.enter } = .error failure inner := by
  unfold inScope at failed
  split at failed
  · cases failed
  · rename_i same
    cases failed
    exact ⟨_, same⟩

theorem aside_error (failed : aside step before = .error failure after) :
    ∃ inner, step before = .error failure inner := by
  unfold aside at failed
  split at failed
  · cases failed
  · rename_i same
    cases failed
    exact ⟨_, same⟩

/-! ### The function that lacks a return -/

/-- A function lacks a return only after its parameters and its body have been lowered. -/
theorem lowerRoutine_missingReturn {result : Bytes} {body : Routine → Lower Unit}
    (failed : lowerRoutine name params result body before = .error (missingReturn name) after) :
    ∃ kinds kind scope outer declared bodied finished,
      BodySteps params kinds ⟨before.builder.unit.functions.size, kind, false⟩
        (body ⟨before.builder.unit.functions.size, kind, false⟩)
        (routineStart name params kinds kind scope outer before) declared bodied ∧
      finishRoutine ⟨before.builder.unit.functions.size, kind, false⟩ name bodied =
        .error (missingReturn name) finished := by
  cases isReserved : isReserved name with
  | true =>
    simp only [lowerRoutine, isReserved, if_true] at failed
    cases congrArg Failure.cause (EStateM.Result.error.inj failed).1
  | false =>
    simp only [lowerRoutine, isReserved, Bool.false_eq_true, if_false] at failed
    obtain ⟨kinds, _, resolved, failed⟩ := (Avoids.resolveParams _ _).bind_error failed
    obtain ⟨_, rfl⟩ := (resolveParams_eq_ok _ _ _ _).mp resolved
    obtain ⟨kind, _, resolved, failed⟩ := (Avoids.resolveResult _ _).bind_error failed
    obtain ⟨_, rfl⟩ := (resolveResult_eq_ok _ _ _ _).mp resolved
    obtain ⟨_, _, declares, failed⟩ := (Avoids.declareRoutine _ _ _ _).bind_error failed
    obtain ⟨table, inTable, rfl⟩ := (declare_eq_ok _ _ _ _).mp declares
    obtain ⟨scope, outer, scopes, fresh, rfl⟩ := Table.declare_eq_ok.mp inTable
    obtain ⟨_, failed⟩ := aside_error failed
    obtain ⟨function, _, defined, failed⟩ := (Avoids.build _ _).bind_error failed
    obtain ⟨isFunction, rfl⟩ := (build_eq_ok _ _ _ _).mp defined
    obtain rfl : before.builder.unit.functions.size = function := isFunction
    obtain ⟨_, _, updates, failed⟩ := Avoids.bind_error (fun _ _ failed => by cases failed) failed
    obtain rfl := (updateSymbol_eq_ok _ _ _ _ _).mp updates
    obtain ⟨_, _, enters, failed⟩ := Avoids.bind_error (fun _ _ failed => by cases failed) failed
    obtain rfl := (enterRoutine_eq_ok _ _ _ _).mp enters
    obtain ⟨finished, failed⟩ := inScope_error failed
    obtain ⟨_, _, current, failed⟩ := Avoids.bind_error (fun _ _ failed => by cases failed) failed
    obtain ⟨rfl, rfl⟩ := (currentRoutine_eq_ok _ _ _).mp current
    obtain ⟨_, declared, params, failed⟩ := (Avoids.declareParams _ _ _ _ _).bind_error failed
    obtain ⟨_, bodied, body, failed⟩ := (Avoids.within _ _ _).bind_error failed
    have updated : Table.update ⟨({ name, shape := .routine kinds, kind } :: scope) :: outer⟩ name
        (fun symbol => { symbol with code := some before.builder.unit.functions.size }) =
          ⟨(routineSymbol name kinds kind before.builder.unit.functions.size :: scope) :: outer⟩ :=
      Table.update_cons rfl fresh _
    rw [updated] at params
    exact ⟨kinds, kind, scope, outer, declared, bodied, finished,
      ⟨params, (within_eq_ok _ _ _ _ _).mp body⟩, failed⟩

/-- The end of a function that fails: control comes there. -/
theorem finishRoutine_completes {routine : Routine} {kinds : List Kind} {kind : Kind}
    {builder : IR.Builder} {through : Bool} {start declared bodied finished : Workspace}
    {atParams atBody : Site}
    (written : BodyWritten routine start (routineEntry name params kinds kind builder) declared
      atParams through bodied atBody)
    (failed : finishRoutine routine name bodied = .error failure finished) : through = true := by
  have holds := written.body.holds
  obtain ⟨_, _, got, failed⟩ := Avoids.bind_error (fun _ _ failed => by cases failed) failed
  obtain ⟨rfl, rfl⟩ := (get_eq_ok _ _ _).mp got
  cases ended : bodied.builder.terminated with
  | true =>
    simp only [ended, if_true] at failed
    cases failed
  | false =>
    simp only [ended, Bool.false_eq_true, if_false, IR.Builder.function?, holds.function,
      Option.map_some, Option.getD_some] at failed
    split at failed
    · cases failed
    · split at failed
      · rename_i isOpen
        rw [holds.terminated] at ended
        by_contra notThrough
        exact isOpen ((written.whole.writes.openBlocks_eq_nil ended).mpr
          (Bool.not_eq_true through ▸ notThrough))
      · cases failed

/-- A function whose parameters, body and inner routines lower without another fault lacks a
return exactly if its body can complete. If it cannot, the function lowers, all its blocks have
their terminators, and in every run it goes on until it returns. -/
theorem lowerFunction_missingReturn_iff {position : Int} {name result : Bytes} {params : List Param}
    {body : List Node} {routine : Routine} {before : Workspace} (hasResult : result ≠ [])
    (noOther : ∀ failure after,
      lowerNode (.function position name params result body) routine before =
        .error failure after → failure = missingReturn name) :
    ((∃ after, lowerNode (.function position name params result body) routine before =
        .error (missingReturn name) after) ↔ Node.completeAll body = true) ∧
      (Node.completeAll body = false → ∃ after function,
        lowerNode (.function position name params result body) routine before = .ok none after ∧
        after.builder.unit.functions[before.builder.unit.functions.size]? = some function ∧
        (∀ block ∈ function.blocks, block.terminated = true) ∧ Machine.GoesOn function) := by
  have fails (after : Workspace)
      (failed : lowerNode (.function position name params result body) routine before =
        .error (missingReturn name) after) : Node.completeAll body = true := by
    rw [lowerNode] at failed
    obtain ⟨kinds, kind, scope, outer, declared, bodied, finished, steps, finish⟩ :=
      lowerRoutine_missingReturn (Avoids.error_of_bind (fun _ => .pure _ _) failed)
    obtain ⟨atParams, atBody, written⟩ := steps.written (lowerNodes_extending _ _)
    exact finishRoutine_completes written finish
  have succeeds (made : Option Operand) (after : Workspace)
      (lowered : lowerNode (.function position name params result body) routine before =
        .ok made after) :
      made = none ∧ Node.completeAll body = false ∧ ∃ function,
        after.builder.unit.functions[before.builder.unit.functions.size]? = some function ∧
        function.Complete := by
    rw [lowerNode] at lowered
    obtain ⟨isRoutine, rfl⟩ := (statement_eq_ok _ _ _ _).mp lowered
    obtain ⟨kinds, kind, scope, outer, declared, bodied, finished, _, _, isKind, _, _,
      steps, rfl⟩ :=
      lowerRoutine_cases isRoutine
    obtain ⟨atParams, atBody, written⟩ := steps.toBodySteps.written (lowerNodes_extending _ _)
    have isFinished := finishRoutine_place steps.finish written.body.holds
    have function : kind ≠ .none := by
      rw [resultKind?, if_neg hasResult] at isKind
      exact Kind.ofName?_ne_none isKind
    refine ⟨rfl, finishRoutine_not_completes written function steps.finish, _, ?_,
      written.complete steps.finish⟩
    rw [isFinished]
    exact (written.body.holds.place _).function
  cases lowered : lowerNode (.function position name params result body) routine before with
  | error failure after =>
    obtain rfl := noOther failure after lowered
    have completes := fails after lowered
    refine ⟨⟨fun _ => completes, fun _ => ⟨after, rfl⟩⟩, fun notThrough => ?_⟩
    rw [completes] at notThrough
    cases notThrough
  | ok made after =>
    obtain ⟨rfl, notThrough, function, found, complete⟩ := succeeds made after lowered
    refine ⟨⟨?_, fun completes => ?_⟩, fun _ =>
      ⟨after, function, rfl, found, fun block member => ?_, Machine.goesOn_of_complete complete⟩⟩
    · rintro ⟨_, same⟩
      cases same
    · rw [completes] at notThrough
      cases notThrough
    · obtain ⟨place, blockFound⟩ := Array.getElem?_of_mem member
      exact complete.ended place block blockFound

/-- A function whose body is one conditional, with a return in the first branch and another
statement in the second. -/
def sign (otherwise : Node) : Node :=
  .function 1 "sign" [⟨"n", "INTEGER"⟩] "INTEGER"
    [.conditional 2 (.comparison 2 "<" (.identifier 2 "n") (.integer 2 0))
      [.return 3 (.integer 3 1)] [otherwise]]

/-- Whether lowering in a new program succeeds or finds only that a return is missing. -/
def isClean (name : Bytes) (node : Node) : Bool :=
  match lowerNode node mainRoutine (programStart "sign") with
  | .ok _ _ => true
  | .error failure _ => failure = missingReturn name

theorem noOther_of_isClean {node : Node} (clean : isClean name node = true)
    (failure : LoweringFailure) (after : Workspace)
    (failed : lowerNode node mainRoutine (programStart "sign") = .error failure after) :
    failure = missingReturn name := by
  rw [isClean, failed] at clean
  exact of_decide_eq_true clean

/-- With a return in both branches the function lowers; without the second one it lacks a
return. -/
theorem missingReturn_sign :
    (∃ after function, lowerNode (sign (.return 4 (.integer 4 0))) mainRoutine
        (programStart "sign") = .ok none after ∧
      after.builder.unit.functions[1]? = some function ∧
      (∀ block ∈ function.blocks, block.terminated = true) ∧ Machine.GoesOn function) ∧
    ∃ after, lowerNode (sign (.assignment 4 "n" (.integer 4 0))) mainRoutine
      (programStart "sign") = .error (missingReturn "sign") after :=
  ⟨(lowerFunction_missingReturn_iff (by decide)
      (noOther_of_isClean (by cbv))).2 (by decide),
    (lowerFunction_missingReturn_iff (by decide)
      (noOther_of_isClean (by cbv))).1.mpr (by decide)⟩

end Lowering

end Pascaline
