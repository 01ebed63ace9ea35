/-
Storage is stable and never shared. Over the whole lowering of a program, every variable, array and
parameter that is declared gets exactly one slot of its type: storage of the module if it is
declared in the outermost scope of the main routine, and of the function whose body declares it
otherwise.
Every later use of its name in its scope yields this slot, and no two variables have the same
storage, whatever their names are.
-/

import Pascaline.Proofs.Recording

namespace Pascaline

open IR (Build Builder Operand)

namespace Lowering

/-! ### Programs -/

/-- Lowering a program starts with an empty ledger in the outermost scope of the main routine. -/
theorem programStart_kept (name : Bytes) : Kept [] mainRoutine true (programStart name) := by
  have stored : Stored [] (Builder.new name).unit := by
    refine ⟨nofun, fun owner => ?_⟩
    cases owner <;> rfl
  have tidy : (Builder.new name).unit.Tidy [] := fun place function found => by
    simp [Builder.new] at found
  refine ⟨Build.defineFunction_upholds stored tidy _ _ _, List.cons_ne_nil _ _, ?_,
    by simp [mainRoutine, programStart, Table.enter, Table.empty, Table.depth]⟩
  intro scope member symbol here
  rw [List.mem_singleton.mp member] at here
  cases here

theorem lowerNodes_records (nodes : List Node) (routine : Routine) (outermost : Bool) :
    Records routine outermost (Node.planAll outermost nodes) IR.Unasked
      (lowerNodes nodes routine) :=
  .lowerNodes fun node _ => lowerNode_records node routine outermost

/-- The steps of a program from the start on record what the program declares. -/
theorem lowerProgram_recorded (name : Bytes) (program : Program) :
    ∃ steps : Lower Unit,
      lowerProgram program (.fresh name) =
        inScope steps { programStart name with table := .empty } ∧
      Recorded mainRoutine true [] (programStart name) (Node.planAll true program) IR.Unasked
        (steps (programStart name)) := by
  refine ⟨_, rfl, ?_⟩
  have records : Records mainRoutine true (Node.planAll true program) IR.Unasked (do
      lowerNodes program mainRoutine
      if !(← get).builder.terminated then build (Build.ret (some (.int .i32 0)))) :=
    .beforeAll (lowerNodes_records program mainRoutine true) fun _ _ _ => .andThen .get fun _ _ _ =>
      .ite (fun _ => .finish ⟨.i32, by decide⟩) fun _ => .pure fun _ => trivial
  exact records (programStart_kept name)

/-- The ledger of a compiled module lists what the program declares, and its code keeps to it. -/
theorem compile_stored {name : Bytes} {program : Program} {unit : IR.Module}
    (compiled : compile name program = .ok unit) :
    ∃ ledger, Stored ledger unit ∧ unit.Tidy ledger ∧
      Fulfils 0 1 unit.functions.size (Node.planAll true program) ledger := by
  obtain ⟨_, workspace, lowered, rfl⟩ := compile_eq_ok.mp compiled
  obtain ⟨steps, isSteps, recorded⟩ := lowerProgram_recorded name program
  rw [isSteps, inScope_eq_ok] at lowered
  obtain ⟨inner, ran, rfl⟩ := lowered
  have ran : steps (programStart name) = .ok () inner := ran
  rw [ran] at recorded
  cases recorded with
  | ok kept gains fulfils => exact ⟨_, kept.builder.stored, kept.builder.tidy, fulfils⟩

/-! ### Stable storage -/

/-- What lowering a program leads to: a ledger of all that it declares, or of all that it had
declared when it failed, with storage apart from each other. -/
inductive Apart (plan : List Plan) : EStateM.Result LoweringFailure Workspace Unit → Prop
  | ok {made : Unit} {after : Workspace} {ledger : List Symbol}
      (stored : Stored ledger after.builder.unit)
      (distinct : ledger.Pairwise fun symbol other => symbol.place? ≠ other.place?)
      (fulfils : Fulfils 0 1 after.builder.unit.functions.size plan ledger) :
      Apart plan (.ok made after)
  | error {failure : LoweringFailure} {after : Workspace} {ledger : List Symbol}
      (stored : Stored ledger after.builder.unit)
      (distinct : ledger.Pairwise fun symbol other => symbol.place? ≠ other.place?)
      (begins : Begins 0 1 after.builder.unit.functions.size plan ledger) :
      Apart plan (.error failure after)

theorem lowerProgram_apart (name : Bytes) (program : Program) :
    Apart (Node.planAll true program) (lowerProgram program (.fresh name)) := by
  obtain ⟨steps, isSteps, recorded⟩ := lowerProgram_recorded name program
  rw [isSteps]
  simp only [inScope]
  change Recorded _ _ _ _ _ _
    (steps { programStart name with table := Table.empty.enter }) at recorded
  generalize steps _ = ran at recorded ⊢
  cases recorded with
  | ok kept gains fulfils => exact .ok kept.builder.stored kept.builder.stored.distinct fulfils
  | error stored begins => exact .error stored stored.distinct begins

/-- Storage is stable and never shared. The ledger of a program lists what the program declares, and
lowering keeps it on the way: it starts with an empty one, in every scope and routine the variables
in scope are listed, a node adds just what it declares, and the use of a name adds nothing and
yields the slot that is listed. -/
theorem lowerProgram_storesApart (name : Bytes) (program : Program) :
    Apart (Node.planAll true program) (lowerProgram program (.fresh name)) ∧
    Kept [] mainRoutine true (programStart name) ∧
    ∀ (ledger : List Symbol) (routine : Routine) (outermost : Bool) (before : Workspace),
      Kept ledger routine outermost before →
        (∀ node, Recorded routine outermost ledger before (node.plan outermost) SettlingIfAny
          (lowerNode node routine before)) ∧
        (∀ used index, Uses ledger routine used index before (routine.storage used index before)) ∧
        Kept ledger routine false { before with table := before.table.enter } ∧
        ∀ inner params kinds kind scope outer, before.table.scopes = scope :: outer →
          Kept ledger ⟨before.builder.unit.functions.size, kind, false⟩ false
            (beforeRoutine inner params kinds kind scope outer before) :=
  ⟨lowerProgram_apart name program, programStart_kept name,
    fun _ routine outermost _ kept => ⟨fun node => lowerNode_records node routine outermost kept,
      kept.uses, kept.scope, fun inner params kinds kind _ _ scopes =>
        kept.enters scopes inner params kinds kind⟩⟩

/-- The declaration of a number. -/
def declaresNumber : Node := .declaration 1 "x" "INTEGER"

/-- A program that declares one name three times: in its outermost scope, in a loop and as the
parameter of a procedure. -/
def shadows : Program :=
  [declaresNumber,
    .whileLoop 2 (.boolean 2 false) [.declaration 3 "x" "CHAR"],
    .procedure 4 "p" [⟨"x", "REAL"⟩] []]

/-- Behind the declaration the name can be used. -/
theorem declaresNumber_used :
    ∃ after found last, lowerNode declaresNumber mainRoutine (programStart "shadows") =
        .ok none after ∧ mainRoutine.storage "x" none after = .ok found last := by
  have checks : ((lowerNode declaresNumber mainRoutine >>= fun _ =>
      mainRoutine.storage "x" none).run' (programStart "shadows")).isSome = true := by
    decide +kernel
  cases ran : (lowerNode declaresNumber mainRoutine >>= fun _ =>
      mainRoutine.storage "x" none) (programStart "shadows") with
  | error failure after =>
    rw [EStateM.run', EStateM.run, ran] at checks
    cases checks
  | ok found last =>
    obtain ⟨made, after, lowered, used⟩ := (bind_eq_ok _ _ _ _ _).mp ran
    obtain rfl : made = none := by
      rw [declaresNumber, lowerNode, statement_eq_ok] at lowered
      exact lowered.2
    exact ⟨after, found, last, lowered, used⟩

theorem lowerProgram_storesApart_shadows :
    (∃ (after : Workspace) (ledger : List Symbol),
      lowerProgram shadows (.fresh "shadows") = .ok () after ∧
      (∀ symbol ∈ ledger, symbol.name = "x") ∧
      ledger.map Symbol.owner = [none, some 0, some 1] ∧
      ledger.Pairwise fun symbol other => symbol.place? ≠ other.place?) ∧
    Uses [] mainRoutine "x" none (programStart "shadows")
      (mainRoutine.storage "x" none (programStart "shadows")) ∧
    ∃ (after : Workspace) (symbol : Symbol) (slot : IR.Slot),
      lowerNode declaresNumber mainRoutine (programStart "shadows") = .ok none after ∧
      symbol.name = "x" ∧ symbol.Placed slot ∧ Kept [symbol] mainRoutine true after ∧
      Uses [symbol] mainRoutine "x" none after (mainRoutine.storage "x" none after) ∧
      mainRoutine.storage "x" none after = .ok (symbol, .slot slot) after := by
  obtain ⟨apart, starts, steps⟩ := lowerProgram_storesApart "shadows" shadows
  refine ⟨?_, (steps _ _ _ _ starts).2.1 _ _, ?_⟩
  · have checks : (compile "shadows" shadows).toOption.any
        (fun unit => unit.functions.size = 2) = true := by decide +kernel
    cases compiled : compile "shadows" shadows with
    | error failure =>
      rw [compiled] at checks
      cases checks
    | ok unit =>
      rw [compiled] at checks
      have size : unit.functions.size = 2 := of_decide_eq_true checks
      obtain ⟨_, after, lowered, rfl⟩ := compile_eq_ok.mp compiled
      rw [lowered] at apart
      have plan : Node.planAll true shadows = [.variable "x" "INTEGER" .scalar true,
          .variable "x" "CHAR" .scalar false, .routine [.variable "x" "REAL" .scalar false]] := rfl
      rw [plan] at apart
      cases apart with
      | ok stored distinct fulfils =>
        rw [size] at fulfils
        cases fulfils with
        | «variable» inMain rest =>
          cases rest with
          | «variable» inLoop rest =>
            cases rest with
            | @routine _ _ inner middle _ _ _ _ _ later body rest =>
              have early := body.le
              have late := rest.le
              cases body with
              | «variable» isParam body =>
                cases body
                cases rest
                obtain rfl : inner = 1 := by omega
                refine ⟨after, _, lowered, ?_, ?_, distinct⟩
                · simp [inMain.name, inLoop.name, isParam.name]
                · simp [inMain.owner, inLoop.owner, isParam.owner]
  · obtain ⟨after, found, last, lowered, used⟩ := declaresNumber_used
    have recorded := (steps _ _ _ _ starts).1 declaresNumber
    rw [lowered] at recorded
    cases recorded with
    | ok kept gains fulfils =>
      cases fulfils with
      | @«variable» _ _ _ _ _ _ _ _ _ symbol meets rest =>
        cases rest
        have uses := (steps _ _ _ _ kept).2.1 "x" none
        have usesToo := uses
        rw [used] at usesToo
        cases usesToo with
        | @whole _ slot _ listed placed =>
          cases List.mem_singleton.mp listed
          exact ⟨after, symbol, slot, lowered, meets.name, placed, kept, uses, used⟩
        | element found listed placed reachable isElement => cases isElement

end Lowering

end Pascaline
