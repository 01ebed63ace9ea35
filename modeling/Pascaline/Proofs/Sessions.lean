/-
Sessions have no memory. A session keeps the names, the faults and the module of the last program,
with the external functions of the module and the context, whatever became of the program, and
clears them before they are used again; so every request is answered as a new session would answer
it. No request leaves a scope open, wherever it was given up.
-/

import Pascaline.Proofs.Hygiene

namespace Pascaline

open Lowering (LoweringFailure Workspace lowerProgram)

/-! ### Balanced scopes -/

/-- An analysis leaves as many scopes open as it found. -/
theorem Analysis.depth_checkProgram (program : Program) (start : State) :
    (checkProgram program start).2.table.depth = start.table.depth :=
  (checkProgram_twins .unchanged program
    (rfl : (⟨start.table.rename .unchanged, start.faults⟩ : State).table = _)).2.2

/-- Lowering leaves as many scopes open as it found, on success and on failure. -/
theorem Lowering.depth_lowerProgram (program : Program) (start : Workspace) :
    (∀ made after, lowerProgram program start = .ok made after →
      after.table.depth = start.table.depth) ∧
    ∀ failure after, lowerProgram program start = .error failure after →
      after.table.depth = start.table.depth := by
  have twins := lowerProgram_twins .unchanged program
    (⟨rfl, rfl, rfl, rfl⟩ :
      start.Renamed .unchanged { start with table := start.table.rename .unchanged })
  generalize lowerProgram program start = ran at twins ⊢
  generalize lowerProgram (program.rename .unchanged) _ = ranToo at twins
  cases twins with
  | ok alike renamed balanced =>
    refine ⟨?_, ?_⟩
    · rintro _ _ ⟨⟩
      exact balanced
    · rintro _ _ ⟨⟩
  | error renamed balanced =>
    refine ⟨?_, ?_⟩
    · rintro _ _ ⟨⟩
    · rintro _ _ ⟨⟩
      exact balanced

namespace Session

/-! ### Single requests -/

/-- An analysis takes nothing from the session but its name, and leaves its module as it is, with
what belongs to the module. -/
theorem analyze_eq_new (session : Session) (program : Program) :
    session.analyze program =
      (((new session.name).analyze program).1,
        { ((new session.name).analyze program).2 with
          builder := session.builder
          externals := session.externals
          context := session.context }) :=
  rfl

theorem depth_analyze (session : Session) (program : Program) :
    (session.analyze program).2.table.depth = 0 :=
  Analysis.depth_checkProgram program ⟨.empty, #[]⟩

/-- Lowering does not depend on what is cleared before it. -/
theorem lower_of_clearModule {session other : Session}
    (same : session.clearModule = other.clearModule) (program : Program) :
    session.lower program = other.lower program := by
  simp only [lower, same]

theorem depth_lower (session : Session) (program : Program) :
    (session.lower program).2.table.depth = 0 := by
  obtain ⟨succeeds, fails⟩ := Lowering.depth_lowerProgram program session.clearModule.workspace
  simp only [lower]
  cases lowered : lowerProgram program session.clearModule.workspace with
  | ok made after => exact succeeds made after lowered
  | error failure after => exact fails failure after lowered

theorem compile_of_error {session after : Session} {program : Program}
    {failure : LoweringFailure} (analyzed : session.analyze program = (.error failure, after)) :
    session.compile program = (.error (failure.within .analyze), after) := by
  rw [compile, analyzed]

theorem compile_of_ok {session after : Session} {program : Program}
    (analyzed : session.analyze program = (.ok (), after)) :
    session.compile program = after.lower program := by
  rw [compile, analyzed]

/-- A program in which the analysis finds no fault is compiled as in a new session, and leaves the
session as it leaves a new one. Numbers of external functions and a context that are left from
another program would be taken for those of this one if they were not cleared. -/
theorem compile_eq_new_of_good {session : Session} {program : Program}
    (good : check session.name program = .ok ()) :
    session.compile program = (new session.name).compile program := by
  have analyzed : (new session.name).analyze program =
      (.ok (), ((new session.name).analyze program).2) := Prod.ext good rfl
  have analyzedToo := session.analyze_eq_new program
  rw [analyzed] at analyzedToo
  rw [compile_of_ok analyzed, compile_of_ok analyzedToo]
  exact lower_of_clearModule rfl program

theorem compile_eq_new (session : Session) (program : Program) :
    (session.compile program).1 = ((new session.name).compile program).1 ∧
      (session.compile program).2.faults = ((new session.name).compile program).2.faults ∧
      (session.compile program).2.table = ((new session.name).compile program).2.table := by
  cases outcome : check session.name program with
  | error failure =>
    have analyzed : (new session.name).analyze program =
        (.error failure, ((new session.name).analyze program).2) := Prod.ext outcome rfl
    have analyzedToo := session.analyze_eq_new program
    rw [analyzed] at analyzedToo
    rw [compile_of_error analyzed, compile_of_error analyzedToo]
    exact ⟨rfl, rfl, rfl⟩
  | ok good =>
    rw [compile_eq_new_of_good outcome]
    exact ⟨rfl, rfl, rfl⟩

theorem depth_compile (session : Session) (program : Program) :
    (session.compile program).2.table.depth = 0 := by
  have depth := session.depth_analyze program
  cases analyzed : session.analyze program with
  | mk outcome after =>
    rw [analyzed] at depth
    cases outcome with
    | error failure =>
      rw [compile_of_error analyzed]
      exact depth
    | ok =>
      rw [compile_of_ok analyzed]
      exact after.depth_lower program

theorem name_compile (session : Session) (program : Program) :
    (session.compile program).2.name = session.name := by
  cases analyzed : session.analyze program with
  | mk outcome after =>
    have name : after.name = session.name := congrArg (·.2.name) analyzed.symm
    cases outcome with
    | error failure =>
      rw [compile_of_error analyzed]
      exact name
    | ok =>
      rw [compile_of_ok analyzed, ← name]
      simp only [lower]
      cases lowerProgram program after.clearModule.workspace <;> rfl

/-! ### Histories of requests -/

/-- What a session can be asked for. -/
inductive Request where
  | analyze (program : Program)
  | compile (program : Program)

/-- The answer to a request, which is a module if a program was to be compiled, and the session
that is left. -/
def serve (session : Session) : Request → Except LoweringFailure (Option IR.Module) × Session
  | .analyze program =>
    ((session.analyze program).1.map fun _ => none, (session.analyze program).2)
  | .compile program => ((session.compile program).1.map some, (session.compile program).2)

/-- The session that is left behind requests, whatever the answers were. -/
def serveAll (session : Session) (requests : List Request) : Session :=
  requests.foldl (fun session request => (session.serve request).2) session

theorem name_serve (session : Session) (request : Request) :
    (session.serve request).2.name = session.name := by
  cases request with
  | analyze program => rfl
  | compile program => exact session.name_compile program

theorem name_serveAll (session : Session) (requests : List Request) :
    (session.serveAll requests).name = session.name := by
  induction requests generalizing session with
  | nil => rfl
  | cons request rest same => exact (same _).trans (session.name_serve request)

/-- What is left over in a session makes no difference to a request. -/
theorem serve_eq_new (session : Session) (request : Request) :
    (session.serve request).1 = ((new session.name).serve request).1 ∧
      (session.serve request).2.faults = ((new session.name).serve request).2.faults ∧
      (session.serve request).2.table = ((new session.name).serve request).2.table := by
  cases request with
  | analyze program => exact ⟨rfl, rfl, rfl⟩
  | compile program =>
    obtain ⟨outcome, faults, table⟩ := session.compile_eq_new program
    exact ⟨congrArg (Except.map some) outcome, faults, table⟩

theorem depth_serve (session : Session) (request : Request) :
    (session.serve request).2.table.depth = 0 := by
  cases request with
  | analyze program => exact session.depth_analyze program
  | compile program => exact session.depth_compile program

/-- A session has no memory: behind any requests, a request is answered as by a new session of the
same name, with the same faults and the same names, and no scope is open behind it. A program that
comes to be lowered leaves the whole session as it leaves a new one, whether or not it can be
lowered. -/
theorem serve_memoryless (session : Session) (history : List Request) (request : Request) :
    ((session.serveAll history).serve request).1 = ((new session.name).serve request).1 ∧
      ((session.serveAll history).serve request).2.faults =
        ((new session.name).serve request).2.faults ∧
      ((session.serveAll history).serve request).2.table =
        ((new session.name).serve request).2.table ∧
      ((session.serveAll history).serve request).2.table.depth = 0 ∧
      ∀ program, request = .compile program → check session.name program = .ok () →
        ((session.serveAll history).serve request).2 = ((new session.name).serve request).2 := by
  obtain ⟨outcome, faults, table⟩ := serve_eq_new (session.serveAll history) request
  have name := session.name_serveAll history
  rw [name] at outcome faults table
  refine ⟨outcome, faults, table, depth_serve _ _, ?_⟩
  rintro program rfl good
  rw [← name] at good ⊢
  rw [serve, serve, compile_eq_new_of_good good]

/-- A program that prints, whose external function has the number 1. -/
def printsOnly : Program := [.output 1 [.integer 1 7]]

/-- A program in which the number 1 belongs to a procedure, and one more to the external function.
-/
def printsInside : Program :=
  [.procedure 1 "p" [] [.output 2 [.boolean 2 true]], .output 3 [.char 3 65]]

/-- The number that is left over from one program is that of a procedure in the next, which gets its
own all the same. -/
theorem serve_memoryless_numbers :
    ((new "t").serveAll [.compile printsOnly]).externals.printf = some 1 ∧
      (((new "t").serveAll [.compile printsOnly]).serve (.compile printsInside)).2 =
        ((new "t").serve (.compile printsInside)).2 ∧
      ((new "t").serve (.compile printsInside)).2.externals.printf = some 2 := by
  have first : ((new "t").serveAll [.compile printsOnly]).externals.printf = some 1 := by
    decide +kernel
  have second : ((new "t").serve (.compile printsInside)).2.externals.printf = some 2 := by
    decide +kernel
  have good : check "t" printsInside = .ok () := by decide +kernel
  obtain ⟨_, _, _, _, same⟩ :=
    serve_memoryless (new "t") [.compile printsOnly] (.compile printsInside)
  exact ⟨first, same printsInside rfl good, second⟩

end Session

end Pascaline
