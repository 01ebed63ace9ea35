/-
Compilation sessions. A session analyzes and lowers one program after the other, and works on its
own names, faults and module; each program finds them as the last one left them and clears what it
is about to use. The external functions of a module are kept by their numbers, which mean nothing
in the next one.
-/

import Pascaline.Lowering.Program

namespace Pascaline

open Lowering (Externals LoweringFailure Routine Workspace)

/-- A session, with the name of the modules that it makes: the names left in scope, the faults of
the last analysis, and the module last under construction with its external functions and the
context that its statements had. -/
structure Session where
  name : Bytes
  table : Table := .empty
  faults : List Fault := []
  builder : IR.Builder := .new name
  externals : Externals := {}
  context : Routine := .idle
  deriving DecidableEq

namespace Session

/-- A session that has done nothing yet. -/
def new (name : Bytes) : Session := { name }

/-- The failure of an analysis, with all faults found. -/
def analysisFailure (faults : List Fault) : LoweringFailure :=
  .bare (if faults = [] then .unexplained else .faults faults)

/-- The session with the names and faults of earlier programs forgotten. -/
def clearNames (session : Session) : Session := { session with table := .empty, faults := [] }

/-- The session with a new module, which has no external functions, and with no names and no
context: ready to lower a program. -/
def clearModule (session : Session) : Session :=
  { session with
    table := .empty
    builder := .new session.name
    externals := {}
    context := .idle }

/-- What lowering works on. -/
def workspace (session : Session) : Workspace where
  table := session.table
  builder := session.builder
  externals := session.externals
  context := session.context

/-- The session with a workspace as lowering left it. -/
def leave (session : Session) (workspace : Workspace) : Session :=
  { session with
    table := workspace.table
    builder := workspace.builder
    externals := workspace.externals
    context := workspace.context }

/-- Analyzes a program. -/
def analyze (session : Session) (program : Program) : Except LoweringFailure Unit × Session :=
  let session := session.clearNames
  let (good, state) := Analysis.analyze program ⟨session.table, session.faults.toArray⟩
  let session := { session with table := state.table, faults := state.faults.toList }
  (if good then .ok () else .error (analysisFailure session.faults), session)

/-- Lowers a program that has been analyzed. What it leaves stays in the session, whether or not it
can be lowered. -/
def lower (session : Session) (program : Program) : Except LoweringFailure IR.Module × Session :=
  let session := session.clearModule
  match Lowering.lowerProgram program session.workspace with
  | .ok _ left => (.ok left.builder.unit, session.leave left)
  | .error failure left => (.error failure, session.leave left)

/-- Analyzes a program and lowers it to a module. -/
def compile (session : Session) (program : Program) :
    Except LoweringFailure IR.Module × Session :=
  match session.analyze program with
  | (.error failure, session) => (.error (failure.within .analyze), session)
  | (.ok _, session) => session.lower program

end Session

/-- Analyzes a program in a session of its own. -/
def check (name : Bytes) (program : Program) : Except LoweringFailure Unit :=
  ((Session.new name).analyze program).1

/-- Compiles a program in a session of its own. -/
def compile (name : Bytes) (program : Program) : Except LoweringFailure IR.Module :=
  ((Session.new name).compile program).1

end Pascaline
