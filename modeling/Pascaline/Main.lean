/-
The program on the command line. It reads the files, prints what the library answers, and stops at
the first file that fails.
-/

import Pascaline.Command
import Pascaline.Machine.Run
import Pascaline.SourceFile

namespace Pascaline

def writeBytes (stream : IO.FS.Stream) (bytes : Bytes) : IO Unit :=
  stream.write ⟨bytes.toArray⟩

/-- Reports a failure; the exit code of the program is then one. -/
def report (message : Bytes) : IO UInt32 := do
  writeBytes (← IO.getStderr) ("error: " ++ message ++ "\n")
  return 1

/-- Finds out what a name leads to. -/
def findFile (name : String) : IO Entry := do
  try
    return .file (← IO.FS.readBinFile name).data.toList
  catch
    | .noFileOrDirectory .. => return .missing
    | .inappropriateType .. => return .directory
    | other => throw other

/-- How many steps are made before the output is printed. -/
def chunk : Nat := 65536

/-- Advances a run until it ends, and prints on the way. -/
partial def finishRun (unit : IR.Module) (limits : Machine.Limits)
    (progress : Machine.Progress) : IO (Except Bytes Int64) := do
  let output ← IO.getStdout
  match progress with
  | .running state =>
    writeBytes output state.machine.output.toList
    let state := { state with machine := state.machine.withoutOutput }
    finishRun unit limits ((Machine.Progress.running state).advance unit limits chunk)
  | .finished machine result =>
    writeBytes output machine.output.toList
    return .ok (Machine.exitCode result)
  | .failed machine failure =>
    writeBytes output machine.output.toList
    return .error (Machine.failureText (Machine.mainFailure failure))

/-- All bytes of a stream, behind those that have been read. -/
partial def readAll (stream : IO.FS.Stream) (before : ByteArray) : IO ByteArray := do
  let bytes ← stream.read 65536
  if bytes.isEmpty then return before else readAll stream (before ++ bytes)

/-- Runs a module on the standard input. -/
def runUnit (unit : IR.Module) (limits : Machine.Limits) : IO (Except Bytes Int64) := do
  let input ← readAll (← IO.getStdin) .empty
  match Machine.Machine.new? unit input.data.toList with
  | none => return .error Machine.Trap.wildAccess.text
  | some machine => finishRun unit limits (Machine.startMain unit machine)

/-- Does the action for one file. -/
def perform (action : Action) (source : SourceFile) : IO (Except Bytes Unit) := do
  let output ← IO.getStdout
  match action with
  | .check =>
    match source.check with
    | .error failure => return .error ("check " ++ source.name ++ ": " ++ failure.text)
    | .ok _ =>
      writeBytes output (source.name ++ ": ok\n")
      return .ok ()
  | .compile =>
    match source.assemble with
    | .error failure => return .error ("compile " ++ source.name ++ ": " ++ failure.text)
    | .ok text =>
      writeBytes output text
      return .ok ()
  | .run maximum =>
    match source.compile with
    | .error failure => return .error ("run " ++ source.name ++ ": " ++ failure.text)
    | .ok unit =>
      match ← runUnit unit { maximum } with
      | .error message => return .error ("run " ++ source.name ++ ": " ++ message)
      | .ok code =>
        if code = 0 then return .ok ()
        else return .error (source.name ++ ": exit code " ++ Bytes.ofInt code.toInt)

/-- Does the action for all files, up to the first that fails. -/
def performAll (action : Action) : List String → IO UInt32
  | [] => return 0
  | name :: rest => do
    match ← perform action ⟨Bytes.ofString name, ← findFile name⟩ with
    | .ok _ => performAll action rest
    | .error message => report message

end Pascaline

def main (words : List String) : IO UInt32 := do
  match Pascaline.Command.ofWords? words with
  | some command => Pascaline.performAll command.action command.files
  | none =>
    (← IO.getStderr).putStr Pascaline.Command.usage
    return 2
