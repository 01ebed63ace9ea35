/-
The command line: what to do, with which files. All words behind the command name files, but for
the options of a run.
-/

import Pascaline.Number.Reader
import Pascaline.Bytes

namespace Pascaline

/-- What to do with the files. A run may be limited to a number of steps, zero for no limit. -/
inductive Action where
  | check
  | compile
  | run (maximum : Int)
  deriving DecidableEq

/-- An action and the names of the files it is for. -/
structure Command where
  action : Action
  files : List String
  deriving DecidableEq

namespace Command

/-- The text for a command line that is not understood. -/
def usage : String :=
  "usage: pascaline check FILE...\n" ++
  "       pascaline compile FILE...\n" ++
  "       pascaline run [--max-steps N] FILE...\n"

/-- The number of an option. -/
def number? (text : String) : Option Int := (readInt? (Bytes.ofString text)).map Int64.toInt

/-- The options and files of a run. The last limit counts. -/
def ofRunWords? (command : Command) : List String → Option Command
  | "--max-steps" :: count :: rest => do
    ofRunWords? { command with action := .run (← number? count) } rest
  | word :: rest =>
    if word.startsWith "-" then none
    else ofRunWords? { command with files := command.files ++ [word] } rest
  | [] => some command

/-- The command that the words of a command line give. -/
def ofWords? : List String → Option Command
  | "check" :: files => some ⟨.check, files⟩
  | "compile" :: files => some ⟨.compile, files⟩
  | "run" :: words => ofRunWords? ⟨.run 0, []⟩ words
  | _ => none

end Command

end Pascaline
