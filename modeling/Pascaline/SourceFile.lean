/-
Programs in files. A file is read, checked and compiled under its name, and a failure names the
file if it comes from reading it. What a name leads to is found out before, so all this is pure.
-/

import Pascaline.IR.Text
import Pascaline.Reader.Program
import Pascaline.Session

namespace Pascaline

/-! ### Names -/

/-- What a name leads to. The name of a file may be used as if it were a directory. -/
inductive Entry where
  | missing
  | notDirectory
  | directory
  | file (content : Bytes)
  deriving DecidableEq

/-- The files of a directory without directories of its own, by their names. -/
abbrev Directory := List (Bytes × Bytes)

/-- The parts of a name between slashes. -/
def pathParts (name : Bytes) : List Bytes :=
  name.foldr (fun byte parts =>
    if byte = Bytes.code '/' then [] :: parts
    else match parts with
      | part :: rest => (byte :: part) :: rest
      | [] => [[byte]]) [[]]

/-- What a name leads to from inside the directory. Empty parts and points stay where they are,
but the file that a name leads to comes last. -/
def Directory.find (directory : Directory) (name : Bytes) : Entry :=
  if name = [] then .missing
  else match (pathParts name).dropWhile isNeutral with
    | [] => .directory
    | part :: rest =>
      match directory.lookup part with
      | none => if part = ".." ∧ rest.all isNeutral then .directory else .missing
      | some content => if rest = [] then .file content else .notDirectory
where
  isNeutral (part : Bytes) : Bool := part = [] || part = "."

/-! ### Failures -/

/-- The stages between a file and its module. -/
inductive FileStage where
  | file (name : Bytes)
  | access
  | reader (stage : Reader.Stage)
  | compile
  | lowering (stage : Lowering.Stage)
  deriving DecidableEq

def FileStage.text : FileStage → Bytes
  | .file name => name
  | .access => "read file"
  | .reader stage => stage.text
  | .compile => "compile"
  | .lowering stage => stage.text

/-- Why there is no module for a file. -/
inductive FileCause where
  | missing (name : Bytes)
  | notDirectory (name : Bytes)
  | directory (name : Bytes)
  | reader (cause : Reader.Cause)
  | lowering (cause : Lowering.Cause)

def FileCause.text : FileCause → Bytes
  | .missing name => "open " ++ name ++ ": no such file or directory"
  | .notDirectory name => "open " ++ name ++ ": not a directory"
  | .directory name => "read " ++ name ++ ": is a directory"
  | .reader cause => cause.text
  | .lowering cause => cause.text

abbrev FileFailure := Failure FileStage FileCause

namespace FileFailure

def text (failure : FileFailure) : Bytes := failure.render FileStage.text FileCause.text

def ofReader (failure : Reader.ReadFailure) : FileFailure := failure.map .reader .reader

def ofLowering (failure : Lowering.LoweringFailure) : FileFailure :=
  failure.map .lowering .lowering

end FileFailure

/-! ### Files -/

/-- A name and what it leads to. -/
structure SourceFile where
  name : Bytes
  entry : Entry
  deriving DecidableEq

namespace SourceFile

/-- The content of a file. -/
def content (source : SourceFile) : Except FileFailure Bytes :=
  match source.entry with
  | .file bytes => .ok bytes
  | .missing => inaccessible (.missing source.name)
  | .notDirectory => inaccessible (.notDirectory source.name)
  | .directory => inaccessible (.directory source.name)
where
  inaccessible (cause : FileCause) : Except FileFailure Bytes := .error ⟨[.access], cause⟩

/-- The program in a file. -/
def read (source : SourceFile) : Except FileFailure Program := do
  (source.content.bind fun bytes => (Reader.read bytes).mapError FileFailure.ofReader).mapError
    (Failure.within (.file source.name))

/-- Analyzes the program in a file. -/
def check (source : SourceFile) : Except FileFailure Unit := do
  let program ← source.read
  (Pascaline.check source.name program).mapError FileFailure.ofLowering

/-- Compiles the program in a file to a module with the name of the file. -/
def compile (source : SourceFile) : Except FileFailure IR.Module := do
  let program ← source.read
  (Pascaline.compile source.name program).mapError fun failure =>
    (FileFailure.ofLowering failure).within .compile

/-- Compiles the program in a file to the text of its module. -/
def assemble (source : SourceFile) : Except FileFailure Bytes := source.compile.map IR.Module.text

end SourceFile

end Pascaline
