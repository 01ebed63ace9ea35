/-
Lowering steps. A step works on the names in scope and on the module under construction, and may
fail; a failure keeps both as they are, so that scopes are closed on the way out and the insertion
point is moved back.
-/

import Pascaline.Failure
import Pascaline.IR.Builder
import Pascaline.Symbol.Table

namespace Pascaline.Lowering

/-! ### Failures -/

/-- The places inside a program that pass a failure on. -/
inductive Stage where
  | analyze
  | allocate
  | left
  | right
  | condition
  | index
  | argument (position : Nat)
  | consequent
  | alternative
  | body
  | start
  | step
  | return
  | param (name : Bytes)
  | result
  | routine (name : Bytes)
  deriving DecidableEq

def Stage.text : Stage → Bytes
  | .analyze => "analyze"
  | .allocate => "allocate"
  | .left => "left"
  | .right => "right"
  | .condition => "condition"
  | .index => "index"
  | .argument position => "arg " ++ Bytes.ofNat position
  | .consequent => "then"
  | .alternative => "else"
  | .body => "body"
  | .start => "init"
  | .step => "step"
  | .return => "return"
  | .param name => "param " ++ name
  | .result => "result"
  | .routine name => "function " ++ name

/-- Why a program cannot be lowered. -/
inductive Cause where
  | faults (faults : List Fault)
  | unexplained
  | fault (fault : Fault)
  | noStorage (name : Bytes)
  | foreignLocal (name owner current : Bytes)
  | missingNode
  | missingOperand
  | noValue (sort : Bytes)
  deriving DecidableEq

namespace Cause

/-- A single diagnostic as a cause. -/
def ofDiagnostic (diagnostic : Diagnostic) : Cause := .fault (.diagnostic diagnostic)

def text : Cause → Bytes
  | .faults list => Diagnostic.listText (list.map Fault.text)
  | .unexplained => "analysis failed"
  | .fault single => single.text
  | .noStorage name => "allocate " ++ name ++ ": callable has no storage"
  | .foreignLocal name owner current =>
    name ++ ": local of " ++ owner ++ " is not visible in " ++ current
  | .missingNode => "nil node"
  | .missingOperand => "missing operand"
  | .noValue sort => sort ++ " produced no value"

/-- The cause at a position, if it is a diagnostic without one. -/
def locatedIfUnplaced (cause : Cause) (position : Int) : Cause :=
  match cause with
  | .fault single => .fault (single.locatedIfUnplaced position)
  | other => other

end Cause

abbrev LoweringFailure := Failure Stage Cause

def failureText (failure : LoweringFailure) : Bytes := failure.render Stage.text Cause.text

/-! ### Workspaces -/

/-- The routine being lowered: its function and the kind of its result. -/
structure Routine where
  function : Nat
  result : Kind
  isMain : Bool := false
  deriving DecidableEq

/-- The context where nothing is being lowered. -/
def Routine.idle : Routine := { function := 0, result := .none }

/-- The external functions that work by a format. -/
inductive Service where
  | printf
  | scanf
  deriving DecidableEq

def Service.name : Service → Bytes
  | .printf => "printf"
  | .scanf => "scanf"

/-- The external functions that have been asked for, each by its number in the module. -/
structure Externals where
  printf : Option Nat := none
  scanf : Option Nat := none
  deriving DecidableEq

namespace Externals

def number? (externals : Externals) : Service → Option Nat
  | .printf => externals.printf
  | .scanf => externals.scanf

/-- Keeps the number of an external function for the next time. -/
def keep (externals : Externals) (service : Service) (function : Nat) : Externals :=
  match service with
  | .printf => { externals with printf := some function }
  | .scanf => { externals with scanf := some function }

end Externals

/-- The names in scope and the module under construction, with the external functions that it has
declared so far and the routine whose statements are being lowered. -/
structure Workspace where
  table : Table
  builder : IR.Builder
  externals : Externals := {}
  context : Routine := .idle
  deriving DecidableEq

/-- The workspace with the insertion point and the context of an earlier one. -/
def Workspace.backTo (workspace earlier : Workspace) : Workspace :=
  { workspace with
    builder := { workspace.builder with cursor := earlier.builder.cursor }
    context := earlier.context }

/-! ### Steps -/

/-- A step of lowering. -/
abbrev Lower := EStateM LoweringFailure Workspace

variable {Result : Type}

def fail (cause : Cause) : Lower Result := throw (.bare cause)

def failWith (diagnostic : Diagnostic) : Lower Result := fail (.ofDiagnostic diagnostic)

/-- Runs a building step. -/
def build (step : IR.Build Result) : Lower Result := fun workspace =>
  match step workspace.builder with
  | (result, builder) => .ok result { workspace with builder }

/-- Passes a failure on with the place where it happened. -/
def within (stage : Stage) (step : Lower Result) : Lower Result := fun workspace =>
  match step workspace with
  | .ok result workspace => .ok result workspace
  | .error failure workspace => .error (failure.within stage) workspace

/-- Gives a position to a diagnostic that has none and that no stage has passed on yet. -/
def located (position : Int) (step : Lower Result) : Lower Result := fun workspace =>
  match step workspace with
  | .ok result workspace => .ok result workspace
  | .error ⟨[], cause⟩ workspace => .error ⟨[], cause.locatedIfUnplaced position⟩ workspace
  | .error failure workspace => .error failure workspace

/-- Runs a step in a scope of its own, which is closed also on failure. -/
def inScope (step : Lower Result) : Lower Result := fun workspace =>
  match step { workspace with table := workspace.table.enter } with
  | .ok result workspace => .ok result { workspace with table := workspace.table.exit }
  | .error failure workspace => .error failure { workspace with table := workspace.table.exit }

/-- Runs a step that goes to another function. Behind it the insertion point and the context are
those from before, also on failure. -/
def aside (step : Lower Result) : Lower Result := fun workspace =>
  match step workspace with
  | .ok result later => .ok result (later.backTo workspace)
  | .error failure later => .error failure (later.backTo workspace)

/-- Makes a routine the one whose statements are lowered. -/
def enterRoutine (routine : Routine) : Lower Unit :=
  modify fun workspace => { workspace with context := routine }

/-- The routine whose statements are being lowered. -/
def currentRoutine : Lower Routine := return (← get).context

/-- The symbol that a name means. -/
def find? (name : Bytes) : Lower (Option Symbol) := return (← get).table.find? name

/-- Declares a symbol. -/
def declare (declaration : Table → Except Fault Table) : Lower Unit := do
  match declaration (← get).table with
  | .ok table => modify fun workspace => { workspace with table }
  | .error fault => fail (.fault fault)

/-- Changes the symbol that a name means. -/
def updateSymbol (name : Bytes) (change : Symbol → Symbol) : Lower Unit :=
  modify fun workspace => { workspace with table := workspace.table.update name change }

/-- The kind of a type name. -/
def resolve (type : Bytes) : Lower Kind :=
  match Kind.ofName? type with
  | some kind => return kind
  | none => failWith (.named .unknownType type)

end Pascaline.Lowering
