/-
Traps: the ways in which a run stops before its end, and the places that a trap passes on its way
out of the functions that were running.
-/

import Pascaline.Failure
import Pascaline.Text.Quoted

namespace Pascaline.Machine

/-- The reason of a trap. A wild access is one outside of every memory, register or module. -/
inductive Trap where
  | stepLimit
  | canceled
  | noMain
  | argumentCount (function : Bytes) (expected found : Nat)
  | callDepth (function : Bytes)
  | noBody (function : Bytes)
  | unresolved (function : Bytes)
  | divisionByZero
  | indexRange (index : Int) (length : Nat)
  | notAddress (sort : Bytes)
  | notInteger (sort : Bytes)
  | notFloat (sort : Bytes)
  | aggregateValue
  | unsupportedOperation (code : Int)
  | unsupportedCast (code : Int)
  | unallocated (name : Bytes)
  | fellOff (function block : Bytes)
  | unreachable (function block : Bytes)
  | printNoFormat
  | printFormatSort (sort : Bytes)
  | printMissingArgument (verb : UInt8)
  | printNotCharacter (sort : Bytes)
  | printVerb (verb : UInt8)
  | scanCount (count : Nat)
  | scanFormatSort (sort : Bytes)
  | scanTargetSort (sort : Bytes)
  | scanFormat (format : Bytes)
  | wildAccess
  deriving DecidableEq

/-- A byte as the character with that code. -/
def verbText (verb : UInt8) : Bytes := "%" ++ Bytes.ofChar (Char.ofNat verb.toNat)

def Trap.text : Trap → Bytes
  | .stepLimit => "step limit exceeded"
  | .canceled => "context canceled"
  | .noMain => "no main function"
  | .argumentCount function expected found =>
    function ++ ": want " ++ Bytes.ofNat expected ++ " args, got " ++ Bytes.ofNat found
  | .callDepth function => function ++ ": call depth exceeded"
  | .noBody function => function ++ ": no body"
  | .unresolved function => "unresolved external " ++ function
  | .divisionByZero => "integer division by zero"
  | .indexRange index length =>
    "index " ++ Bytes.ofInt index ++ " out of range [0:" ++ Bytes.ofNat length ++ "]"
  | .notAddress sort => "not an address: " ++ sort
  | .notInteger sort => "not an integer: " ++ sort
  | .notFloat sort => "not a float: " ++ sort
  | .aggregateValue => "unsupported value: ir.Zeroinit"
  | .unsupportedOperation code => "unsupported op: " ++ Bytes.ofInt code
  | .unsupportedCast code => "unsupported cast: " ++ Bytes.ofInt code
  | .unallocated name => "local " ++ name ++ " used before alloca"
  | .fellOff function block => function ++ ": " ++ block ++ ": fell off the block"
  | .unreachable function block => function ++ ": " ++ block ++ ": reached unreachable"
  | .printNoFormat => "printf: no format"
  | .printFormatSort sort => "printf: format is " ++ sort
  | .printMissingArgument verb => "printf: missing argument for " ++ verbText verb
  | .printNotCharacter sort => "printf: %c of " ++ sort
  | .printVerb verb => "printf: unsupported verb " ++ verbText verb
  | .scanCount count =>
    "scanf: want format and one target, got " ++ Bytes.ofNat count ++ " args"
  | .scanFormatSort sort => "scanf: format is " ++ sort
  | .scanTargetSort sort => "scanf: target is " ++ sort
  | .scanFormat format => "scanf: unsupported format " ++ Text.quote format
  | .wildAccess => "wild memory access"

/-- A place that passes a trap on. -/
inductive Stage where
  | main
  | instruction (function block : Bytes) (index : Nat)
  | condition (function block : Bytes)
  | argument (index : Nat)
  | call (function : Bytes)
  deriving DecidableEq

def Stage.text : Stage → Bytes
  | .main => "main"
  | .instruction function block index =>
    function ++ ": " ++ block ++ ": " ++ Bytes.ofNat index
  | .condition function block => function ++ ": " ++ block ++ ": cond"
  | .argument index => "arg " ++ Bytes.ofNat index
  | .call function => "call " ++ function

abbrev MachineFailure := Failure Stage Trap

def failureText (failure : MachineFailure) : Bytes := failure.render Stage.text Trap.text

end Pascaline.Machine
