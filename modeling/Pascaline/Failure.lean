/-
Failures with a trail. A failure has one cause, and every enclosing stage that passes it on may
add itself to the trail. The message names the stages from the outside in, then the cause.
-/

import Pascaline.Bytes

namespace Pascaline

/-- A cause and the stages it passed through, the outermost first. -/
structure Failure (Stage Cause : Type) where
  trail : List Stage
  cause : Cause
  deriving DecidableEq

namespace Failure

variable {Stage Cause : Type}

/-- A failure that no stage has passed on yet. -/
def bare (cause : Cause) : Failure Stage Cause := ⟨[], cause⟩

/-- The failure as passed on by a stage around it. -/
def within (stage : Stage) (failure : Failure Stage Cause) : Failure Stage Cause :=
  { failure with trail := stage :: failure.trail }

/-- A label in front of a message; an empty label leaves no mark. -/
def label (text message : Bytes) : Bytes := if text = [] then message else text ++ ": " ++ message

/-- The stages from the outside in, then the cause. -/
def render (stageText : Stage → Bytes) (causeText : Cause → Bytes)
    (failure : Failure Stage Cause) : Bytes :=
  failure.trail.foldr (fun stage message => label (stageText stage) message)
    (causeText failure.cause)

/-- The same failure in other words. -/
def map {OtherStage OtherCause : Type} (stage : Stage → OtherStage) (cause : Cause → OtherCause)
    (failure : Failure Stage Cause) : Failure OtherStage OtherCause :=
  ⟨failure.trail.map stage, cause failure.cause⟩

end Failure

end Pascaline
