/-
Values in a document: numbers, truth values and texts.
-/

import Pascaline.Number.Width
import Pascaline.Reader.Conversion

namespace Pascaline.Reader

open Yaml (Scalar)

/-- The integer of 64 bits that a scalar stands for. The fraction of a floating point number is
dropped. One below all integers becomes the least, and so does the first one above them. -/
def integerOf : Scalar → Option Int
  | .integer value => if fitsSigned 64 value then some value else none
  | .real value =>
    if value.isNaN then none
    else if value.isInfinite then
      if value.isNegative then some Int64.minValue.toInt else none
    else
      let whole := value.truncate
      if Int64.maxValue.toInt + 1 < whole then none
      else if fitsSigned 64 whole then some whole
      else some Int64.minValue.toInt
  | _ => none

def shortIntegerOf (scalar : Scalar) : Option Int32 :=
  ((integerOf scalar).filter (fitsSigned 32)).map Int32.ofInt

def realOf : Scalar → Option Double
  | .integer value => some (.ofInt value)
  | .real value => some value
  | _ => none

/-- Texts that stand for true and for false. -/
def affirmations : List Bytes := ["y", "Y", "yes", "Yes", "YES", "on", "On", "ON"]

def negations : List Bytes := ["n", "N", "no", "No", "NO", "off", "Off", "OFF"]

def booleanOf : Scalar → Option Bool
  | .boolean value => some value
  | .text text =>
    if affirmations.contains text then some true
    else if negations.contains text then some false
    else none
  | _ => none

def shortInteger (route : Route) (node : Yaml.Node) : Convert (Option Int32) :=
  convertScalar route .shortInteger (fun scalar _ => shortIntegerOf scalar) node

def longInteger (route : Route) (node : Yaml.Node) : Convert (Option Int64) :=
  convertScalar route .longInteger (fun scalar _ => (integerOf scalar).map Int64.ofInt) node

def real (route : Route) (node : Yaml.Node) : Convert (Option Double) :=
  convertScalar route .real (fun scalar _ => realOf scalar) node

def boolean (route : Route) (node : Yaml.Node) : Convert (Option Bool) :=
  convertScalar route .boolean (fun scalar _ => booleanOf scalar) node

/-- A text is any scalar but null, as it is written, unless it is written in base 64. -/
def textOf : Scalar → Bytes → Option Bytes
  | .text text, _ => some text
  | _, written => some written

def text (route : Route) (node : Yaml.Node) : Convert (Option Bytes) :=
  convertScalar route .string textOf node

end Pascaline.Reader
