/-
Formatted output. A format is copied byte by byte, except that a percent sign and a verb stand for
the next argument. An argument of the wrong sort is printed with a remark on its sort.
-/

import Pascaline.Machine.Trap
import Pascaline.Machine.Value
import Pascaline.Number.Decimal

namespace Pascaline.Machine.Print

/-- A value in its plain form. Addresses and functions have no text of their own. -/
def plainText : Value → Bytes
  | .int value => Bytes.ofInt value.toInt
  | .float value => value.toShortest 6
  | .text bytes => bytes
  | .nil | .address .. | .function _ => []

/-- The remark on an argument that its verb cannot print. -/
def remark (verb : Char) (value : Value) : Bytes :=
  let head : Bytes := "%!" ++ Bytes.ofChar verb ++ "(" ++ value.sortText
  match value with
  | .nil => head ++ ")"
  | _ => head ++ "=" ++ plainText value ++ ")"

def decimalText (value : Value) : Bytes :=
  match value with
  | .int number => Bytes.ofInt number.toInt
  | _ => remark 'd' value

def fixedText (value : Value) : Bytes :=
  match value with
  | .float number => number.toFixed 6
  | _ => remark 'f' value

def stringText (value : Value) : Bytes :=
  match value with
  | .nil => "(null)"
  | .text bytes => bytes
  | _ => remark 's' value

/-- One argument under its verb. -/
def argumentText (verb : UInt8) (value : Value) : Except Trap Bytes :=
  if verb = Bytes.code 'd' then .ok (decimalText value)
  else if verb = Bytes.code 'f' then .ok (fixedText value)
  else if verb = Bytes.code 's' then .ok (stringText value)
  else if verb = Bytes.code 'c' then
    match value with
    | .int number => .ok [number.toBitVec.toNat.toUInt8]
    | _ => .error (.printNotCharacter value.sortText)
  else .error (.printVerb verb)

/-- What a format and its arguments print. Two percent signs are one, a percent sign at the end
stands for itself, and arguments without a verb are ignored. -/
def render : Bytes → List Value → Except Trap Bytes
  | [], _ => .ok []
  | [last], _ => .ok [last]
  | first :: verb :: rest, args =>
    if first ≠ Bytes.code '%' then return first :: (← render (verb :: rest) args)
    else if verb = Bytes.code '%' then return verb :: (← render rest args)
    else match args with
      | [] => .error (.printMissingArgument verb)
      | value :: args => do
        let text ← argumentText verb value
        return text ++ (← render rest args)

/-- What a call with a format as its first argument prints. -/
def output : List Value → Except Trap Bytes
  | [] => .error .printNoFormat
  | .text format :: args => render format args
  | value :: _ => .error (.printFormatSort value.sortText)

end Pascaline.Machine.Print
