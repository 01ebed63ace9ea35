/-
Formatted input. One conversion is read into one cell. Blanks before a word are skipped, and a
word that does not read as a number is consumed without being stored.
-/

import Pascaline.Machine.Trap
import Pascaline.Machine.Value
import Pascaline.Number.Reader

namespace Pascaline.Machine.Scan

/-- The six blanks of ASCII. -/
def isBlank (byte : UInt8) : Bool := byte = 0x20 ∨ (0x09 ≤ byte ∧ byte ≤ 0x0D)

def skipBlanks (input : Bytes) : Bytes := input.dropWhile isBlank

/-- The next word, empty at the end of the input, and the input behind it. -/
def word (input : Bytes) : Bytes × Bytes :=
  let input := skipBlanks input
  (input.takeWhile (!isBlank ·), input.dropWhile (!isBlank ·))

/-- What became of a conversion: the input had ended, or it did not read as a value, or a value
was read. -/
inductive Outcome where
  | atEnd
  | unread
  | read (value : Value)
  deriving DecidableEq

/-- The number that tells the caller what became of the conversion. -/
def Outcome.code : Outcome → Int64
  | .atEnd => -1
  | .unread => 0
  | .read _ => 1

def Outcome.ofOption : Option Value → Outcome
  | some value => .read value
  | none => .unread

/-- What a format asks for. -/
inductive Request where
  | verb (byte : UInt8)
  | inputEnded
  | malformed
  deriving DecidableEq

def Request.ofVerb : Option UInt8 → Request
  | some byte => .verb byte
  | none => .malformed

/-- Reads a format, made of blanks and verbs of which the last one counts. A blank skips blanks of
the input; the input that is left comes with the request. -/
def request (verb : Option UInt8) : Bytes → Bytes → Bytes × Request
  | [], input => (input, .ofVerb verb)
  | [last], input =>
    if last = 0x20 then
      match skipBlanks input with
      | [] => ([], .inputEnded)
      | input => (input, .ofVerb verb)
    else (input, .malformed)
  | first :: second :: rest, input =>
    if first = 0x20 then
      match skipBlanks input with
      | [] => ([], .inputEnded)
      | input => request verb (second :: rest) input
    else if first = Bytes.code '%' then request (some second) rest input
    else (input, .malformed)

/-- How a word is read under a verb. -/
def wordReader? (verb : UInt8) : Option (Bytes → Option Value) :=
  if verb = Bytes.code 'd' then some fun text => (readInt? text).map .int
  else if verb = Bytes.code 'f' then some fun text => (readReal? text).map .float
  else if verb = Bytes.code 's' then some fun text => some (.text text)
  else none

/-- Reads a word. -/
def readWord (reader : Bytes → Option Value) (input : Bytes) : Bytes × Outcome :=
  match word input with
  | ([], rest) => (rest, .atEnd)
  | (text, rest) => (rest, .ofOption (reader text))

/-- Reads one byte as a signed character, also if it is a blank. -/
def readCharacter : Bytes → Bytes × Outcome
  | [] => ([], .atEnd)
  | byte :: rest => (rest, .read (.int byte.toInt8.toInt64))

/-- Reads one conversion by a format: the input that is left, and what became of it. -/
def conversion (format input : Bytes) : Bytes × Except Trap Outcome :=
  match request none format input with
  | (input, .inputEnded) => (input, .ok .atEnd)
  | (input, .malformed) => (input, .error (.scanFormat format))
  | (input, .verb verb) =>
    if verb = Bytes.code 'c' then (readCharacter input).map id .ok
    else match wordReader? verb with
      | some reader => (readWord reader input).map id .ok
      | none => (input, .error (.scanFormat format))

end Pascaline.Machine.Scan
