/-
Resolution of scalars: which value the text of a scalar stands for, and which tag it has. A plain
scalar without a tag may be null, a boolean, a number or a date. The tags of these kinds demand such
a value, and any other tag leaves a text.
-/

import Pascaline.Number.Reader
import Pascaline.Number.Width
import Pascaline.Text.Base64

namespace Pascaline.Yaml

open Bytes (code isDigit)

/-! ### Dates -/

/-- One or two digits at the start of a text. -/
def shortNumber? : Bytes → Option (Nat × Bytes)
  | first :: second :: rest =>
    if !isDigit first then none
    else if isDigit second then
      some ((first - code '0').toNat * 10 + (second - code '0').toNat, rest)
    else some ((first - code '0').toNat, second :: rest)
  | [first] => if isDigit first then some ((first - code '0').toNat, []) else none
  | [] => none

/-- Two digits at the start of a text. -/
def pairNumber? : Bytes → Option (Nat × Bytes)
  | first :: second :: rest =>
    if isDigit first && isDigit second then
      some ((first - code '0').toNat * 10 + (second - code '0').toNat, rest)
    else none
  | _ => none

/-- The text behind a given character. -/
def behind? (char : Char) : Bytes → Option Bytes
  | first :: rest => if first = code char then some rest else none
  | [] => none

def isLeapYear (year : Nat) : Bool := year % 4 = 0 && (year % 100 ≠ 0 || year % 400 = 0)

def daysInMonth (year month : Nat) : Nat :=
  if month = 2 then (if isLeapYear year then 29 else 28)
  else if month = 4 ∨ month = 6 ∨ month = 9 ∨ month = 11 then 30
  else 31

/-- A date with a year of four digits: the text behind it, and whether its day exists. -/
def readDate? (text : Bytes) : Option (Bool × Bytes) := do
  let year := text.take 4
  guard (year.length = 4 ∧ year.all isDigit)
  let rest ← behind? '-' (text.drop 4)
  let (month, rest) ← shortNumber? rest
  guard (1 ≤ month ∧ month ≤ 12)
  let rest ← behind? '-' rest
  let (day, rest) ← shortNumber? rest
  let yearNumber ← naturalOfDigits? 10 year
  return (1 ≤ day && day ≤ daysInMonth yearNumber month, rest)

/-- A time of day, with a fraction of a second behind a point or comma. -/
def readTime? (text : Bytes) : Option Bytes := do
  let (hour, rest) ← shortNumber? text
  guard (hour < 24)
  let rest ← behind? ':' rest
  let (minute, rest) ← shortNumber? rest
  guard (minute < 60)
  let rest ← behind? ':' rest
  let (second, rest) ← shortNumber? rest
  guard (second < 60)
  match rest with
  | mark :: digit :: _ =>
    if (mark = code '.' ∨ mark = code ',') ∧ isDigit digit then
      some (rest.tail.dropWhile isDigit)
    else some rest
  | _ => some rest

/-- A zone: the letter `Z`, or a sign with hours and minutes. -/
def readZone? (text : Bytes) : Option Bytes :=
  match text with
  | [] => none
  | first :: rest =>
    if first = code 'Z' then some rest
    else do
      guard (first = code '+' ∨ first = code '-')
      let (hours, rest) ← pairNumber? rest
      let rest ← behind? ':' rest
      let (minutes, rest) ← pairNumber? rest
      guard (hours ≤ 24 ∧ minutes ≤ 60)
      some rest

/-- What may stand behind a date: nothing, or a time with a zone, or blanks and a time. -/
def isDateTail : Bytes → Bool
  | [] => true
  | first :: rest =>
    if first = code 'T' ∨ first = code 't' then ((readTime? rest).bind readZone?) = some []
    else if first = code ' ' then readTime? (rest.dropWhile (· = code ' ')) = some []
    else false

/-- A date, or a date with a time. -/
def isTimestamp (text : Bytes) : Bool :=
  match readDate? text with
  | some (true, rest) => isDateTail rest
  | _ => false

/-! ### Numbers -/

/-- An integer with digits of a base, and maybe a sign. -/
def signedInBase? (base : Nat) (text : Bytes) : Option Int := do
  let (negative, digits) := splitSign text
  guard (digits ≠ [])
  let magnitude ← naturalOfDigits? base digits
  return if negative then -magnitude else magnitude

/-- The base that the digits of a number are written in, and the digits behind its mark. A zero
before further digits is the mark of octal numbers. -/
def splitBase (digits : Bytes) : Nat × Bytes :=
  match digits with
  | zero :: letter :: digit :: rest =>
    let letter := Bytes.lowerAscii letter
    if zero ≠ code '0' then (10, digits)
    else if letter = code 'b' then (2, digit :: rest)
    else if letter = code 'o' then (8, digit :: rest)
    else if letter = code 'x' then (16, digit :: rest)
    else (8, digits.tail)
  | [zero, digit] => if zero = code '0' then (8, [digit]) else (10, digits)
  | _ => (10, digits)

/-- An integer in the base that its mark tells. -/
def marked? (text : Bytes) : Option Int := do
  let (negative, digits) := splitSign text
  guard (digits ≠ [])
  let (base, digits) := splitBase digits
  let magnitude ← naturalOfDigits? base digits
  return if negative then -magnitude else magnitude

/-- Integers of 64 bits, signed or without a sign. -/
def inRange (number : Int) : Bool := fitsSigned 64 number || fitsUnsigned 64 number

/-- An integer without underscores. A sign behind the base mark is accepted as well. -/
def integer? (text : Bytes) : Option Int :=
  let signed := text.head? = some (code '+') ∨ text.head? = some (code '-')
  match (marked? text).filter (if signed then fitsSigned 64 else inRange) with
  | some number => some number
  | none => (withInnerSign text).filter (fitsSigned 64)
where
  /-- A number whose sign stands behind its base mark. -/
  withInnerSign (text : Bytes) : Option Int :=
    match text with
    | zero :: letter :: rest =>
      if zero = code '0' ∧ letter = code 'b' then signedInBase? 2 rest
      else if zero = code '0' ∧ letter = code 'o' then signedInBase? 8 rest
      else none
    | _ => none

/-- Digits at the start of a text, and what is behind them. -/
def digits (text : Bytes) : Bytes × Bytes := (text.takeWhile isDigit, text.dropWhile isDigit)

/-- The shape of a decimal floating point number: digits with a point, and maybe an exponent. -/
def isDecimal (text : Bytes) : Bool :=
  let (_, unsigned) := splitSign text
  let (whole, rest) := digits unsigned
  match rest with
  | point :: fraction =>
    if point = code '.' then
      let (places, rest) := digits fraction
      (whole ≠ [] || places ≠ []) && isExponent rest
    else whole ≠ [] && isExponent rest
  | [] => whole ≠ []
where
  /-- Nothing, or the letter of an exponent with a number. -/
  isExponent (text : Bytes) : Bool :=
    match text with
    | [] => true
    | letter :: rest =>
      let (_, unsigned) := splitSign rest
      Bytes.lowerAscii letter = code 'e' && unsigned ≠ [] && unsigned.all isDigit

/-! ### Scalars -/

/-- The value of a scalar. -/
inductive Scalar where
  | null
  | boolean (value : Bool)
  | integer (value : Int)
  | real (value : Double)
  | timestamp
  | text (bytes : Bytes)
  deriving DecidableEq

def Scalar.tag : Scalar → Bytes
  | .null => "!!null"
  | .boolean _ => "!!bool"
  | .integer _ => "!!int"
  | .real _ => "!!float"
  | .timestamp => "!!timestamp"
  | .text _ => "!!str"

/-- The words with a meaning of their own. -/
def words : List (Bytes × Scalar) := [
  ("", .null), ("~", .null), ("null", .null), ("Null", .null), ("NULL", .null),
  ("true", .boolean true), ("True", .boolean true), ("TRUE", .boolean true),
  ("false", .boolean false), ("False", .boolean false), ("FALSE", .boolean false),
  (".nan", .real .nan), (".NaN", .real .nan), (".NAN", .real .nan),
  (".inf", .real (.infinity false)), (".Inf", .real (.infinity false)),
  (".INF", .real (.infinity false)), ("+.inf", .real (.infinity false)),
  ("+.Inf", .real (.infinity false)), ("+.INF", .real (.infinity false)),
  ("-.inf", .real (.infinity true)), ("-.Inf", .real (.infinity true)),
  ("-.INF", .real (.infinity true))]

/-- A text that starts with a digit or a sign as a number. Underscores do not count. -/
def number? (text : Bytes) : Option Scalar :=
  let plain := text.filter (· ≠ code '_')
  match integer? plain with
  | some number => some (.integer number)
  | none =>
    if isDecimal plain then (readReal? plain).map .real else none

/-- The value that a text stands for by itself. Dates are recognized only if they may be. -/
def implicitValue (dates : Bool) (text : Bytes) : Scalar :=
  match words.lookup text with
  | some scalar => scalar
  | none =>
    match text with
    | [] => .null
    | first :: _ =>
      if first = code '.' then ((readReal? text).map .real).getD (.text text)
      else if isDigit first ∨ first = code '+' ∨ first = code '-' then
        if dates && isTimestamp text then .timestamp else (number? text).getD (.text text)
      else .text text

/-- The tag of a plain scalar without one of its own. The sign of a merge is not a value. -/
def plainTag (text : Bytes) : Bytes :=
  if text = "<<" then "!!merge" else (implicitValue true text).tag

/-- Why a text has no value under a tag: by itself it has another tag, or it is not in base 64. -/
inductive Contradiction where
  | otherTag (found : Bytes)
  | notBase64
  deriving DecidableEq

/-- The tags that demand a kind of value. -/
def demandingTags : List Bytes := ["!!null", "!!bool", "!!int", "!!float", "!!timestamp"]

/-- The value of a scalar with a tag that demands one. An integer of 64 bits with a sign is also a
floating point number. -/
def resolveDemanded (tag text : Bytes) : Except Contradiction Scalar :=
  let value := implicitValue (tag = "!!timestamp") text
  if value.tag = tag then .ok value
  else match value with
    | .integer number =>
      if tag = "!!float" ∧ fitsSigned 64 number then .ok (.real (.ofInt number))
      else .error (.otherTag value.tag)
    | _ => .error (.otherTag value.tag)

/-- The value of a scalar with a tag. -/
def resolve (tag text : Bytes) : Except Contradiction Scalar :=
  if tag ∈ demandingTags then resolveDemanded tag text
  else if tag = "!!binary" then
    match Text.Base64.decode? text with
    | some bytes => .ok (.text bytes)
    | none => .error .notBase64
  else .ok (.text text)

end Pascaline.Yaml
