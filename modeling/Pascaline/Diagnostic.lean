/-
Diagnostics: what is wrong with a program, of which kind, where, and with the names and types
involved. The text of a diagnostic is fixed by its fields.
-/

import Pascaline.Text.Quoted

namespace Pascaline

namespace Diagnostic

/-- The kinds of diagnostics. Numbers outside the list are kinds without a name. -/
inductive Kind where
  | unknownType
  | undeclaredIdentifier
  | duplicateDeclaration
  | invalidArrayBounds
  | typeMismatch
  | unknownOperator
  | arityMismatch
  | unknownFunction
  | missingReturn
  | malformedArrayAccess
  | unsupportedNode
  | unnamed (code : Int)
  deriving DecidableEq

def Kind.text : Kind → Bytes
  | .unknownType => "unknown type"
  | .undeclaredIdentifier => "undeclared identifier"
  | .duplicateDeclaration => "duplicate declaration"
  | .invalidArrayBounds => "invalid array bounds"
  | .typeMismatch => "type mismatch"
  | .unknownOperator => "unknown operator"
  | .arityMismatch => "arity mismatch"
  | .unknownFunction => "unknown function"
  | .missingReturn => "missing return"
  | .malformedArrayAccess => "malformed array access"
  | .unsupportedNode => "unsupported node"
  | .unnamed code => "error(" ++ Bytes.ofInt code ++ ")"

end Diagnostic

/-- A diagnostic. Position zero means that it has no position, and empty texts are left out. -/
structure Diagnostic where
  kind : Diagnostic.Kind
  position : Int := 0
  name : Bytes := []
  expected : Bytes := []
  found : Bytes := []
  message : Bytes := []
  deriving DecidableEq

namespace Diagnostic

/-- A name that is wrong by itself. -/
def named (kind : Kind) (name : Bytes) : Diagnostic := { kind, name }

/-- A type or category other than the expected one. -/
def mismatch (name expected found : Bytes) : Diagnostic :=
  { kind := .typeMismatch, name, expected, found }

/-- A wrong number of arguments. -/
def arity (name : Bytes) (expected found : Int) : Diagnostic :=
  { kind := .arityMismatch, name, expected := Bytes.ofInt expected, found := Bytes.ofInt found }

/-- An operator that is not defined for the category of its operands. -/
def operator (name found : Bytes) : Diagnostic := { kind := .unknownOperator, name, found }

/-- An array whose last index is before its first. -/
def bounds (name : Bytes) (first last : Int) : Diagnostic :=
  { kind := .invalidArrayBounds, name,
    message := "[" ++ Bytes.ofInt first ++ ".." ++ Bytes.ofInt last ++ "]" }

/-- A node that cannot stand where it stands. -/
def unsupported (message : Bytes) : Diagnostic := { kind := .unsupportedNode, message }

/-- A wrong use of an array. -/
def malformedAccess (name message : Bytes) : Diagnostic :=
  { kind := .malformedArrayAccess, name, message }

/-- The diagnostic moved to a position. -/
def located (diagnostic : Diagnostic) (position : Int) : Diagnostic := { diagnostic with position }

/-- The diagnostic at a position, unless it has one already. -/
def locatedIfUnplaced (diagnostic : Diagnostic) (position : Int) : Diagnostic :=
  if diagnostic.position = 0 then diagnostic.located position else diagnostic

def positionText (position : Int) : Bytes :=
  if 0 < position then "pos " ++ Bytes.ofInt position ++ ": " else []

def nameText (name : Bytes) : Bytes := if name = [] then [] else " " ++ Text.quote name

/-- What was expected and found; an unknown operator tells only what it was applied to. -/
def comparisonText (diagnostic : Diagnostic) : Bytes :=
  if diagnostic.kind = .unknownOperator ∧ diagnostic.found ≠ [] then " for " ++ diagnostic.found
  else if diagnostic.expected ≠ [] ∨ diagnostic.found ≠ [] then
    ": expected " ++ diagnostic.expected ++ ", found " ++ diagnostic.found
  else []

def messageText (message : Bytes) : Bytes := if message = [] then [] else ": " ++ message

def text (diagnostic : Diagnostic) : Bytes :=
  positionText diagnostic.position ++ diagnostic.kind.text ++ nameText diagnostic.name ++
    diagnostic.comparisonText ++ messageText diagnostic.message

/-- The text of several reports: one is written alone, more are counted and listed. -/
def listText : List Bytes → Bytes
  | [] => "no errors"
  | [text] => text
  | texts =>
    let item (text : Bytes) : Bytes := "\n\t" ++ text
    Bytes.ofNat texts.length ++ " errors:" ++ texts.flatMap item

end Diagnostic

end Pascaline
