/-
Programs in documents. A program is a list of nodes, and a node is a mapping of one key, which
tells the kind of the node, to its content. The position of a node is the line of its key.
-/

import Pascaline.Failure
import Pascaline.Reader.Params
import Pascaline.Yaml.Node.Parser

namespace Pascaline.Reader

open Yaml (Document)

/-! ### Failures -/

/-- The places inside a document that pass a failure on. -/
inductive Stage where
  | document
  | item (index : Nat)
  | kind (name : Bytes)
  | field (name : Bytes)
  deriving DecidableEq

def Stage.text : Stage → Bytes
  | .document => "yaml"
  | .item index => "item " ++ Bytes.ofNat index
  | .kind name => name
  | .field name => name

/-- Why a document is not a program. -/
inductive Cause where
  | malformed (error : Yaml.SyntaxError)
  | notList (line : Nat)
  | notNode (line : Nat)
  | unknownKind (line : Nat) (name : Bytes)
  | notMapping (line : Nat)
  | missingField (field : Bytes)
  | notByte (line : Nat) (text : Bytes)
  | value (failure : ValueFailure)

def Cause.text : Cause → Bytes
  | .malformed error =>
    "yaml: line " ++ Bytes.ofNat error.line ++ ": " ++ Bytes.ofString error.problem
  | .notList line => "line " ++ Bytes.ofNat line ++ ": expected a list of nodes"
  | .notNode line => "line " ++ Bytes.ofNat line ++ ": node must be a single key mapping"
  | .unknownKind line name =>
    "line " ++ Bytes.ofNat line ++ ": unknown node kind " ++ Text.quote name
  | .notMapping line => "line " ++ Bytes.ofNat line ++ ": expected a mapping"
  | .missingField field => "missing " ++ field
  | .notByte line text =>
    "line " ++ Bytes.ofNat line ++ ": char must be one byte, got " ++ Text.quote text
  | .value failure => failure.text

abbrev ReadFailure := Failure Stage Cause

def failureText (failure : ReadFailure) : Bytes := failure.render Stage.text Cause.text

abbrev Read := Except ReadFailure

variable {Value : Type}

def fail (cause : Cause) : Read Value := throw (.bare cause)

/-- Passes a failure on with the place where it happened. -/
def within (stage : Stage) (result : Read Value) : Read Value :=
  result.mapError (Failure.within stage)

/-! ### Readings -/

/-- A node of a document together with what it reads as: a node of a program, a list of such nodes,
and, if it is a mapping, its fields. -/
structure Reading where
  source : Yaml.Node
  node : Read Node
  list : Read (List Node)
  fields : List (Bytes × Reading) := []

/-- The last of the fields with a name. -/
def lastField? (fields : List (Bytes × Reading)) (name : Bytes) : Option Reading :=
  fields.reverse.lookup name

/-- The fields of a mapping. -/
def Reading.mappingFields (reading : Reading) : Read (List (Bytes × Reading)) :=
  match reading.source with
  | .mapping .. => .ok reading.fields
  | other => fail (.notMapping other.line)

/-- A child that may be absent or null. -/
def optional (child : Option Reading) : Read Node :=
  match child with
  | none => .ok .missing
  | some reading => if reading.source.isNull then .ok .missing else reading.node

/-- A child that must be there. -/
def required (field : Bytes) (child : Option Reading) : Read Node :=
  match child with
  | none => fail (.missingField field)
  | some reading =>
    if reading.source.isNull then fail (.missingField field)
    else within (.field field) reading.node

/-- A list of children, empty if it is absent. -/
def children (child : Option Reading) : Read (List Node) :=
  match child with
  | none => .ok []
  | some reading => reading.list

/-- A value that must be there. Null leaves it at the default. -/
def valueOf [Inhabited Value] (convert : Yaml.Node → Convert (Option Value)) (field : Bytes)
    (child : Option Reading) : Read Value :=
  match child with
  | none => fail (.missingField field)
  | some reading =>
    match (convert reading.source).result with
    | .ok value => .ok (value.getD default)
    | .error failure => within (.field field) (fail (.value failure))

/-- The parameters of a routine, none if they are absent or null. -/
def paramsOf (document : Document) (child : Option Reading) : Read (List Param) :=
  match child with
  | none => .ok []
  | some reading =>
    if reading.source.isNull then .ok []
    else match (params { document } reading.source).result with
      | .ok list => .ok list
      | .error failure => within (.field "params") (fail (.value failure))

/-! ### Kinds of nodes -/

/-- The content that a key announces. -/
inductive Form where
  | integer
  | real
  | char
  | string
  | date
  | boolean
  | identifier
  | declaration
  | arrayDeclaration
  | assignment
  | arrayAccess
  | binary
  | unary
  | postfixed
  | comparison
  | logical
  | conditional
  | forLoop
  | whileLoop
  | repeatLoop
  | procedure
  | function
  | call
  | return
  | output
  | input
  | block
  deriving DecidableEq

/-- The keys of nodes. -/
def forms : List (Bytes × Form) := [
  ("int", .integer), ("real", .real), ("char", .char), ("str", .string), ("date", .date),
  ("bool", .boolean), ("ident", .identifier), ("declare", .declaration),
  ("array", .arrayDeclaration), ("assign", .assignment), ("elem", .arrayAccess),
  ("binary", .binary), ("unary", .unary), ("postfix", .postfixed), ("compare", .comparison),
  ("logical", .logical), ("if", .conditional), ("for", .forLoop), ("while", .whileLoop),
  ("repeat", .repeatLoop), ("procedure", .procedure), ("function", .function), ("call", .call),
  ("return", .return), ("output", .output), ("input", .input), ("block", .block)]

/-- A single byte. -/
def readChar (document : Document) (reading : Reading) : Read UInt8 := do
  match ← valueOf (text { document }) "value" (some reading) with
  | [byte] => return byte
  | written => fail (.notByte reading.source.line written)

/-- An assignment, to an element of an array if there is an index. -/
def readAssignment (document : Document) (position : Int) (content : Reading) : Read Node := do
  let fields ← content.mappingFields
  let name ← valueOf (text { document }) "name" (lastField? fields "name")
  let value ← required "value" (lastField? fields "value")
  match ← within (.field "index") (optional (lastField? fields "index")) with
  | .missing => return .assignment position name value
  | index => return .arrayAssignment position name index value

/-- An operator with two operands, of which the left one may be absent for some. -/
def readOperands (document : Document) (leftOptional : Bool) (content : Reading) :
    Read (Bytes × Node × Node) := do
  let fields ← content.mappingFields
  let operator ← valueOf (text { document }) "op" (lastField? fields "op")
  let left := lastField? fields "left"
  let left ← if leftOptional then optional left else required "left" left
  let right ← required "right" (lastField? fields "right")
  return (operator, left, right)

/-- An operator with one operand. -/
def readOperand (document : Document) (content : Reading) : Read (Bytes × Node) := do
  let fields ← content.mappingFields
  let operator ← valueOf (text { document }) "op" (lastField? fields "op")
  let operand ← required "x" (lastField? fields "x")
  return (operator, operand)

/-- A call, with its arguments or by name alone. -/
def readCall (document : Document) (position : Int) (content : Reading) : Read Node := do
  match content.source with
  | .scalar .. =>
    return .call position (← valueOf (text { document }) "name" (some content)) []
  | _ =>
    let fields ← content.mappingFields
    let name ← valueOf (text { document }) "name" (lastField? fields "name")
    let args ← within (.field "args") (children (lastField? fields "args"))
    return .call position name args

/-- Reads the content of a node. -/
def readForm (document : Document) (form : Form) (position : Int) (content : Reading) :
    Read Node := do
  let textField (fields : List (Bytes × Reading)) (name : Bytes) : Read Bytes :=
    valueOf (text { document }) name (lastField? fields name)
  let child (fields : List (Bytes × Reading)) (name : Bytes) : Read Node :=
    required name (lastField? fields name)
  let body (fields : List (Bytes × Reading)) (name : Bytes) : Read (List Node) :=
    within (.field name) (children (lastField? fields name))
  match form with
  | .integer =>
    return .integer position (← valueOf (shortInteger { document }) "value" (some content))
  | .real => return .real position (← valueOf (real { document }) "value" (some content))
  | .char => return .char position (← readChar document content)
  | .string => return .string position (← valueOf (text { document }) "value" (some content))
  | .date => return .date position (← valueOf (text { document }) "value" (some content))
  | .boolean => return .boolean position (← valueOf (boolean { document }) "value" (some content))
  | .identifier => return .identifier position (← valueOf (text { document }) "name" (some content))
  | .declaration =>
    let fields ← content.mappingFields
    let name ← textField fields "name"
    let type ← textField fields "type"
    return .declaration position name type
  | .arrayDeclaration =>
    let fields ← content.mappingFields
    let name ← textField fields "name"
    let type ← textField fields "type"
    let first ← valueOf (longInteger { document }) "start" (lastField? fields "start")
    let last ← valueOf (longInteger { document }) "end" (lastField? fields "end")
    return .arrayDeclaration position name type first last
  | .assignment => readAssignment document position content
  | .arrayAccess =>
    let fields ← content.mappingFields
    let name ← textField fields "name"
    let index ← child fields "index"
    return .arrayAccess position name index
  | .binary =>
    let (operator, left, right) ← readOperands document false content
    return .binary position operator left right
  | .comparison =>
    let (operator, left, right) ← readOperands document false content
    return .comparison position operator left right
  | .logical =>
    let (operator, left, right) ← readOperands document true content
    return .logical position operator left right
  | .unary =>
    let (operator, operand) ← readOperand document content
    return .unary position operator operand
  | .postfixed =>
    let (operator, operand) ← readOperand document content
    return .binary position operator operand .missing
  | .conditional =>
    let fields ← content.mappingFields
    let condition ← child fields "cond"
    let consequent ← body fields "then"
    let alternative ← body fields "else"
    return .conditional position condition consequent alternative
  | .forLoop =>
    let fields ← content.mappingFields
    let start ← child fields "init"
    let condition ← child fields "cond"
    let step ← child fields "step"
    let statements ← body fields "body"
    return .forLoop position start condition step statements
  | .whileLoop =>
    let fields ← content.mappingFields
    let condition ← child fields "cond"
    let statements ← body fields "body"
    return .whileLoop position condition statements
  | .repeatLoop =>
    let fields ← content.mappingFields
    let statements ← body fields "body"
    let condition ← child fields "until"
    return .repeatLoop position statements condition
  | .procedure =>
    let fields ← content.mappingFields
    let name ← textField fields "name"
    let list ← paramsOf document (lastField? fields "params")
    let statements ← body fields "body"
    return .procedure position name list statements
  | .function =>
    let fields ← content.mappingFields
    let name ← textField fields "name"
    let result ← textField fields "ret"
    let list ← paramsOf document (lastField? fields "params")
    let statements ← body fields "body"
    return .function position name list result statements
  | .call => readCall document position content
  | .return => return .return position (← optional (some content))
  | .output => return .output position (← content.list)
  | .input => return .input position (← required "target" (some content))
  | .block => return .block position (← content.list)

/-! ### Trees -/

/-- The node that a mapping of one key is. -/
def readEntry (document : Document) (key : Yaml.Node) (content : Reading) : Read Node :=
  match forms.lookup key.text with
  | some form => within (.kind key.text) (readForm document form key.line content)
  | none => fail (.unknownKind key.line key.text)

/-- The nodes of the items of a list, from an index on. -/
def readItems (index : Nat) : List Reading → Read (List Node)
  | [] => return []
  | item :: rest => do
    let node ← within (.item index) item.node
    return node :: (← readItems (index + 1) rest)

/-- Keys and values in turn, as fields. -/
def pairFields : List Reading → List (Bytes × Reading)
  | key :: value :: rest => (key.source.text, value) :: pairFields rest
  | _ => []

mutual

/-- Reads a node of a document in all ways that it may be read. -/
def reading (document : Document) : Yaml.Node → Reading
  | .scalar line tag written =>
    { source := .scalar line tag written
      node := fail (.notNode line)
      list := if tag = "!!null" then .ok [] else fail (.notList line) }
  | .sequence line tag items =>
    { source := .sequence line tag items
      node := fail (.notNode line)
      list := readItems 0 (readings document items) }
  | .mapping line tag entries =>
    let contents := readings document entries
    { source := .mapping line tag entries
      node := match contents with
        | [key, content] => readEntry document key.source content
        | _ => fail (.notNode line)
      list := fail (.notList line)
      fields := pairFields contents }
  | .alias line name number place =>
    { source := .alias line name number place
      node := fail (.notNode line)
      list := fail (.notList line) }

def readings (document : Document) : List Yaml.Node → List Reading
  | [] => []
  | node :: rest => reading document node :: readings document rest

end

/-- The program in a document. -/
def readDocument (document : Document) : Read Program := (reading document document.root).list

/-- Reads a program from a text. A text without a document is the empty program. -/
def read (bytes : Bytes) : Read Program :=
  match Yaml.parse bytes with
  | .error error => within .document (fail (.malformed error))
  | .ok none => .ok []
  | .ok (some document) => readDocument document

end Pascaline.Reader
