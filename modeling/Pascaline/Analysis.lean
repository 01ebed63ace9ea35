/-
Semantic analysis: names, types and declarations of a whole program. The analysis never stops
early, so every fault is reported, each at the position of the node where it was found.
-/

import Pascaline.Operator
import Pascaline.Symbol.Table
import Pascaline.Tree

namespace Pascaline.Analysis

/-- The names in scope and the faults found so far. -/
structure State where
  table : Table := .empty
  faults : Array Fault := #[]
  deriving DecidableEq

/-- A check that may report faults and tells whether it found none. -/
abbrev Check := StateM State

/-- Reports a fault. -/
def report (fault : Fault) : Check Bool := do
  modify fun state => { state with faults := state.faults.push fault }
  return false

/-- Reports a fault at a node, unless it has a position already. -/
def reportAt (node : Node) (fault : Fault) : Check Bool :=
  report (fault.locatedIfUnplaced node.position)

def reportDiagnostic (node : Node) (diagnostic : Diagnostic) : Check Bool :=
  reportAt node (.diagnostic diagnostic)

/-- Runs a check in a scope of its own. -/
def inScope (check : Check Bool) : Check Bool := do
  modify fun state => { state with table := state.table.enter }
  let good ← check
  modify fun state => { state with table := state.table.exit }
  return good

/-- Declares a symbol, or reports why it cannot be declared. -/
def declare (node : Node) (declaration : Table → Except Fault Table) : Check Bool := do
  match declaration (← get).table with
  | .ok table =>
    modify fun state => { state with table }
    return true
  | .error fault => reportAt node fault

/-! ### Names and types -/

/-- A reference to a name. -/
def checkReference (node : Node) (name : Bytes) : Check Bool := do
  if (← get).table.isDeclared name then return true
  else reportDiagnostic node (.named .undeclaredIdentifier name)

/-- The kind of a type name. An unknown name is reported and stands for no kind. -/
def resolve (node : Node) (type : Bytes) : Check (Bool × Kind) := do
  match Kind.ofName? type with
  | some kind => return (true, kind)
  | none => return (← reportDiagnostic node (.named .unknownType type), .none)

/-- The kinds of the parameters of a routine. -/
def resolveParams (node : Node) : List Param → Check (Bool × List Kind)
  | [] => return (true, [])
  | param :: params => do
    let (good, kind) ← resolve node param.type
    let (goodRest, kinds) ← resolveParams node params
    return (good && goodRest, kind :: kinds)

/-- The kind of a result; a routine without a result type is a procedure. -/
def resolveResult (node : Node) (result : Bytes) : Check (Bool × Kind) :=
  if result = [] then return (true, .none) else resolve node result

/-! ### Declarations -/

/-- The declaration of a variable. -/
def checkDeclaration (node : Node) (name type : Bytes)
    (declaration : Kind → Table → Except Fault Table) : Check Bool := do
  let (good, kind) ← resolve node type
  if (← get).table.declaredHere name || isReserved name then
    reportDiagnostic node (.named .duplicateDeclaration name)
  else
    let declared ← declare node (declaration kind)
    return declared && good

/-- The parameters of a routine, declared in the scope of its body. -/
def declareParams (node : Node) : List Param → List Kind → Check Bool
  | param :: params, kind :: kinds => do
    let declared ← declare node fun table => table.declareScalar param.name kind
    let declaredRest ← declareParams node params kinds
    return declared && declaredRest
  | _, _ => return true

/-- A routine, which is declared before its body so that it can call itself. -/
def checkRoutine (node : Node) (name : Bytes) (params : List Param) (result : Bytes)
    (body : Check Bool) : Check Bool := do
  let (goodParams, kinds) ← resolveParams node params
  let (goodResult, kind) ← resolveResult node result
  let goodName ← if isReserved name then
      reportDiagnostic node (.named .duplicateDeclaration name)
    else pure true
  let declared ← declare node fun table => table.declareRoutine name kinds kind
  let goodBody ← inScope do
    let declaredParams ← declareParams node params kinds
    let goodBody ← body
    return declaredParams && goodBody
  return goodParams && goodResult && goodName && declared && goodBody

/-! ### Nodes -/

/-- A child that must be there. -/
def required (parent child : Node) (check : Check Bool) : Check Bool :=
  if child.isMissing then
    reportDiagnostic parent (.unsupported (parent.sortText ++ ": missing operand"))
  else check

/-- A variable with an increment or decrement behind it. -/
def checkPostfix (node : Node) (operator : Bytes) (operand : Node) : Check Bool :=
  if Operator.isPostfix operator then
    match operand with
    | .identifier _ name => checkReference node name
    | _ =>
      reportDiagnostic node
        (.unsupported ("postfix " ++ operator ++ " of " ++ operand.sortText))
  else reportDiagnostic node (.unsupported (node.sortText ++ ": missing operand"))

/-- A call of a routine whose arguments have been checked. -/
def checkCallee (node : Node) (name : Bytes) : Check Bool := do
  if ((← get).table.find? name).any Symbol.isRoutine then return true
  else reportDiagnostic node (.named .unknownFunction name)

/-- Both checks, the first one first. -/
def both (first second : Check Bool) : Check Bool := do
  let good ← first
  let goodToo ← second
  return good && goodToo

mutual

/-- Checks a node, its children before itself. -/
def checkNode (node : Node) : Check Bool :=
  match node with
  | .missing => report (.diagnostic (.unsupported node.sortText))
  | .integer .. | .real .. | .char .. | .string .. | .date .. | .boolean .. => return true
  | .identifier _ name => checkReference node name
  | .declaration _ name type =>
    checkDeclaration node name type fun kind table => table.declareScalar name kind
  | .arrayDeclaration _ name type first last =>
    checkDeclaration node name type fun kind table => table.declareArray name kind first last
  | .assignment _ name value =>
    both (required node value (checkNode value)) (checkReference node name)
  | .arrayAssignment _ name index value =>
    both (both (required node index (checkNode index)) (required node value (checkNode value)))
      (checkReference node name)
  | .arrayAccess _ name index =>
    both (required node index (checkNode index)) (checkReference node name)
  | .binary _ operator left right =>
    if right.isMissing then checkPostfix node operator left
    else both (required node left (checkNode left)) (required node right (checkNode right))
  | .comparison _ _ left right =>
    both (required node left (checkNode left)) (required node right (checkNode right))
  | .logical _ operator left right =>
    if Operator.isNot operator then required node right (checkNode right)
    else both (required node left (checkNode left)) (required node right (checkNode right))
  | .unary _ _ operand => required node operand (checkNode operand)
  | .conditional _ condition consequent alternative =>
    both (required node condition (checkNode condition))
      (both (inScope (checkNodes consequent)) (inScope (checkNodes alternative)))
  | .forLoop _ start condition step body =>
    inScope (both (required node start (checkNode start))
      (both (required node condition (checkNode condition))
        (both (required node step (checkNode step)) (checkNodes body))))
  | .whileLoop _ condition body =>
    both (required node condition (checkNode condition)) (inScope (checkNodes body))
  | .repeatLoop _ body condition =>
    inScope (both (checkNodes body) (required node condition (checkNode condition)))
  | .procedure _ name params body => checkRoutine node name params [] (checkNodes body)
  | .function _ name params result body => checkRoutine node name params result (checkNodes body)
  | .call _ name args => both (checkOperands node args) (checkCallee node name)
  | .return _ value => if value.isMissing then return true else checkNode value
  | .output _ args => checkOperands node args
  | .input _ target =>
    match target with
    | .identifier .. | .arrayAccess .. => checkNode target
    | _ => reportDiagnostic node (.unsupported ("input target " ++ target.sortText))
  | .block _ statements => checkNodes statements

/-- Checks all nodes of a list. -/
def checkNodes (nodes : List Node) : Check Bool :=
  match nodes with
  | [] => return true
  | node :: rest => both (checkNode node) (checkNodes rest)

/-- Checks all operands of a node, which must be there. -/
def checkOperands (parent : Node) (nodes : List Node) : Check Bool :=
  match nodes with
  | [] => return true
  | node :: rest => both (required parent node (checkNode node)) (checkOperands parent rest)

end

/-- Checks a program in a scope of its own. -/
def checkProgram (program : Program) : Check Bool := inScope (checkNodes program)

/-- Checks a program: whether it is good, and what was found. -/
def analyze (program : Program) (start : State) : Bool × State := (checkProgram program).run start

end Pascaline.Analysis
