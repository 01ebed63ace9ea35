/-
Lowering of programs. Every node becomes code at the insertion point; expressions leave a value
and statements do not. Operands are lowered from left to right.
-/

import Pascaline.Analysis
import Pascaline.IR.Flow
import Pascaline.Lowering.Conversion
import Pascaline.Lowering.Storage

namespace Pascaline.Lowering

open IR (Build Operand)

/-! ### Operands -/

/-- A child that must leave a value. -/
def operand (child : Node) (lowered : Lower (Option Operand)) : Lower Operand :=
  if child.isMissing then fail .missingOperand
  else do
    match ← located child.position lowered with
    | some value => return value
    | none => fail (.noValue child.sortText)

/-- An index, as a 32-bit integer. -/
def lowerIndex (lowered : Lower Operand) : Lower Operand :=
  within .index do
    let value ← lowered
    expectCategory "index" .integral value
    build (resize value .i32)

/-- The condition of a branch, which must be a boolean. -/
def lowerCondition (lowered : Lower Operand) : Lower Operand := do
  let value ← within .condition lowered
  expectCategory "condition" .logical value
  return value

/-! ### Expressions -/

def lowerIdentifier (routine : Routine) (name : Bytes) : Lower Operand := do
  let (_, address) ← routine.scalarStorage name "array used without index"
  build (read address)

def lowerElement (routine : Routine) (name : Bytes) (index : Lower Operand) : Lower Operand := do
  let index ← lowerIndex index
  let (_, address) ← routine.storage name (some index)
  build (Build.load address)

/-- Both operands of an operator. -/
def lowerPair (left right : Lower Operand) : Lower (Operand × Operand) := do
  let leftValue ← within .left left
  let rightValue ← within .right right
  return (leftValue, rightValue)

def lowerBinary (operator : Bytes) (left right : Lower Operand) : Lower Operand := do
  let (left, right) ← lowerPair left right
  let (left, right, category) ← unify (Operator.canonical operator) left right
  match Operator.arithmetic? category operator with
  | some operation => build (Build.binary operation left right)
  | none => failWith (.operator operator category.text)

/-- The number one as an operand like another. -/
def one? (operand : Operand) : Option Operand :=
  match operand.type with
  | .int type => some (.int type 1)
  | .float _ => some (.float .one)
  | _ => none

/-- An increment or decrement of a variable, whose old value is the result. -/
def lowerPostfix (routine : Routine) (operator : Bytes) (target : Node) : Lower Operand :=
  match target with
  | .identifier _ name => do
    let (_, address) ← routine.scalarStorage name "postfix on whole array"
    let old ← build (read address)
    let category := old.type.category
    match Operator.arithmetic? category operator, one? old, Operator.isPostfix operator with
    | some operation, some one, true =>
      build do Build.store address (← Build.binary operation old one)
      return old
    | _, _, _ => failWith (.operator operator category.text)
  | _ => failWith (.unsupported ("postfix " ++ operator ++ " of " ++ target.sortText))

def lowerUnary (operator : Bytes) (operand : Lower Operand) : Lower Operand := do
  let value ← operand
  let category := value.type.category
  if operator = "+" ∧ (category = .integral ∨ category = .floating) then return value
  else if operator = "-" ∧ category = .integral then
    match value.type with
    | .int type => build (Build.binary (.int .sub) (.int type 0) value)
    | _ => return value
  else if operator = "-" ∧ category = .floating then
    build (Build.binary (.float .sub) (.float .zero) value)
  else if Operator.isNot operator then negate value
  else failWith (.operator operator category.text)

def lowerComparison (operator : Bytes) (left right : Lower Operand) : Lower Operand := do
  let (left, right) ← lowerPair left right
  let (left, right, category) ← unify (Operator.canonical operator) left right
  match Operator.comparison? category operator with
  | some predicate => build (Build.compare predicate left right)
  | none => failWith (.operator operator category.text)

/-- A connective, which always has both operands evaluated. -/
def lowerLogical (operator : Bytes) (left right : Lower Operand) : Lower Operand := do
  if Operator.isNot operator then negate (← right)
  else
    let (left, right) ← lowerPair left right
    match Operator.connective? operator with
    | some operation =>
      let leftTruth ← truth left
      let rightTruth ← truth right
      build (Build.binary operation leftTruth rightTruth)
    | none => failWith (.operator operator Category.logical.text)

/-! ### Assignments -/

def lowerAssignment (routine : Routine) (name : Bytes) (value : Lower Operand) : Lower Unit := do
  let (symbol, address) ← routine.scalarStorage name "assignment to whole array"
  let fitted ← fit name symbol.kind.native (← value)
  build (Build.store address fitted)

/-- An assignment to an element, whose index comes before the value. -/
def lowerElementAssignment (routine : Routine) (name : Bytes) (index value : Lower Operand) :
    Lower Unit := do
  let index ← lowerIndex index
  let (symbol, address) ← routine.storage name (some index)
  let fitted ← fit name symbol.kind.native (← value)
  build (Build.store address fitted)

/-! ### Control -/

/-- Goes to a block, unless the current one has its terminator already. -/
def branchTo (block : Nat) : Lower Unit := do
  if !(← get).builder.terminated then build (Build.branch block)

def lowerConditional (condition : Lower Operand) (consequent alternative : Lower Unit) :
    Lower Unit := do
  let test ← lowerCondition condition
  let whenTrue ← build (Build.newBlock "if.then")
  let whenFalse ← build (Build.newBlock "if.else")
  let after ← build (Build.newBlock "if.end")
  build (Build.branchIf test whenTrue whenFalse)
  build (Build.moveTo whenTrue)
  within .consequent (inScope consequent)
  branchTo after
  build (Build.moveTo whenFalse)
  within .alternative (inScope alternative)
  branchTo after
  build (Build.moveTo after)

/-- A loop that tests before its body. -/
def lowerWhile (condition : Lower Operand) (body : Lower Unit) : Lower Unit := do
  let testing ← build (Build.newBlock "while.cond")
  let running ← build (Build.newBlock "while.body")
  let after ← build (Build.newBlock "while.end")
  build (Build.branch testing)
  build (Build.moveTo testing)
  let test ← lowerCondition condition
  build (Build.branchIf test running after)
  build (Build.moveTo running)
  within .body (inScope body)
  branchTo testing
  build (Build.moveTo after)

/-- A loop that tests after its body, in the same scope, and ends when the test holds. -/
def lowerRepeat (body : Lower Unit) (condition : Lower Operand) : Lower Unit := do
  let running ← build (Build.newBlock "repeat.body")
  let testing ← build (Build.newBlock "repeat.cond")
  let after ← build (Build.newBlock "repeat.end")
  inScope do
    build (Build.branch running)
    build (Build.moveTo running)
    within .body body
    branchTo testing
    build (Build.moveTo testing)
    let test ← lowerCondition condition
    build (Build.branchIf test after running)
    build (Build.moveTo after)

/-- A loop with a start and a step, all in one scope. -/
def lowerFor (start : Lower Unit) (condition : Lower Operand) (step body : Lower Unit) :
    Lower Unit :=
  inScope do
    within .start start
    let testing ← build (Build.newBlock "for.cond")
    let running ← build (Build.newBlock "for.body")
    let after ← build (Build.newBlock "for.end")
    build (Build.branch testing)
    build (Build.moveTo testing)
    let test ← lowerCondition condition
    build (Build.branchIf test running after)
    build (Build.moveTo running)
    within .body body
    within .step step
    branchTo testing
    build (Build.moveTo after)

/-! ### Routines -/

def resolveParams : List Param → Lower (List Kind)
  | [] => return []
  | param :: params => do
    let kind ← within (.param param.name) (resolve param.type)
    return kind :: (← resolveParams params)

/-- The kind of a result; a routine without a result type is a procedure. -/
def resolveResult (result : Bytes) : Lower Kind :=
  if result = [] then return .none else within .result (resolve result)

/-- Ends the body of a routine. A procedure returns at its end; in a function no block that can be
reached may lack its terminator, and a block that cannot be reached ends as unreachable. -/
def finishRoutine (routine : Routine) (name : Bytes) : Lower Unit := do
  let builder := (← get).builder
  if builder.terminated then return ()
  else if routine.result = .none then build (Build.ret none)
  else if ((builder.function? routine.function).map IR.Function.openBlocks).getD [] ≠ [] then
    failWith (.named .missingReturn name)
  else build Build.unreachable

/-- A routine, whose function gets a name of its own if its name is taken. -/
def lowerRoutine (name : Bytes) (params : List Param) (result : Bytes)
    (body : Routine → Lower Unit) : Lower Unit := do
  if isReserved name then failWith (.named .duplicateDeclaration name)
  let kinds ← resolveParams params
  let resultKind ← resolveResult result
  declare fun table => table.declareRoutine name kinds resultKind
  aside do
    let signature : Signature := { params := kinds.map Kind.native, result := resultKind.native }
    let function ← build (Build.defineFunction name signature (params.map Param.name))
    updateSymbol name fun symbol => { symbol with code := some function }
    enterRoutine { function, result := resultKind }
    inScope do
      let routine ← currentRoutine
      routine.declareParams 0 params kinds
      within (.routine name) (body routine)
      finishRoutine routine name

/-- A routine that can be called by a name: its function and the kinds of its parameters. -/
def callable (name : Bytes) (count : Nat) : Lower (Nat × List Kind) := do
  match ← find? name with
  | some { shape := .routine params, code := some code, .. } =>
    if count ≠ params.length then failWith (.arity name params.length count)
    else return (code, params)
  | _ => failWith (.named .unknownFunction name)

/-- A value of exactly the type of a kind. -/
def expectType (name : Bytes) (kind : Kind) (value : Operand) : Lower Unit :=
  if kind.native.same value.type then return ()
  else failWith (.mismatch name kind.native.text value.type.text)

/-- The return from a routine. The main routine returns zero if no value is given. -/
def lowerReturn (routine : Routine) (value : Option (Lower Operand)) : Lower Unit :=
  match value with
  | some value =>
    if routine.result = .none then failWith (.mismatch "return" Kind.none.text "value")
    else do
      let value ← within .return value
      expectType "return" routine.result value
      build (Build.ret (some value))
  | none =>
    if routine.result = .none then build (Build.ret none)
    else if routine.isMain then build (Build.ret (some (.int .i32 0)))
    else failWith (.mismatch "return" routine.result.text Kind.none.text)

/-! ### Output and input -/

/-- The external functions that print and read take a format and any further arguments. -/
def formattedSignature : Signature := { params := [.bytes], result := .i32, variadic := true }

/-- The number of an external function, which is declared the first time that it is needed and
kept from then on. -/
def external (service : Service) : Lower Nat := do
  match (← get).externals.number? service with
  | some function => return function
  | none =>
    let function ← build (Build.declareFunction service.name formattedSignature)
    modify fun workspace =>
      { workspace with externals := workspace.externals.keep service function }
    return function

/-- A call of an external function that works by a format. -/
def callFormatted (service : Service) (formatName format : Bytes) (args : List Operand) :
    Lower Unit := do
  let text ← build (Build.string formatName format)
  let function ← external service
  let _ ← build (Build.call function (text :: args))

/-- A printed argument: the conversion that prints it, and its promoted value. -/
def lowerPrinted (position : Nat) (value : Operand) : Lower (Bytes × Operand) :=
  match value.type.printFormat? with
  | some format => return (format, ← build (promote value))
  | none =>
    failWith (.mismatch ("output arg " ++ Bytes.ofNat position) "printable"
      value.type.category.text)

/-- Prints all arguments and a line end at once. -/
def lowerOutput (printed : List (Bytes × Operand)) : Lower Unit :=
  callFormatted .printf ".fmt" (printed.flatMap Prod.fst ++ "\n") (printed.map Prod.snd)

/-- Reads one value into a variable or an element. -/
def lowerInput (symbol : Symbol) (address : Operand) : Lower Unit :=
  match symbol.kind.native.scanFormat? with
  | some format => callFormatted .scanf ".scan" format [address]
  | none => failWith (.mismatch symbol.name "readable" symbol.kind.text)

/-! ### Nodes -/

/-- A statement, which leaves no value. -/
def statement (step : Lower Unit) : Lower (Option Operand) := do
  step
  return none

/-- A node whose value, if it has one, is not used. -/
def discarding (node : Node) (lowered : Lower (Option Operand)) : Lower Unit := do
  let _ ← located node.position lowered

mutual

/-- Lowers a node. The position of the node is given to its failures by whoever asks for it. -/
def lowerNode (node : Node) (routine : Routine) : Lower (Option Operand) :=
  match node with
  | .missing => fail .missingNode
  | .integer _ value => return some (.int .i32 value.toInt64)
  | .real _ value => return some (.float value)
  | .char _ value => return some (.int .i8 value.toInt8.toInt64)
  | .boolean _ value => return some (.ofBool value)
  | .string _ value => some <$> build (Build.string ".str" value)
  | .date _ value => some <$> build (Build.string ".date" value)
  | .identifier _ name => some <$> lowerIdentifier routine name
  | .declaration _ name type =>
    statement (routine.declareVariable name type fun kind table => table.declareScalar name kind)
  | .arrayDeclaration _ name type first last =>
    statement (routine.declareVariable name type fun kind table =>
      table.declareArray name kind first last)
  | .assignment _ name value =>
    statement (lowerAssignment routine name (operand value (lowerNode value routine)))
  | .arrayAssignment _ name index value =>
    statement (
      if index.isMissing then
        lowerAssignment routine name (operand value (lowerNode value routine))
      else lowerElementAssignment routine name (operand index (lowerNode index routine))
        (operand value (lowerNode value routine)))
  | .arrayAccess _ name index =>
    some <$> lowerElement routine name (operand index (lowerNode index routine))
  | .binary _ operator left right =>
    if right.isMissing then some <$> lowerPostfix routine operator left
    else some <$> lowerBinary operator (operand left (lowerNode left routine))
      (operand right (lowerNode right routine))
  | .unary _ operator child =>
    some <$> lowerUnary operator (operand child (lowerNode child routine))
  | .comparison _ operator left right =>
    some <$> lowerComparison operator (operand left (lowerNode left routine))
      (operand right (lowerNode right routine))
  | .logical _ operator left right =>
    some <$> lowerLogical operator (operand left (lowerNode left routine))
      (operand right (lowerNode right routine))
  | .conditional _ condition consequent alternative =>
    statement (lowerConditional (operand condition (lowerNode condition routine))
      (lowerNodes consequent routine) (lowerNodes alternative routine))
  | .forLoop _ start condition step body =>
    statement (lowerFor (discarding start (lowerNode start routine))
      (operand condition (lowerNode condition routine))
      (discarding step (lowerNode step routine)) (lowerNodes body routine))
  | .whileLoop _ condition body =>
    statement (lowerWhile (operand condition (lowerNode condition routine))
      (lowerNodes body routine))
  | .repeatLoop _ body condition =>
    statement (lowerRepeat (lowerNodes body routine)
      (operand condition (lowerNode condition routine)))
  | .procedure _ name params body =>
    statement (lowerRoutine name params [] fun inner => lowerNodes body inner)
  | .function _ name params result body =>
    statement (lowerRoutine name params result fun inner => lowerNodes body inner)
  | .call _ name args => do
    let (function, kinds) ← callable name args.length
    let values ← lowerArguments name 0 args kinds routine
    build (Build.call function values)
  | .return _ value =>
    statement (lowerReturn routine
      (if value.isMissing then none else some (operand value (lowerNode value routine))))
  | .output _ args => statement do lowerOutput (← lowerPrintedList 0 args routine)
  | .input _ target =>
    match target with
    | .identifier _ name => statement do
      let (symbol, address) ← routine.scalarStorage name "input into whole array"
      lowerInput symbol address
    | .arrayAccess _ name index => statement do
      let index ← lowerIndex (operand index (lowerNode index routine))
      let (symbol, address) ← routine.storage name (some index)
      lowerInput symbol address
    | _ => failWith (.unsupported target.sortText)
  | .block _ statements => statement (lowerNodes statements routine)

/-- Lowers nodes one after the other. -/
def lowerNodes (nodes : List Node) (routine : Routine) : Lower Unit :=
  match nodes with
  | [] => return ()
  | node :: rest => do
    discarding node (lowerNode node routine)
    lowerNodes rest routine

/-- Lowers the arguments of a call, each of exactly the type of its parameter. -/
def lowerArguments (name : Bytes) (position : Nat) (nodes : List Node) (kinds : List Kind)
    (routine : Routine) : Lower (List Operand) :=
  match nodes with
  | [] => return []
  | node :: rest => do
    let value ← within (.argument position) (operand node (lowerNode node routine))
    expectType name ((kinds[position]?).getD .none) value
    return value :: (← lowerArguments name (position + 1) rest kinds routine)

/-- Lowers the arguments of an output. -/
def lowerPrintedList (position : Nat) (nodes : List Node) (routine : Routine) :
    Lower (List (Bytes × Operand)) :=
  match nodes with
  | [] => return []
  | node :: rest => do
    let value ← within (.argument position) (operand node (lowerNode node routine))
    let printed ← lowerPrinted position value
    return printed :: (← lowerPrintedList (position + 1) rest routine)

end

/-! ### Programs -/

/-- Lowers a program into the main function of a module, which returns zero at its end. -/
def lowerProgram (program : Program) : Lower Unit := do
  let function ← build (Build.defineFunction "main" { params := [], result := .i32 } [])
  enterRoutine { function, result := .integer, isMain := true }
  inScope do
    lowerNodes program (← currentRoutine)
    if !(← get).builder.terminated then build (Build.ret (some (.int .i32 0)))

end Pascaline.Lowering
