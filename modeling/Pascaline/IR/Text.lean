/-
The text of a module: its data, its variables and its functions, block by block. Parameters,
stack slots and registers have names of different shapes, so they never collide.
-/

import Pascaline.IR.Basic
import Pascaline.Number.Decimal

namespace Pascaline.IR

/-! ### Names of operations -/

def Arith.text : Arith → Bytes
  | .add => "add"
  | .sub => "sub"
  | .mul => "mul"
  | .div => "div"
  | .rem => "rem"

/-- The name of an operation: integer division is signed, and a code without name is empty. -/
def BinaryOp.text : BinaryOp → Bytes
  | .int .div => "sdiv"
  | .int .rem => "srem"
  | .int op => op.text
  | .float op => "f" ++ op.text
  | .and => "and"
  | .or => "or"
  | .xor => "xor"
  | .unnamed _ => []

def Relation.text : Relation → Bytes
  | .eq => "eq"
  | .ne => "ne"
  | .lt => "lt"
  | .le => "le"
  | .gt => "gt"
  | .ge => "ge"

def Predicate.text : Predicate → Bytes
  | .signed .eq => "eq"
  | .signed .ne => "ne"
  | .signed relation => "s" ++ relation.text
  | .unordered relation => "u" ++ relation.text
  | .unnamed _ => []

def Cast.text : Cast → Bytes
  | .trunc => "trunc"
  | .sext => "sext"
  | .zext => "zext"
  | .unnamed _ => []

/-! ### Data -/

/-- The digit of a number below sixteen, in upper case. -/
def upperHexDigit (digit : Nat) : UInt8 :=
  if digit < 10 then Bytes.code '0' + digit.toUInt8 else Bytes.code 'A' + (digit - 10).toUInt8

/-- One byte of a datum: printable ASCII stands for itself, except the quote and the backslash;
every other byte is a backslash and two hexadecimal digits. -/
def dataByteText (byte : UInt8) : Bytes :=
  if Bytes.code ' ' ≤ byte ∧ byte < 0x7F ∧ byte ≠ Bytes.code '"' ∧ byte ≠ Bytes.code '\\' then
    [byte]
  else [Bytes.code '\\', upperHexDigit (byte.toNat / 16), upperHexDigit (byte.toNat % 16)]

/-- The bytes of a datum between its quotes, closed by a NUL byte. -/
def dataText (bytes : Bytes) : Bytes := bytes.flatMap dataByteText ++ "\\00"

/-- The name of a datum, with its index. -/
def datumName (datum : Datum) (id : Nat) : Bytes := "@" ++ datum.name ++ "." ++ Bytes.ofNat id

def datumText (datum : Datum) (id : Nat) : Bytes :=
  datumName datum id ++ " = private constant [" ++ Bytes.ofNat (datum.bytes.length + 1) ++
    " x i8] c\"" ++ dataText datum.bytes ++ "\"\n"

/-! ### Variables -/

/-- The zero of a type as the start value of a variable. -/
def startText : Ty → Bytes
  | .int type => if type.bits = 1 then "false" else "0"
  | .float _ => "0.0"
  | .ptr _ => "null"
  | _ => "zeroinitializer"

def variableText (global : Variable) : Bytes :=
  "@" ++ global.name ++ " = global " ++ global.type.text ++ " " ++ startText global.type ++ "\n"

/-! ### Operands and instructions -/

namespace Function

def paramName (function : Function) (index : Nat) : Bytes :=
  "%" ++ (function.params[index]?).getD [] ++ ".arg"

def localName (function : Function) (id : Nat) : Bytes :=
  "%" ++ ((function.locals[id]?).map Local.name).getD [] ++ ".addr" ++ Bytes.ofNat id

end Function

def registerName (register : Register) : Bytes := "%t" ++ Bytes.ofNat register.id

def slotName (unit : Module) (function : Function) (slot : Slot) : Bytes :=
  match slot.storage with
  | .global => "@" ++ ((unit.globals[slot.id]?).map Variable.name).getD []
  | .param => function.paramName slot.id
  | .stack => function.localName slot.id

def functionName (unit : Module) (id : Nat) : Bytes :=
  "@" ++ ((unit.functions[id]?).map Function.name).getD []

/-- An operand without its type. Booleans are words, other integers are decimal, and floating
point numbers have six places and an exponent. -/
def operandText (unit : Module) (function : Function) : Operand → Bytes
  | .int type value =>
    if type.bits = 1 then (if value ≠ 0 then "true" else "false") else Bytes.ofInt value.toInt
  | .float value => value.toScientific 6
  | .null => "null"
  | .zeros _ => "zeroinitializer"
  | .data id => ((unit.data[id]?).map fun datum => datumName datum id).getD []
  | .slot slot => slotName unit function slot
  | .reg register => registerName register
  | .function id _ => functionName unit id

def labelName (function : Function) (block : Nat) : Bytes :=
  "%" ++ ((function.blocks[block]?).map Block.label).getD []

/-- An operand behind its type. -/
def typedText (unit : Module) (function : Function) (operand : Operand) : Bytes :=
  operand.type.text ++ " " ++ operandText unit function operand

/-- The type of the array at an address, nothing known for what is not an address. -/
def arrayText : Ty → Bytes
  | .ptr pointee => pointee.text
  | _ => Ty.text .void

/-- A function as written in a call: a variadic one with all its types. -/
def calleeText (unit : Module) (id : Nat) : Bytes :=
  match unit.functions[id]? with
  | none => functionName unit id
  | some callee =>
    (if callee.signature.variadic then callee.signature.type.text
      else callee.signature.resultText) ++ " " ++ functionName unit id

def instrText (unit : Module) (function : Function) (instr : Instr) : Bytes :=
  let operand := operandText unit function
  let typed := typedText unit function
  match instr with
  | .alloca slot => slotName unit function slot ++ " = alloca " ++ slot.type.text
  | .load out address =>
    registerName out ++ " = load " ++ out.type.text ++ ", ptr " ++ operand address
  | .store address value => "store " ++ typed value ++ ", ptr " ++ operand address
  | .elementAddress out base index =>
    registerName out ++ " = getelementptr " ++ arrayText base.type ++ ", ptr " ++ operand base ++
      ", i32 0, " ++ typed index
  | .binary out op left right =>
    registerName out ++ " = " ++ op.text ++ " " ++ typed left ++ ", " ++ operand right
  | .compare out predicate left right =>
    registerName out ++ " = " ++ (if predicate.isFloat then "fcmp " else "icmp ") ++
      predicate.text ++ " " ++ typed left ++ ", " ++ operand right
  | .convert out cast source =>
    registerName out ++ " = " ++ cast.text ++ " " ++ typed source ++ " to " ++ out.type.text
  | .call out callee args =>
    let result : Bytes := match out with
      | some register => registerName register ++ " = "
      | none => []
    result ++ "call " ++ calleeText unit callee ++ "(" ++ Bytes.join ", " (args.map typed) ++ ")"

def terminatorText (unit : Module) (function : Function) : Terminator → Bytes
  | .branch target => "br label " ++ labelName function target
  | .branchIf condition consequent alternative =>
    "br i1 " ++ operandText unit function condition ++ ", label " ++
      labelName function consequent ++ ", label " ++ labelName function alternative
  | .ret none => "ret void"
  | .ret (some value) => "ret " ++ typedText unit function value
  | .unreachable => "unreachable"

/-! ### Functions and modules -/

def lineText (text : Bytes) : Bytes := "\t" ++ text ++ "\n"

def blockText (unit : Module) (function : Function) (block : Block) : Bytes :=
  let ending : Bytes := match block.terminator with
    | some terminator => lineText (terminatorText unit function terminator)
    | none => []
  block.label ++ ":\n" ++
    block.code.toList.flatMap (fun instr => lineText (instrText unit function instr)) ++ ending

/-- The parameters of a function; only those of a defined function have names. -/
def headerParamsText (function : Function) : Bytes :=
  let param (index : Nat) (type : Ty) : Bytes :=
    if function.external ∨ function.params.length ≤ index then type.text
    else type.text ++ " " ++ function.paramName index
  let dots : List Bytes := if function.signature.variadic then ["..."] else []
  Bytes.join ", " (function.signature.params.mapIdx param ++ dots)

/-- The blocks of a function between braces. -/
def bodyText (unit : Module) (function : Function) : Bytes :=
  " \x7b\n" ++ Bytes.join "\n" (function.blocks.toList.map (blockText unit function)) ++ "\x7d\n"

def functionText (unit : Module) (function : Function) : Bytes :=
  (if function.external then "declare " else "define ") ++ function.signature.resultText ++
    " @" ++ function.name ++ "(" ++ headerParamsText function ++ ")" ++
    (if function.external then ("\n" : Bytes) else bodyText unit function)

/-- The text of a module. -/
def Module.text (unit : Module) : Bytes :=
  let data := (unit.data.toList.mapIdx fun id datum => datumText datum id).flatten
  let globals := unit.globals.toList.flatMap variableText
  let functions := unit.functions.toList.flatMap fun function =>
    Bytes.code '\n' :: functionText unit function
  "; module " ++ unit.name ++ "\n" ++
    (if data = [] then [] else Bytes.code '\n' :: data) ++
    (if globals = [] then [] else Bytes.code '\n' :: globals) ++ functions

end Pascaline.IR
