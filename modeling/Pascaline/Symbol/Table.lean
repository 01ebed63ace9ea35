/-
Symbols and their lexical scopes. A name means the symbol of the innermost scope that declares
it, and a scope declares a name at most once.
-/

import Pascaline.Diagnostic
import Pascaline.IR.Basic
import Pascaline.Types.Kind

namespace Pascaline

/-- Names that no program may declare: the entry function and the two external functions. -/
def reservedNames : List Bytes := ["main", "printf", "scanf"]

def isReserved (name : Bytes) : Bool := reservedNames.contains name

/-! ### Symbols -/

/-- The roles that a name can have. Records and objects are reserved for aggregate types. -/
inductive Role where
  | scalar
  | array
  | routine
  | record
  | object
  deriving DecidableEq

def Role.text : Role → Bytes
  | .scalar => "variable"
  | .array => "array"
  | .routine => "function"
  | .record => "struct"
  | .object => "class"

/-- What a symbol stands for: a scalar, an array with the indices of its ends, or a routine with
the kinds of its parameters. -/
inductive Shape where
  | scalar
  | array (first last : Int64)
  | routine (params : List Kind)
  deriving DecidableEq

def Shape.role : Shape → Role
  | .scalar => .scalar
  | .array .. => .array
  | .routine _ => .routine

/-- A declared name. The kind is that of the variable, of the elements of the array, or of the
result of the routine, with `none` for a procedure. The slot is reserved on first use; `owner` is
the function whose stack holds it, and `code` is the function of a routine. -/
structure Symbol where
  name : Bytes
  shape : Shape
  kind : Kind
  slot : Option IR.Slot := none
  owner : Option Nat := none
  code : Option Nat := none
  deriving DecidableEq

namespace Symbol

def role (symbol : Symbol) : Role := symbol.shape.role

def isArray (symbol : Symbol) : Bool := symbol.role = .array

def isRoutine (symbol : Symbol) : Bool := symbol.role = .routine

/-- The first index of an array, zero for any other symbol. -/
def first (symbol : Symbol) : Int64 :=
  match symbol.shape with
  | .array first _ => first
  | _ => 0

/-- The last index of an array, zero for any other symbol. -/
def last (symbol : Symbol) : Int64 :=
  match symbol.shape with
  | .array _ last => last
  | _ => 0

/-- The number of elements of an array, in 64-bit arithmetic. -/
def length (symbol : Symbol) : Int64 := symbol.last - symbol.first + 1

/-- The kinds of the parameters of a routine. -/
def params (symbol : Symbol) : List Kind :=
  match symbol.shape with
  | .routine params => params
  | _ => []

/-- The types that a routine takes and returns. -/
def signature (symbol : Symbol) : Signature :=
  { params := symbol.params.map Kind.native, result := symbol.kind.native }

/-- The representation of the symbol: of an array, the whole array. -/
def nativeType (symbol : Symbol) : Ty :=
  match symbol.shape with
  | .scalar => symbol.kind.native
  | .array .. => .array symbol.kind.native symbol.length
  | .routine _ => symbol.signature.type

/-- The symbol with a slot for its storage. -/
def bind (symbol : Symbol) (slot : IR.Slot) : Symbol := { symbol with slot := some slot }

end Symbol

/-! ### Faults of names -/

/-- What is wrong with a name or with the place of a declaration. -/
inductive Fault where
  | diagnostic (report : Diagnostic)
  | noScope (name : Bytes)
  deriving DecidableEq

namespace Fault

def text : Fault → Bytes
  | .diagnostic report => report.text
  | .noScope name => "declare " ++ name ++ ": no scope"

/-- The fault at a position, unless it has one already. -/
def locatedIfUnplaced (fault : Fault) (position : Int) : Fault :=
  match fault with
  | .diagnostic report => .diagnostic (report.locatedIfUnplaced position)
  | .noScope name => .noScope name

def diagnostic? : Fault → Option Diagnostic
  | .diagnostic report => some report
  | .noScope _ => none

end Fault

/-! ### Scopes -/

/-- The symbols of one scope, the latest first. -/
abbrev Scope := List Symbol

namespace Scope

def find? (scope : Scope) (name : Bytes) : Option Symbol :=
  List.find? (fun symbol => symbol.name = name) scope

/-- Changes the symbol of a name. -/
def update (scope : Scope) (name : Bytes) (change : Symbol → Symbol) : Scope :=
  List.map (fun symbol => if symbol.name = name then change symbol else symbol) scope

end Scope

/-- The open scopes, the innermost first. -/
structure Table where
  scopes : List Scope := []
  deriving DecidableEq

namespace Table

/-- A table without scopes. -/
def empty : Table := {}

/-- Opens a scope inside the current one. -/
def enter (table : Table) : Table := ⟨[] :: table.scopes⟩

/-- Closes the innermost scope, if there is one. -/
def exit (table : Table) : Table := ⟨table.scopes.tail⟩

def depth (table : Table) : Nat := table.scopes.length

/-- The depth of the innermost scope, counted from zero. -/
def currentDepth? (table : Table) : Option Nat :=
  match table.scopes with
  | [] => none
  | _ :: outer => some outer.length

/-- The symbol that a name means. -/
def find? (table : Table) (name : Bytes) : Option Symbol :=
  table.scopes.findSome? fun scope => scope.find? name

/-- Whether a name means something. -/
def isDeclared (table : Table) (name : Bytes) : Bool := (table.find? name).isSome

/-- Whether the innermost scope declares a name. -/
def declaredHere (table : Table) (name : Bytes) : Bool :=
  match table.scopes with
  | [] => false
  | scope :: _ => (scope.find? name).isSome

/-- Adds a symbol to the innermost scope. -/
def declare (table : Table) (symbol : Symbol) : Except Fault Table :=
  match table.scopes with
  | [] => .error (.noScope symbol.name)
  | scope :: outer =>
    if (scope.find? symbol.name).isSome then
      .error (.diagnostic (.named .duplicateDeclaration symbol.name))
    else .ok ⟨(symbol :: scope) :: outer⟩

/-- Adds a scalar variable. -/
def declareScalar (table : Table) (name : Bytes) (kind : Kind) : Except Fault Table :=
  table.declare { name, shape := .scalar, kind }

/-- Adds an array, unless its last index is before its first. -/
def declareArray (table : Table) (name : Bytes) (kind : Kind) (first last : Int64) :
    Except Fault Table :=
  if last < first then .error (.diagnostic (.bounds name first.toInt last.toInt))
  else table.declare { name, shape := .array first last, kind }

/-- Adds a routine; a procedure has no result. -/
def declareRoutine (table : Table) (name : Bytes) (params : List Kind) (result : Kind) :
    Except Fault Table :=
  table.declare { name, shape := .routine params, kind := result }

/-- Changes the symbol that a name means. -/
def update (table : Table) (name : Bytes) (change : Symbol → Symbol) : Table :=
  ⟨updateFirst table.scopes⟩
where
  /-- Changes the symbol in the first scope that declares the name. -/
  updateFirst : List Scope → List Scope
    | [] => []
    | scope :: outer =>
      if (scope.find? name).isSome then scope.update name change :: outer
      else scope :: updateFirst outer

/-- The representation of what a name means. -/
def typeOf (table : Table) (name : Bytes) : Except Diagnostic Ty :=
  match table.find? name with
  | some symbol => .ok symbol.nativeType
  | none => .error (.named .undeclaredIdentifier name)

end Table

end Pascaline
