/-
Native types: the representations that storage and registers have. A type may be unknown, as the
type of what an opaque pointer points to.
-/

import Pascaline.Bytes

namespace Pascaline

/-- The width and the signedness of an integer type. -/
structure IntType where
  bits : Int16
  signed : Bool
  deriving DecidableEq, Inhabited

/-- A native type. -/
inductive Ty where
  | unknown
  | void
  | int (type : IntType)
  | float (bits : Int16)
  | ptr (pointee : Ty)
  | array (element : Ty) (length : Int64)
  | func (params : List Ty) (result : Ty) (variadic : Bool)
  deriving Inhabited

/-- The coarse class of a type, which selects the operators that apply to it. -/
inductive Category where
  | invalid
  | integral
  | floating
  | logical
  | pointer
  deriving DecidableEq

def Category.text : Category → Bytes
  | .invalid => "invalid"
  | .integral => "integer"
  | .floating => "floating"
  | .logical => "boolean"
  | .pointer => "pointer"

namespace IntType

/-- Booleans. -/
def i1 : IntType := ⟨1, false⟩

/-- Characters. -/
def i8 : IntType := ⟨8, true⟩

/-- Integers. -/
def i32 : IntType := ⟨32, true⟩

end IntType

namespace Ty

def i1 : Ty := .int .i1
def i8 : Ty := .int .i8
def i32 : Ty := .int .i32
def double : Ty := .float 64

/-- Strings, as pointers to their bytes. -/
def bytes : Ty := .ptr .i8

/-! ### Decidable equality -/

mutual

/-- Equality of types as syntax. -/
def beq : Ty → Ty → Bool
  | .unknown, .unknown => true
  | .void, .void => true
  | .int left, .int right => left == right
  | .float left, .float right => left == right
  | .ptr left, .ptr right => left.beq right
  | .array left leftLength, .array right rightLength =>
    leftLength == rightLength && left.beq right
  | .func leftParams left leftVariadic, .func rightParams right rightVariadic =>
    leftVariadic == rightVariadic && left.beq right && beqList leftParams rightParams
  | _, _ => false

/-- Equality of lists of types as syntax. -/
def beqList : List Ty → List Ty → Bool
  | [], [] => true
  | left :: lefts, right :: rights => left.beq right && beqList lefts rights
  | _, _ => false

end

mutual

theorem beq_iff : ∀ left right : Ty, left.beq right = true ↔ left = right
  | .unknown, right | .void, right => by cases right <;> simp [beq]
  | .int _, right | .float _, right => by cases right <;> simp [beq]
  | .ptr left, right => by
    cases right <;> simp [beq]
    exact beq_iff left _
  | .array left _, right => by
    cases right <;> simp [beq]
    rw [beq_iff left]
    exact And.comm
  | .func params left _, right => by
    cases right <;> simp [beq]
    rw [beq_iff left, beqList_iff params]
    constructor
    · rintro ⟨⟨rfl, rfl⟩, rfl⟩
      exact ⟨rfl, rfl, rfl⟩
    · rintro ⟨rfl, rfl, rfl⟩
      exact ⟨⟨rfl, rfl⟩, rfl⟩

theorem beqList_iff : ∀ lefts rights : List Ty, beqList lefts rights = true ↔ lefts = rights
  | [], rights => by cases rights <;> simp [beqList]
  | left :: lefts, rights => by
    cases rights <;> simp [beqList]
    rw [beq_iff left, beqList_iff lefts]

end

instance : DecidableEq Ty := fun left right => decidable_of_iff _ (beq_iff left right)

/-! ### Layout and text -/

/-- The size in bytes, wrapping at 64 bits. An unknown type has none. -/
def size? : Ty → Option Int64
  | .unknown => none
  | .void => some 0
  | .int type => some (Int64.ofInt ((type.bits.toInt + 7).tdiv 8))
  | .float bits => some (Int64.ofInt (bits.toInt.tdiv 8))
  | .ptr _ => some 8
  | .array element length => element.size?.map (· * length)
  | .func _ _ _ => some 8

mutual

/-- Whether a type can be written. A function type cannot if one of its parameters cannot. -/
def isWritable : Ty → Bool
  | .unknown => false
  | .func params _ _ => areWritable params
  | .void | .int _ | .float _ | .ptr _ | .array _ _ => true

def areWritable : List Ty → Bool
  | [] => true
  | param :: params => param.isWritable && areWritable params

end

/-- What stands in a text for a function type that cannot be written. -/
def unwritable : Bytes :=
  "%!v(PANIC=String method: runtime error: invalid memory address or nil pointer dereference)"

mutual

/-- The type as written in the text of a module. A function without a known result returns
nothing. -/
def text : Ty → Bytes
  | .unknown => "<nil>"
  | .void => "void"
  | .int type => "i" ++ Bytes.ofInt type.bits.toInt
  | .float bits => if bits = 32 then "float" else "double"
  | .ptr _ => "ptr"
  | .array element length => "[" ++ Bytes.ofInt length.toInt ++ " x " ++ element.text ++ "]"
  | .func params result variadic =>
    if areWritable params then
      (match result with
        | .unknown => "void"
        | result => result.text) ++ " (" ++ paramsText params variadic ++ ")"
    else unwritable

/-- Parameter types with commas, and dots at the end of a variadic list. -/
def paramsText : List Ty → Bool → Bytes
  | [], variadic => if variadic then "..." else []
  | [param], variadic => if variadic then param.text ++ ", ..." else param.text
  | param :: params, variadic => param.text ++ ", " ++ paramsText params variadic

end

/-! ### Classification -/

/-- The category of a type: one bit is logical, other integers are integral. -/
def category : Ty → Category
  | .int type => if type.bits = 1 then .logical else .integral
  | .float _ => .floating
  | .ptr _ => .pointer
  | _ => .invalid

mutual

/-- Whether two types are the same for calls and returns: all pointers are alike, and everything
else agrees part by part. -/
def same : Ty → Ty → Bool
  | .unknown, .unknown => true
  | .void, .void => true
  | .int left, .int right => left == right
  | .float left, .float right => left == right
  | .ptr _, .ptr _ => true
  | .array left leftLength, .array right rightLength =>
    leftLength == rightLength && left.same right
  | .func leftParams left leftVariadic, .func rightParams right rightVariadic =>
    leftVariadic == rightVariadic && left.same right && sameList leftParams rightParams
  | _, _ => false

/-- Whether two lists of types are the same, item by item. -/
def sameList : List Ty → List Ty → Bool
  | [], [] => true
  | left :: lefts, right :: rights => left.same right && sameList lefts rights
  | _, _ => false

end

/-- The element type of an array, and any other type itself. -/
def element : Ty → Ty
  | .array element _ => element
  | type => type

/-- What a pointer type points to. -/
def pointee : Ty → Ty
  | .ptr pointee => pointee
  | _ => .unknown

/-- The conversion that prints a value of the type. Eight-bit integers are characters. -/
def printFormat? (type : Ty) : Option Bytes :=
  match type.category with
  | .integral => some (match type with | .int ⟨8, _⟩ => "%c" | _ => "%d")
  | .logical => some "%d"
  | .floating => some "%f"
  | .pointer => some "%s"
  | .invalid => none

/-- The conversion that reads a value of the type. A character skips the blanks before it. -/
def scanFormat? (type : Ty) : Option Bytes :=
  type.printFormat?.map fun (format : Bytes) => if format = "%c" then " %c" else format

end Ty

/-- The parameter and result types of a function. -/
structure Signature where
  params : List Ty
  result : Ty
  variadic : Bool := false
  deriving DecidableEq

namespace Signature

/-- The signature as a type. -/
def type (signature : Signature) : Ty :=
  .func signature.params signature.result signature.variadic

/-- The result as written before a function's name: a function without a known result returns
nothing. -/
def resultText (signature : Signature) : Bytes :=
  match signature.result with
  | .unknown => Ty.text .void
  | result => result.text

/-- Whether a call yields a value. -/
def hasResult (signature : Signature) : Bool :=
  match signature.result with
  | .unknown | .void => false
  | _ => true

end Signature

end Pascaline
