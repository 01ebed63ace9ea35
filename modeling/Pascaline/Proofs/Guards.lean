/-
Guarded code. Types do not tell a string from the address of a character, nor whether a stack
variable has been reserved before it is used, nor whether a format suits its arguments. Code is
guarded if it is right in these respects too: what is loaded from or stored to is an address and
every other operand is a value, stack variables are reserved on all paths to where they are used,
and formats are made for what they print or read.

Reservation is told by marks: for each block, the stack variables that are reserved whenever control
comes to it. A branch only leads to blocks whose marks are true where it is taken.
-/

import Pascaline.Proofs.WellFormed
import Pascaline.Types.Kind

namespace Pascaline

/-! ### Types of values -/

/-- The types of the values that programs work with. -/
def Ty.IsScalar (type : Ty) : Prop := ∃ kind : Kind, kind ≠ .none ∧ type = kind.native

namespace Ty.IsScalar

variable {type : Ty}

/-- There is one scalar type for each kind of variable, and no other. -/
theorem cases (scalar : type.IsScalar) :
    type = .i32 ∨ type = .double ∨ type = .i1 ∨ type = .i8 ∨ type = .bytes := by
  obtain ⟨kind, isKind, rfl⟩ := scalar
  cases kind <;> simp_all [Kind.native]

theorem int {integer : IntType} (scalar : (Ty.int integer).IsScalar) :
    integer = .i32 ∨ integer = .i1 ∨ integer = .i8 := by
  rcases scalar.cases with same | same | same | same | same <;> cases same <;> simp

/-- Category guards let only these types through, so an operation need not be total on more. -/
theorem eq_of_integral (scalar : type.IsScalar) (integral : type.category = .integral) :
    type = .i32 ∨ type = .i8 := by
  rcases scalar.cases with rfl | rfl | rfl | rfl | rfl
  · exact .inl rfl
  · cases integral
  · cases integral
  · exact .inr rfl
  · cases integral

theorem eq_of_floating (scalar : type.IsScalar) (floating : type.category = .floating) :
    type = .double := by
  rcases scalar.cases with rfl | rfl | rfl | rfl | rfl <;> first | rfl | cases floating

theorem eq_of_logical (scalar : type.IsScalar) (logical : type.category = .logical) :
    type = .i1 := by
  rcases scalar.cases with rfl | rfl | rfl | rfl | rfl <;> first | rfl | cases logical

theorem eq_of_pointer (scalar : type.IsScalar) (pointer : type.category = .pointer) :
    type = .bytes := by
  rcases scalar.cases with rfl | rfl | rfl | rfl | rfl <;> first | rfl | cases pointer

/-- Of the types of values, only those of integers share their category. -/
theorem eq_of_category {other : Ty} (scalar : type.IsScalar) (otherScalar : other.IsScalar)
    (same : type.category = other.category) (notIntegral : type.category ≠ .integral) :
    type = other := by
  rcases scalar.cases with rfl | rfl | rfl | rfl | rfl
  · exact (notIntegral rfl).elim
  · exact (otherScalar.eq_of_floating same.symm).symm
  · exact (otherScalar.eq_of_logical same.symm).symm
  · exact (notIntegral rfl).elim
  · exact (otherScalar.eq_of_pointer same.symm).symm

theorem i32 : Ty.i32.IsScalar := ⟨.integer, by decide, rfl⟩

theorem i8 : Ty.i8.IsScalar := ⟨.char, by decide, rfl⟩

theorem i1 : Ty.i1.IsScalar := ⟨.boolean, by decide, rfl⟩

theorem double : Ty.double.IsScalar := ⟨.real, by decide, rfl⟩

theorem bytes : Ty.bytes.IsScalar := ⟨.string, by decide, rfl⟩

end Ty.IsScalar

namespace IR

/-! ### Roles of operands -/

/-- The register that an instruction fills with a value. All others hold addresses of elements. -/
def Instr.value? : Instr → Option Register
  | .alloca _ | .store _ _ | .elementAddress _ _ _ => none
  | .load out _ | .binary out _ _ _ | .compare out _ _ _ | .convert out _ _ => some out
  | .call out _ _ => out

/-- The stack variables that instructions reserve. -/
def reservedBy (code : List Instr) : List Nat :=
  code.filterMap fun instr =>
    match instr with
    | .alloca slot => some slot.id
    | _ => none

/-- The stack variables that are reserved at the end of a block that is entered with some. -/
def Block.reserves (block : Block) (entered : Nat → Prop) (slot : Nat) : Prop :=
  entered slot ∨ slot ∈ reservedBy block.code.toList

/-- An instruction somewhere in a function. -/
def Function.Contains (function : Function) (instr : Instr) : Prop :=
  ∃ (place index : Nat) (block : Block), function.blocks[place]? = some block ∧
    block.code[index]? = some instr

/-- Operands that stand for values of programs. -/
inductive Operand.IsValue (function : Function) : Operand → Prop
  | int {type : IntType} (value : Int64) (scalar : (Ty.int type).IsScalar) :
      IsValue function (.int type value)
  | float (value : Double) : IsValue function (.float value)
  | null : IsValue function .null
  | data (id : Nat) : IsValue function (.data id)
  | param {slot : Slot} (storage : slot.storage = .param) (scalar : slot.type.IsScalar) :
      IsValue function (.slot slot)
  | register {register : Register} {instr : Instr} (contains : function.Contains instr)
      (out : instr.value? = some register) (scalar : register.type.IsScalar) :
      IsValue function (.reg register)

/-- Operands that stand for addresses, where some stack variables are reserved. -/
inductive Operand.IsAddress (function : Function) (reserved : Nat → Prop) : Operand → Prop
  | stack {slot : Slot} (storage : slot.storage = .stack) (isReserved : reserved slot.id) :
      IsAddress function reserved (.slot slot)
  | global {slot : Slot} (storage : slot.storage = .global) :
      IsAddress function reserved (.slot slot)
  | element {register : Register} {base index : Operand}
      (contains : function.Contains (.elementAddress register base index)) :
      IsAddress function reserved (.reg register)

/-- A value has a type that a variable could have. -/
theorem Operand.IsValue.scalar {function : Function} {operand : Operand}
    (value : operand.IsValue function) : operand.type.IsScalar := by
  cases value with
  | int value scalar => exact scalar
  | float value => exact .double
  | null => exact .bytes
  | data id => exact .bytes
  | param storage scalar =>
    rw [Operand.type, Slot.valueType, storage]
    exact scalar
  | register contains out scalar => exact scalar

/-! ### Formats -/

/-- A conversion by which an operand can be printed. -/
def Operand.PrintsBy (format : Bytes) (operand : Operand) : Prop :=
  format = "%d" ∨ format = "%f" ∨ format = "%s" ∨
    format = "%c" ∧ ∃ type, operand.type = .int type

/-- A call of a function that is served from outside, with the format that it is made for. -/
inductive Formatted (unit : Module) (function : Function) (reserved : Nat → Prop) :
    Bytes → List Operand → Prop
  | print {id : Nat} {datum : Datum} {printed : List (Bytes × Operand)}
      (found : unit.data[id]? = some datum)
      (format : datum.bytes = printed.flatMap Prod.fst ++ "\n")
      (prints : ∀ pair ∈ printed, pair.2.PrintsBy pair.1)
      (values : ∀ pair ∈ printed, pair.2.IsValue function) :
      Formatted unit function reserved "printf" (.data id :: printed.map Prod.snd)
  | scan {id : Nat} {datum : Datum} {target : Operand} {type : Ty}
      (found : unit.data[id]? = some datum) (format : type.scanFormat? = some datum.bytes)
      (scalar : type.IsScalar) (points : target.type = .ptr type)
      (address : target.IsAddress function reserved) :
      Formatted unit function reserved "scanf" [.data id, target]

/-! ### Guarded functions -/

/-- An instruction whose operands have the right roles. -/
def Instr.Guarded (unit : Module) (function : Function) (reserved : Nat → Prop) : Instr → Prop
  | .alloca _ => True
  | .load out address => out.type.IsScalar ∧ address.IsAddress function reserved
  | .store address value => address.IsAddress function reserved ∧
      (value.IsValue function ∨ ∃ type, value = .zeros type)
  | .elementAddress _ base index =>
    (∃ slot, base = .slot slot) ∧ base.IsAddress function reserved ∧ index.IsValue function
  | .binary _ _ left right | .compare _ _ left right =>
    left.IsValue function ∧ right.IsValue function
  | .convert _ _ operand => operand.IsValue function
  | .call _ callee args => ∃ called, unit.functions[callee]? = some called ∧
      (called.external = true → Formatted unit function reserved called.name args) ∧
      (called.external = false → args.map Operand.type = called.signature.params ∧
        ∀ arg ∈ args, arg.IsValue function)

/-- The end of a block at which some stack variables are reserved. -/
structure Terminator.Guarded (function : Function) (marks : Nat → Nat → Prop)
    (reserved : Nat → Prop) (terminator : Terminator) : Prop where
  values : ∀ operand ∈ terminator.operands, operand.IsValue function
  targets : ∀ target ∈ terminator.targets, target < function.blocks.size ∧
    ∀ slot, marks target slot → reserved slot

/-- A function whose code is guarded, with the stack variables that are reserved at the start of
each block. -/
structure Function.Guarded (unit : Module) (function : Function) (marks : Nat → Nat → Prop) :
    Prop where
  code : ∀ (place index : Nat) (block : Block) (instr : Instr),
    function.blocks[place]? = some block → block.code[index]? = some instr →
    instr.Guarded unit function fun slot =>
      marks place slot ∨ slot ∈ reservedBy (block.code.toList.take index)
  ending : ∀ (place : Nat) (block : Block) (terminator : Terminator),
    function.blocks[place]? = some block → block.terminator = some terminator →
    terminator.Guarded function marks (block.reserves (marks place))

/-- A function that is guarded from its first block on, where nothing has been reserved. -/
def Function.Secure (unit : Module) (function : Function) : Prop :=
  ∃ marks, (∀ slot, ¬ marks 0 slot) ∧ function.Guarded unit marks

/-! ### Growth -/

section Growth

variable {unit unit' : Module} {function function' : Function} {reserved reserved' : Nat → Prop}
  {marks : Nat → Nat → Prop}

/-- Code is only added, so an instruction that was found once is found ever after. -/
theorem Function.Contains.mono {instr : Instr} (contains : function.Contains instr)
    (grows : function.Grows function') : function'.Contains instr := by
  obtain ⟨place, index, block, found, instrFound⟩ := contains
  obtain ⟨grown, grownFound, blockGrows⟩ := grows.blocks place block found
  exact ⟨place, index, grown, grownFound, blockGrows.code index instr instrFound⟩

theorem Operand.IsValue.mono {operand : Operand} (value : operand.IsValue function)
    (grows : function.Grows function') : operand.IsValue function' := by
  cases value with
  | int value scalar => exact .int value scalar
  | float value => exact .float value
  | null => exact .null
  | data id => exact .data id
  | param storage scalar => exact .param storage scalar
  | register contains out scalar => exact .register (contains.mono grows) out scalar

theorem Operand.IsAddress.mono {operand : Operand} (address : operand.IsAddress function reserved)
    (grows : function.Grows function') (more : ∀ slot, reserved slot → reserved' slot) :
    operand.IsAddress function' reserved' := by
  cases address with
  | stack storage isReserved => exact .stack storage (more _ isReserved)
  | global storage => exact .global storage
  | element contains => exact .element (contains.mono grows)

theorem Formatted.mono {name : Bytes} {args : List Operand}
    (formatted : Formatted unit function reserved name args) (grows : unit.Grows unit')
    (functionGrows : function.Grows function') (more : ∀ slot, reserved slot → reserved' slot) :
    Formatted unit' function' reserved' name args := by
  cases formatted with
  | print found format prints values =>
    exact .print (grows.data _ _ found) format prints fun pair member =>
      (values pair member).mono functionGrows
  | scan found format scalar points address =>
    exact .scan (grows.data _ _ found) format scalar points (address.mono functionGrows more)

/-- A guard speaks of what is there already; nothing that comes later breaks it. -/
theorem Instr.Guarded.mono {instr : Instr} (guarded : instr.Guarded unit function reserved)
    (grows : unit.Grows unit') (functionGrows : function.Grows function')
    (more : ∀ slot, reserved slot → reserved' slot) : instr.Guarded unit' function' reserved' := by
  cases instr with
  | alloca slot => trivial
  | load out address => exact ⟨guarded.1, guarded.2.mono functionGrows more⟩
  | store address value =>
    exact ⟨guarded.1.mono functionGrows more, guarded.2.imp_left (·.mono functionGrows)⟩
  | elementAddress out base index =>
    exact ⟨guarded.1, guarded.2.1.mono functionGrows more, guarded.2.2.mono functionGrows⟩
  | binary out op left right =>
    exact ⟨guarded.1.mono functionGrows, guarded.2.mono functionGrows⟩
  | compare out predicate left right =>
    exact ⟨guarded.1.mono functionGrows, guarded.2.mono functionGrows⟩
  | convert out cast operand => exact Operand.IsValue.mono guarded functionGrows
  | call out callee args =>
    obtain ⟨called, found, formatted, values⟩ := guarded
    obtain ⟨grown, grownFound, calledGrows⟩ := grows.functions _ _ found
    refine ⟨grown, grownFound, ?_, ?_⟩
    · rw [calledGrows.external, calledGrows.name]
      exact fun isExternal => (formatted isExternal).mono grows functionGrows more
    · rw [calledGrows.external, calledGrows.signature]
      exact fun isDefined => ⟨(values isDefined).1, fun arg member =>
        ((values isDefined).2 arg member).mono functionGrows⟩

namespace Function.Guarded

/-- A function that stays the same while the module grows. -/
theorem mono (guarded : function.Guarded unit marks) (grows : unit.Grows unit') :
    function.Guarded unit' marks :=
  ⟨fun place index block instr found instrFound =>
    (guarded.code place index block instr found instrFound).mono grows (.refl _) fun _ => id,
    guarded.ending⟩

end Function.Guarded

theorem Function.Secure.mono (secure : function.Secure unit) (grows : unit.Grows unit') :
    function.Secure unit' := by
  obtain ⟨marks, empty, guarded⟩ := secure
  exact ⟨marks, empty, guarded.mono grows⟩

end Growth

/-! ### Building at a site -/

theorem reservedBy_append (first second : List Instr) :
    reservedBy (first ++ second) = reservedBy first ++ reservedBy second := by
  simp [reservedBy]

namespace Site

variable {site : Site} {instr : Register → Instr}

/-- An instruction is contained in the function that it has been added to. -/
theorem contains_emit (site : Site) (instr : Instr) :
    (site.emit instr).function.Contains instr := by
  refine ⟨_, site.landing.current.code.size, _, (site.emit instr).current_found, ?_⟩
  rw [emit, push_current]
  exact Array.getElem?_push_size

/-- The register of an instruction holds a value behind it. -/
theorem value_define {type : Ty}
    (out : (instr (site.nextRegister type)).value? = some (site.nextRegister type))
    (scalar : type.IsScalar) :
    Operand.IsValue (site.define type instr).function (.reg (site.nextRegister type)) :=
  .register (contains_emit _ _) out scalar

end Site

end IR

end Pascaline
