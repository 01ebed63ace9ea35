/-
Values at run time conform to types. A machine conforms to a module if every cell holds a value of
the type of its memory, and a frame conforms to its function if its arguments, its variables and the
registers that are in use hold what their types and roles say. In such a frame every operand of
guarded code can be read.
-/

import Pascaline.Proofs.Completion
import Pascaline.Proofs.Runs

namespace Pascaline

open IR (Operand Slot)

/-- Items at the same place of two lists that agree. -/
theorem forall₂_getElem? {First Second : Type} {relation : First → Second → Prop}
    {firsts : List First} {seconds : List Second} (agree : List.Forall₂ relation firsts seconds)
    {place : Nat} {first : First} (found : firsts[place]? = some first) :
    ∃ second, seconds[place]? = some second ∧ relation first second := by
  induction agree generalizing place with
  | nil => cases found
  | cons related _ rest =>
    cases place with
    | zero =>
      cases found
      exact ⟨_, rfl, related⟩
    | succ place => exact rest found

/-! ### Values and memories -/

/-- Arrays can be allocated if they have at least one element and not too many of them. -/
def Ty.isAllocatable : Ty → Bool
  | .array _ length => 0 < length ∧ length.toNatClampNeg ≤ Machine.Memory.maximumLength
  | _ => true

/-- Whether all variables of a module and of its functions can be allocated. -/
def IR.Module.isAllocatable (unit : IR.Module) : Bool :=
  unit.globals.all (fun global => global.type.isAllocatable) &&
    unit.functions.all fun function => function.locals.all fun place => place.type.isAllocatable

theorem IR.Module.isAllocatable_global {unit : IR.Module} (allocatable : unit.isAllocatable = true)
    {place : Nat} {global : IR.Variable} (found : unit.globals[place]? = some global) :
    global.type.isAllocatable = true := by
  have all := (Bool.and_eq_true_iff.mp allocatable).1
  exact Array.all_eq_true_iff_forall_mem.mp all global (Array.mem_of_getElem? found)

theorem IR.Module.isAllocatable_local {unit : IR.Module} (allocatable : unit.isAllocatable = true)
    {id place : Nat} {function : IR.Function} {entry : IR.Local}
    (found : unit.functions[id]? = some function) (placed : function.locals[place]? = some entry) :
    entry.type.isAllocatable = true := by
  have all := (Bool.and_eq_true_iff.mp allocatable).2
  have functions := Array.all_eq_true_iff_forall_mem.mp all function (Array.mem_of_getElem? found)
  exact Array.all_eq_true_iff_forall_mem.mp functions entry (Array.mem_of_getElem? placed)

namespace Machine

/-- Whether a value is one of a type: integers for integer types, floating point numbers for
floating types, and texts or nil for pointers. -/
def Value.isOf : Value → Ty → Bool
  | .int _, .int _ | .float _, .float _ | .nil, .ptr _ | .text _, .ptr _ => true
  | _, _ => false

variable {type : Ty} {memory : Memory}

theorem Value.isOf_fit {value : Value} (isOf : value.isOf type = true) (target : Ty) :
    (value.fit target).isOf type = true := by
  cases value with
  | int number =>
    cases type with
    | int => cases target <;> rfl
    | _ => cases isOf
  | _ => exact isOf

theorem Value.isOf_zero (scalar : type.IsScalar) : (Value.zero type).isOf type = true := by
  rcases scalar.cases with rfl | rfl | rfl | rfl | rfl <;> rfl

theorem Value.isOf_int {value : Value} {type : IntType} (isOf : value.isOf (.int type) = true) :
    ∃ number, value = .int number := by
  cases value with
  | int number => exact ⟨number, rfl⟩
  | _ => cases isOf

theorem Value.isOf_float {value : Value} {bits : Int16} (isOf : value.isOf (.float bits) = true) :
    ∃ number, value = .float number := by
  cases value with
  | float number => exact ⟨number, rfl⟩
  | _ => cases isOf

/-- A memory whose cells hold values of its type. -/
def Memory.Conforms (memory : Memory) : Prop :=
  memory.type.IsScalar → ∀ (offset : Nat) (value : Value), memory.cells[offset]? = some value →
    value.isOf memory.type = true

/-- The storage of a variable: the elements of an array, or one value. -/
def Memory.Stores (memory : Memory) : Ty → Prop
  | .array element _ => memory.type = element
  | type => memory.type = type ∧ 0 < memory.cells.size

theorem Memory.Stores.of_same {later : Memory} (stores : memory.Stores type)
    (sameType : later.type = memory.type) (sameSize : later.cells.size = memory.cells.size) :
    later.Stores type := by
  cases type with
  | array element length => exact sameType.trans stores
  | _ => exact ⟨sameType.trans stores.1, sameSize ▸ stores.2⟩

/-- The storage of a scalar is one cell. -/
theorem Memory.Stores.scalar (stores : memory.Stores type) (scalar : type.IsScalar) :
    memory.type = type ∧ 0 < memory.cells.size := by
  rcases scalar.cases with rfl | rfl | rfl | rfl | rfl <;> exact stores

/-- Cells that all start with the same value. -/
theorem Memory.conforms_replicate (type : Ty) (size : Nat) :
    Memory.Conforms ⟨type, Array.replicate size (.zero type)⟩ := by
  intro scalar offset value found
  rw [Array.getElem?_replicate] at found
  split at found
  · cases found
    exact Value.isOf_zero scalar
  · cases found

theorem Memory.new?_conforms (allocatable : type.isAllocatable = true) :
    ∃ memory, Memory.new? type = some memory ∧ memory.Stores type ∧ memory.Conforms := by
  cases type with
  | array element length =>
    have short := of_decide_eq_true allocatable
    refine ⟨_, if_neg ?_, rfl, Memory.conforms_replicate element length.toNatClampNeg⟩
    rintro (negative | long)
    · exact absurd negative (Int64.not_lt.mpr (Int64.le_of_lt short.1))
    · exact absurd long (Nat.not_lt.mpr short.2)
  | _ => exact ⟨_, rfl, ⟨rfl, by simp⟩, Memory.conforms_replicate _ 1⟩

theorem Memory.Conforms.write (conforms : memory.Conforms) (offset : Nat) {value : Value}
    (isOf : value.isOf memory.type = true) : (memory.write offset value).Conforms := by
  intro scalar other found there
  have there : (memory.cells.setIfInBounds offset value)[other]? = some found := there
  rw [Array.getElem?_setIfInBounds] at there
  split at there
  · split at there
    · cases there
      exact isOf
    · cases there
  · exact conforms scalar other found there

theorem Memory.clear_conforms (memory : Memory) : memory.clear.Conforms :=
  Memory.conforms_replicate memory.type memory.cells.size

/-! ### Machines -/

/-- A machine for a module, whose variables have their memories. -/
structure Machine.Conforms (unit : IR.Module) (machine : Machine) : Prop where
  globals : ∀ (place : Nat) (global : IR.Variable), unit.globals[place]? = some global →
    ∃ memory, machine.memories[place]? = some memory ∧ memory.Stores global.type
  memories : ∀ (id : Nat) (memory : Memory), machine.memories[id]? = some memory → memory.Conforms

/-- A later machine, in which all memories have their types and sizes. -/
def Machine.Keeps (old new : Machine) : Prop :=
  ∀ (id : Nat) (memory : Memory), old.memories[id]? = some memory →
    ∃ later, new.memories[id]? = some later ∧ later.type = memory.type ∧
      later.cells.size = memory.cells.size

/-- A cell for values of a type. -/
def Machine.Cell (machine : Machine) (memory offset : Nat) (type : Ty) : Prop :=
  ∃ cells, machine.memories[memory]? = some cells ∧ cells.type = type ∧ offset < cells.cells.size

namespace Machine

variable {unit : IR.Module} {machine later last : Machine}

theorem Keeps.refl (machine : Machine) : machine.Keeps machine :=
  fun _ memory found => ⟨memory, found, rfl, rfl⟩

theorem Keeps.trans (early : machine.Keeps later) (late : later.Keeps last) :
    machine.Keeps last := by
  intro id memory found
  obtain ⟨next, nextFound, type, size⟩ := early id memory found
  obtain ⟨other, otherFound, typeToo, sizeToo⟩ := late id next nextFound
  exact ⟨other, otherFound, typeToo.trans type, sizeToo.trans size⟩

theorem Cell.keeps {memory offset : Nat} {type : Ty} (cell : machine.Cell memory offset type)
    (keeps : machine.Keeps later) : later.Cell memory offset type := by
  obtain ⟨cells, found, sameType, inside⟩ := cell
  obtain ⟨other, otherFound, type, size⟩ := keeps memory cells found
  exact ⟨other, otherFound, type.trans sameType, size.symm ▸ inside⟩

/-- A cell can be read. -/
theorem Conforms.cell {memory offset : Nat} {type : Ty} (conforms : machine.Conforms unit)
    (cell : machine.Cell memory offset type) (scalar : type.IsScalar) :
    ∃ value, machine.cell? memory offset = some value ∧ value.isOf type = true := by
  obtain ⟨cells, found, rfl, inside⟩ := cell
  have there := Array.getElem?_eq_getElem inside
  refine ⟨_, ?_, conforms.memories memory cells found scalar offset _ there⟩
  simp only [cell?, found, Option.bind_eq_bind, Option.bind_some, there]

/-- What stays a conforming machine when one memory is changed and nothing else. -/
theorem Conforms.modify {id : Nat} (change : Memory → Memory) (conforms : machine.Conforms unit)
    (type : ∀ memory, (change memory).type = memory.type)
    (size : ∀ memory, (change memory).cells.size = memory.cells.size)
    (changed : ∀ memory, machine.memories[id]? = some memory → (change memory).Conforms)
    (memories : later.memories = machine.memories.modify id change) :
    later.Conforms unit ∧ machine.Keeps later := by
  have keeps : machine.Keeps later := by
    intro place memory found
    rw [memories, Array.getElem?_modify]
    split
    · rw [found]
      exact ⟨change memory, rfl, type memory, size memory⟩
    · exact ⟨memory, found, rfl, rfl⟩
  refine ⟨⟨fun place global found => ?_, fun place memory found => ?_⟩, keeps⟩
  · obtain ⟨memory, there, stores⟩ := conforms.globals place global found
    obtain ⟨other, otherThere, sameType, sameSize⟩ := keeps place memory there
    exact ⟨other, otherThere, stores.of_same sameType sameSize⟩
  · rw [memories, Array.getElem?_modify] at found
    split at found
    · rename_i same
      obtain ⟨old, there, rfl⟩ := Option.map_eq_some_iff.mp found
      exact changed old (same ▸ there)
    · exact conforms.memories place memory found

theorem Conforms.write {memory offset : Nat} {value : Value} (conforms : machine.Conforms unit)
    (isOf : ∀ cells, machine.memories[memory]? = some cells → value.isOf cells.type = true) :
    (machine.write memory offset value).Conforms unit ∧
      machine.Keeps (machine.write memory offset value) :=
  conforms.modify (·.write offset value) (fun _ => rfl) (fun _ => Array.size_setIfInBounds ..)
    (fun cells found => (conforms.memories memory cells found).write offset (isOf cells found)) rfl

theorem Conforms.clear (conforms : machine.Conforms unit) (memory : Nat) :
    (machine.clear memory).Conforms unit ∧ machine.Keeps (machine.clear memory) :=
  conforms.modify Memory.clear (fun _ => rfl) (fun _ => Array.size_replicate)
    (fun cells _ => cells.clear_conforms) rfl

theorem Conforms.allocate {memory : Memory} (conforms : machine.Conforms unit)
    (memoryConforms : memory.Conforms) :
    (machine.allocate memory).Conforms unit ∧ machine.Keeps (machine.allocate memory) := by
  have keeps : machine.Keeps (machine.allocate memory) := by
    intro place other found
    have inside := (Array.getElem?_eq_some_iff.mp found).1
    refine ⟨other, ?_, rfl, rfl⟩
    show (machine.memories.push memory)[place]? = some other
    rw [Array.getElem?_push, if_neg (Nat.ne_of_lt inside)]
    exact found
  refine ⟨⟨fun place global found => ?_, fun place other found => ?_⟩, keeps⟩
  · obtain ⟨other, there, stores⟩ := conforms.globals place global found
    obtain ⟨next, nextThere, sameType, sameSize⟩ := keeps place other there
    exact ⟨next, nextThere, stores.of_same sameType sameSize⟩
  · have found : (machine.memories.push memory)[place]? = some other := found
    rw [Array.getElem?_push] at found
    split at found
    · cases found
      exact memoryConforms
    · exact conforms.memories place other found

/-- Only the memories matter. -/
theorem Conforms.of_memories (conforms : machine.Conforms unit)
    (same : later.memories = machine.memories) :
    later.Conforms unit ∧ machine.Keeps later := by
  refine ⟨⟨?_, ?_⟩, fun place memory found => ⟨memory, same ▸ found, rfl, rfl⟩⟩
  · rw [same]
    exact conforms.globals
  · rw [same]
    exact conforms.memories

/-- Memories for variables that can all be allocated. -/
theorem memories_conform {globals : List IR.Variable}
    (allocatable : ∀ global ∈ globals, global.type.isAllocatable = true) :
    ∃ memories, globals.mapM (fun global => Memory.new? global.type) = some memories ∧
      List.Forall₂ (fun global memory => memory.Stores global.type ∧ memory.Conforms) globals
        memories := by
  induction globals with
  | nil => exact ⟨[], rfl, .nil⟩
  | cons global globals rest =>
    obtain ⟨memory, made, facts⟩ :=
      Memory.new?_conforms (allocatable global (List.mem_cons_self ..))
    obtain ⟨memories, others, pairs⟩ :=
      rest fun other member => allocatable other (List.mem_cons_of_mem _ member)
    exact ⟨memory :: memories, by simp [List.mapM_cons, made, others], .cons facts pairs⟩

/-- A machine can be made for a module whose variables can be allocated. -/
theorem new?_conforms (allocatable : unit.isAllocatable = true) (input : Bytes) :
    ∃ machine, Machine.new? unit input = some machine ∧ machine.Conforms unit := by
  have globals : ∀ global ∈ unit.globals.toList, global.type.isAllocatable = true := by
    intro global member
    obtain ⟨place, found⟩ := List.getElem?_of_mem member
    exact unit.isAllocatable_global allocatable (Array.getElem?_toList.symm.trans found)
  obtain ⟨memories, made, pairs⟩ := memories_conform globals
  refine ⟨{ memories := memories.toArray, input }, ?_, fun place global found => ?_,
    fun place memory found => ?_⟩
  · have array : unit.globals.mapM (fun global => Memory.new? global.type) =
        some memories.toArray := by
      rw [Array.mapM_eq_mapM_toList, made]
      rfl
    rw [Machine.new?, array]
    rfl
  · rw [← Array.getElem?_toList] at found
    obtain ⟨memory, there, stores, _⟩ := forall₂_getElem? pairs found
    exact ⟨memory, by rw [List.getElem?_toArray, there], stores⟩
  · rw [List.getElem?_toArray] at found
    obtain ⟨_, _, _, conforms⟩ := forall₂_getElem? pairs.flip found
    exact conforms

end Machine

end Machine

/-! ### Frames -/

/-- A function that can be executed: it is well-typed, complete and guarded. -/
structure IR.Function.Executable (unit : IR.Module) (function : IR.Function)
    (marks : Nat → Nat → Prop) : Prop where
  sound : function.Sound unit
  complete : function.Complete
  guarded : function.Guarded unit marks

namespace Machine

/-- The register that an instruction writes holds what it should: the address of an element, or a
value of its type. -/
def Frame.Filled (machine : Machine) (frame : Frame) : IR.Instr → Prop
  | .elementAddress out _ _ => ∃ element memory offset, out.type = .ptr element ∧
      frame.registers[out.id]? = some (.address memory offset) ∧ machine.Cell memory offset element
  | instr => ∀ out, instr.value? = some out →
      ∃ value, frame.registers[out.id]? = some value ∧ value.isOf out.type = true

/-- A frame in which a function runs. -/
structure Frame.Conforms (unit : IR.Module) (function : IR.Function) (block : IR.Block)
    (marks : Nat → Nat → Prop) (machine : Machine) (frame : Frame) : Prop where
  found : unit.functions[frame.function]? = some function
  code : function.Executable unit marks
  here : function.blocks[frame.block]? = some block
  path : function.Reaches 0 frame.block
  registerCount : frame.registers.size = function.registers
  localCount : frame.locals.size = function.locals.size
  args : ∀ (place : Nat) (type : Ty), function.signature.params[place]? = some type →
    ∃ value, frame.args[place]? = some value ∧ value.isOf type = true
  locals : ∀ slot id : Nat, frame.locals[slot]? = some (some id) →
    ∃ place memory, function.locals[slot]? = some place ∧ machine.memories[id]? = some memory ∧
      memory.Stores place.type
  reserved : ∀ slot : Nat,
    marks frame.block slot ∨ slot ∈ IR.reservedBy (block.code.toList.take frame.index) →
      ∃ id, frame.locals[slot]? = some (some id)
  filled : ∀ instr ∈ block.code.toList.take frame.index, frame.Filled machine instr

section Frames

variable {unit : IR.Module} {function : IR.Function} {block : IR.Block}
  {marks : Nat → Nat → Prop} {machine later : Machine} {frame : Frame}

theorem Frame.Filled.keeps {instr : IR.Instr} (filled : frame.Filled machine instr)
    (keeps : machine.Keeps later) : frame.Filled later instr := by
  cases instr with
  | elementAddress out base index =>
    obtain ⟨element, memory, offset, type, register, cell⟩ := filled
    exact ⟨element, memory, offset, type, register, cell.keeps keeps⟩
  | _ => exact filled

/-- A frame stays as it is while the machine changes. -/
theorem Frame.Conforms.keeps (conforms : frame.Conforms unit function block marks machine)
    (keeps : machine.Keeps later) : frame.Conforms unit function block marks later := by
  refine { conforms with locals := fun slot id bound => ?_, filled := fun instr member => ?_ }
  · obtain ⟨place, memory, placed, found, stores⟩ := conforms.locals slot id bound
    obtain ⟨other, otherFound, type, size⟩ := keeps id memory found
    exact ⟨place, other, placed, otherFound, stores.of_same type size⟩
  · exact (conforms.filled instr member).keeps keeps

/-! ### Registers -/

/-- Keys that appear once tell the items that they come from. -/
theorem eq_of_filterMap_nodup {Item Key : Type} {key : Item → Option Key} {items : List Item}
    (distinct : (items.filterMap key).Nodup) {first second : Item} (firstHere : first ∈ items)
    (secondHere : second ∈ items) {shared : Key} (firstKey : key first = some shared)
    (secondKey : key second = some shared) : first = second := by
  induction items with
  | nil => cases firstHere
  | cons item items rest =>
    have apart (other : Item) (here : other ∈ items) (found : key other = some shared)
        (head : key item = some shared) : False := by
      rw [List.filterMap_cons_some head] at distinct
      exact (List.nodup_cons.mp distinct).1 (List.mem_filterMap.mpr ⟨other, here, found⟩)
    rcases List.mem_cons.mp firstHere with rfl | firstIn <;>
      rcases List.mem_cons.mp secondHere with rfl | secondIn
    · rfl
    · exact (apart second secondIn secondKey firstKey).elim
    · exact (apart first firstIn firstKey secondKey).elim
    · refine rest (distinct.sublist ?_) firstIn secondIn
      exact (List.sublist_cons_self item items).filterMap key

/-- Instructions of a function that write the same register are the same. -/
theorem instr_unique (sound : function.Sound unit) {first second : IR.Instr}
    (firstHere : function.Contains first) (secondHere : function.Contains second)
    {out other : IR.Register} (firstOut : first.out? = some out)
    (secondOut : second.out? = some other) (same : out.id = other.id) : first = second := by
  have listed {instr : IR.Instr} (contains : function.Contains instr) :
      instr ∈ function.blocks.toList.flatMap fun block => block.code.toList := by
    obtain ⟨place, index, block, found, there⟩ := contains
    rw [← Array.getElem?_toList] at found there
    exact List.mem_flatMap.mpr ⟨block, List.mem_of_getElem? found, List.mem_of_getElem? there⟩
  have distinct : ((function.blocks.toList.flatMap fun block => block.code.toList).filterMap
      fun instr => instr.out?.map IR.Register.id).Nodup := by
    have ids := sound.registers.nodup_iff.mpr List.nodup_range
    rw [IR.Function.definitions, List.map_flatMap] at ids
    rw [List.filterMap_flatMap]
    convert ids using 2
    funext block
    rw [IR.writtenBy, List.map_filterMap]
  have firstKey : first.out?.map IR.Register.id = some out.id := by rw [firstOut, Option.map_some]
  have secondKey : second.out?.map IR.Register.id = some out.id := by
    rw [secondOut, Option.map_some, same]
  exact eq_of_filterMap_nodup distinct (listed firstHere) (listed secondHere) firstKey secondKey

namespace Frame.Conforms

variable {instr : IR.Instr}

theorem contains (conforms : frame.Conforms unit function block marks machine)
    (there : instr ∈ block.code.toList) : function.Contains instr := by
  obtain ⟨index, found⟩ := List.getElem?_of_mem there
  rw [Array.getElem?_toList] at found
  exact ⟨frame.block, index, block, conforms.here, found⟩

/-- The code before the next instruction, and before the one behind it. -/
theorem take_next (isNext : block.code[frame.index]? = some instr) :
    block.code.toList.take (frame.index + 1) = block.code.toList.take frame.index ++ [instr] := by
  rw [← Array.getElem?_toList] at isNext
  rw [List.take_add_one, isNext]
  rfl

/-- Going on behind an instruction that writes no register and reserves nothing. -/
theorem advance (conforms : frame.Conforms unit function block marks machine)
    (isNext : block.code[frame.index]? = some instr) (noOut : instr.out? = none)
    (plain : ∀ slot, instr ≠ .alloca slot) :
    frame.advance.Conforms unit function block marks machine := by
  refine { conforms with reserved := fun slot marked => ?_, filled := fun other member => ?_ }
  · refine conforms.reserved slot (marked.imp_right fun member => ?_)
    have member : slot ∈ IR.reservedBy (block.code.toList.take (frame.index + 1)) := member
    rw [take_next isNext, IR.reservedBy_append] at member
    rcases List.mem_append.mp member with old | new
    · exact old
    · cases instr with
      | alloca slot => exact (plain slot rfl).elim
      | _ => cases new
  · have member : other ∈ block.code.toList.take (frame.index + 1) := member
    rw [take_next isNext] at member
    rcases List.mem_append.mp member with old | new
    · exact conforms.filled other old
    · obtain rfl := List.mem_singleton.mp new
      cases other with
      | elementAddress => cases noOut
      | call out =>
        cases noOut
        exact fun _ written => by cases written
      | alloca | store => exact fun _ written => by cases written
      | _ => cases noOut

variable {out register : IR.Register}

/-- Filling a register leaves those that other instructions write. -/
theorem assign_filled (sound : function.Sound unit) {other : IR.Instr} {value : Value}
    (isOut : instr.out? = some out) (here : function.Contains instr)
    (otherHere : function.Contains other)
    (filled : (frame.assign out.id value).Filled machine instr) (old : frame.Filled machine other) :
    (frame.assign out.id value).Filled machine other := by
  have kept {written : IR.Register} (isOther : other.out? = some written)
      (different : other ≠ instr) :
      (frame.assign out.id value).registers[written.id]? = frame.registers[written.id]? := by
    refine Array.getElem?_setIfInBounds_ne fun same => different ?_
    exact (instr_unique sound here otherHere isOut isOther same).symm
  by_cases same : other = instr
  · rw [same]
    exact filled
  · cases other with
    | elementAddress written base index =>
      obtain ⟨element, memory, offset, type, register, cell⟩ := old
      exact ⟨element, memory, offset, type, (kept rfl same).trans register, cell⟩
    | load | binary | compare | convert =>
      intro written isWritten
      cases isWritten
      obtain ⟨held, register, isOf⟩ := old _ rfl
      exact ⟨held, (kept rfl same).trans register, isOf⟩
    | call result callee args =>
      intro written isWritten
      obtain ⟨held, register, isOf⟩ := old written isWritten
      exact ⟨held, (kept isWritten same).trans register, isOf⟩
    | alloca | store => exact fun _ isWritten => by cases isWritten

/-- Going on behind an instruction whose register has been filled. -/
theorem assign (conforms : frame.Conforms unit function block marks machine)
    (isNext : block.code[frame.index]? = some instr) {value : Value} (isOut : instr.out? = some out)
    (filled : (frame.assign out.id value).Filled machine instr) :
    (frame.assign out.id value).advance.Conforms unit function block marks machine := by
  have here : function.Contains instr := ⟨_, _, block, conforms.here, isNext⟩
  refine { conforms with
    registerCount := Array.size_setIfInBounds.trans conforms.registerCount
    reserved := fun slot marked => ?_
    filled := fun other member => ?_ }
  · refine conforms.reserved slot (marked.imp_right fun member => ?_)
    have member : slot ∈ IR.reservedBy (block.code.toList.take (frame.index + 1)) := member
    rw [take_next isNext, IR.reservedBy_append] at member
    rcases List.mem_append.mp member with old | new
    · exact old
    · cases instr with
      | alloca slot => cases isOut
      | _ => cases new
  · have member : other ∈ block.code.toList.take (frame.index + 1) := member
    rw [take_next isNext] at member
    show (frame.assign out.id value).Filled machine other
    rcases List.mem_append.mp member with old | new
    · exact assign_filled conforms.code.sound isOut here
        (conforms.contains (List.mem_of_mem_take old)) filled (conforms.filled other old)
    · obtain rfl := List.mem_singleton.mp new
      exact filled

/-- The register of the next instruction is there. -/
theorem assigned (conforms : frame.Conforms unit function block marks machine)
    (isNext : block.code[frame.index]? = some instr) (isOut : instr.out? = some out)
    (value : Value) : (frame.assign out.id value).registers[out.id]? = some value := by
  have listed : out ∈ function.definitions :=
    List.mem_flatMap.mpr ⟨block, List.mem_of_getElem? (Array.getElem?_toList.trans conforms.here),
      List.mem_filterMap.mpr
        ⟨instr, List.mem_of_getElem? (Array.getElem?_toList.trans isNext), isOut⟩⟩
  have inside := List.mem_range.mp
    (conforms.code.sound.registers.mem_iff.mp (List.mem_map_of_mem (f := IR.Register.id) listed))
  rw [← conforms.registerCount] at inside
  exact Array.getElem?_setIfInBounds_self_of_lt inside

/-- Going on behind an instruction that computes a value. -/
theorem compute (conforms : frame.Conforms unit function block marks machine)
    (isNext : block.code[frame.index]? = some instr) {value : Value}
    (isValue : instr.value? = some out) (isOf : value.isOf out.type = true) :
    (frame.assign out.id value).advance.Conforms unit function block marks machine := by
  have isOut : instr.out? = some out := by cases instr <;> first | exact isValue | cases isValue
  have held := conforms.assigned isNext isOut value
  refine conforms.assign isNext isOut ?_
  cases instr with
  | elementAddress => cases isValue
  | _ =>
    intro other isOther
    rw [isValue] at isOther
    cases isOther
    exact ⟨value, held, isOf⟩

/-- Going on behind an instruction that has reserved a variable. -/
theorem bind (conforms : frame.Conforms unit function block marks machine) {slot : Slot}
    (isNext : block.code[frame.index]? = some (.alloca slot)) {place : IR.Local}
    (placed : function.locals[slot.id]? = some place) {memory : Memory}
    (stores : memory.Stores place.type) (keeps : machine.Keeps (machine.allocate memory)) :
    (frame.bind slot.id machine.memories.size).advance.Conforms unit function block marks
      (machine.allocate memory) := by
  have conforms := conforms.keeps keeps
  have inside : slot.id < frame.locals.size :=
    conforms.localCount.symm ▸ (Array.getElem?_eq_some_iff.mp placed).1
  have bound (other : Nat) : (frame.bind slot.id machine.memories.size).locals[other]? =
      if slot.id = other then some (some machine.memories.size) else frame.locals[other]? := by
    show (frame.locals.setIfInBounds slot.id _)[other]? = _
    rw [Array.getElem?_setIfInBounds, if_pos inside]
  refine { conforms with
    localCount := Array.size_setIfInBounds.trans conforms.localCount
    locals := fun other id found => ?_
    reserved := fun other marked => ?_
    filled := fun other member => ?_ }
  · have found := (bound other).symm.trans found
    split at found
    · rename_i same
      cases found
      refine ⟨place, memory, same ▸ placed, ?_, stores⟩
      show (machine.memories.push memory)[machine.memories.size]? = some memory
      exact Array.getElem?_push_size
    · exact conforms.locals other id found
  · rw [Frame.advance, bound other]
    split
    · exact ⟨_, rfl⟩
    · rename_i different
      refine conforms.reserved other (marked.imp_right fun member => ?_)
      have member : other ∈ IR.reservedBy (block.code.toList.take (frame.index + 1)) := member
      rw [take_next isNext, IR.reservedBy_append] at member
      rcases List.mem_append.mp member with old | new
      · exact old
      · exact (different (List.mem_singleton.mp new).symm).elim
  · have member : other ∈ block.code.toList.take (frame.index + 1) := member
    rw [take_next isNext] at member
    rcases List.mem_append.mp member with old | new
    · exact conforms.filled other old
    · obtain rfl := List.mem_singleton.mp new
      exact fun _ written => by cases written

/-- Going to another block by a branch that keeps to the marks. -/
theorem jump (conforms : frame.Conforms unit function block marks machine) {target : Nat}
    {next : IR.Block} (found : function.blocks[target]? = some next)
    (branch : target ∈ function.successors frame.block)
    (marked : ∀ slot, marks target slot → ∃ id, frame.locals[slot]? = some (some id)) :
    (frame.jump target).Conforms unit function next marks machine where
  found := conforms.found
  code := conforms.code
  here := found
  path := conforms.path.tail branch
  registerCount := conforms.registerCount
  localCount := conforms.localCount
  args := conforms.args
  locals := conforms.locals
  reserved := fun slot entered => by
    rcases entered with isMarked | member
    · exact marked slot isMarked
    · cases member
  filled := fun instr member => by cases member

/-! ### Operands -/

/-- A register that has been written in the block and holds a value wherever it is written. -/
theorem register_value (conforms : frame.Conforms unit function block marks machine)
    (written : register ∈ IR.writtenBy (block.code.toList.take frame.index))
    (here : function.Contains instr) (isValue : instr.value? = some register) :
    ∃ value, frame.registers[register.id]? = some value ∧ value.isOf register.type = true := by
  obtain ⟨other, member, isOut⟩ := List.mem_filterMap.mp written
  have outs : instr.out? = some register := by
    cases instr <;> first | exact isValue | cases isValue
  obtain rfl := instr_unique conforms.code.sound
    (conforms.contains (List.mem_of_mem_take member)) here isOut outs rfl
  have filled := conforms.filled other member
  cases other with
  | elementAddress => cases isValue
  | _ => exact filled register isValue

/-- A register that holds the address of an element. -/
theorem register_address (conforms : frame.Conforms unit function block marks machine)
    {base index : Operand} (written : register ∈ IR.writtenBy (block.code.toList.take frame.index))
    (here : function.Contains (.elementAddress register base index)) :
    ∃ element memory offset, register.type = .ptr element ∧
      frame.registers[register.id]? = some (.address memory offset) ∧
      machine.Cell memory offset element := by
  obtain ⟨other, member, isOut⟩ := List.mem_filterMap.mp written
  obtain rfl := instr_unique conforms.code.sound
    (conforms.contains (List.mem_of_mem_take member)) here isOut rfl rfl
  exact conforms.filled _ member

section Operands

variable {operand : Operand}

theorem value (conforms : frame.Conforms unit function block marks machine)
    (resolves : operand.Resolves unit function
      (IR.writtenBy (block.code.toList.take frame.index)))
    (role : operand.IsValue function) :
    ∃ value, View.value ⟨unit, machine, frame⟩ operand = .ok value ∧
      value.isOf operand.type = true := by
  cases role with
  | int number scalar => exact ⟨_, rfl, rfl⟩
  | float number => exact ⟨_, rfl, rfl⟩
  | null => exact ⟨_, rfl, rfl⟩
  | data id =>
    obtain ⟨datum, found⟩ : ∃ datum, unit.data[id]? = some datum :=
      ⟨_, Array.getElem?_eq_getElem resolves⟩
    exact ⟨.text datum.bytes, by simp [View.value, View.present, found], rfl⟩
  | @param slot storage scalar =>
    have resolves : slot.Resolves unit function := resolves
    rw [IR.Slot.Resolves, storage] at resolves
    obtain ⟨value, found, isOf⟩ := conforms.args slot.id slot.type resolves.2
    refine ⟨value, ?_, ?_⟩
    · simp [View.value, View.slotValue, storage, found, View.present]
    · simpa [Operand.type, IR.Slot.valueType, storage] using isOf
  | @register register instr here isValue scalar =>
    obtain ⟨value, found, isOf⟩ := conforms.register_value resolves here isValue
    exact ⟨value, by simp [View.value, found, View.present], isOf⟩

/-- The storage behind a slot that is an address. -/
theorem base (conforms : frame.Conforms unit function block marks machine)
    (machineConforms : machine.Conforms unit) {slot : Slot}
    (resolves : slot.Resolves unit function)
    (role : (Operand.slot slot).IsAddress function fun slot =>
      marks frame.block slot ∨ slot ∈ IR.reservedBy (block.code.toList.take frame.index)) :
    ∃ memory cells, View.value ⟨unit, machine, frame⟩ (.slot slot) = .ok (.address memory 0) ∧
      machine.memories[memory]? = some cells ∧ cells.Stores slot.type ∧
      (Operand.slot slot).type = .ptr slot.type := by
  cases role with
  | stack storage isReserved =>
    rw [IR.Slot.Resolves, storage] at resolves
    obtain ⟨place, placed, type⟩ := Option.map_eq_some_iff.mp resolves
    obtain ⟨id, bound⟩ := conforms.reserved slot.id isReserved
    obtain ⟨other, cells, otherPlaced, found, stores⟩ := conforms.locals slot.id id bound
    rw [placed] at otherPlaced
    cases otherPlaced
    refine ⟨id, cells, ?_, found, type ▸ stores, ?_⟩
    · simp [View.value, View.slotValue, storage, bound]
    · simp [Operand.type, IR.Slot.valueType, storage]
  | «global» storage =>
    rw [IR.Slot.Resolves, storage] at resolves
    obtain ⟨global, placed, type⟩ := Option.map_eq_some_iff.mp resolves
    obtain ⟨cells, found, stores⟩ := machineConforms.globals slot.id global placed
    refine ⟨slot.id, cells, ?_, found, type ▸ stores, ?_⟩
    · simp [View.value, View.slotValue, storage, (Array.getElem?_eq_some_iff.mp placed).1]
    · simp [Operand.type, IR.Slot.valueType, storage]

/-- The cell behind the address of a scalar. -/
theorem cell (conforms : frame.Conforms unit function block marks machine)
    (machineConforms : machine.Conforms unit) {type : Ty}
    (scalar : type.IsScalar)
    (resolves : operand.Resolves unit function
      (IR.writtenBy (block.code.toList.take frame.index)))
    (role : operand.IsAddress function fun slot =>
      marks frame.block slot ∨ slot ∈ IR.reservedBy (block.code.toList.take frame.index))
    (points : operand.type = .ptr type) :
    ∃ memory offset, View.value ⟨unit, machine, frame⟩ operand = .ok (.address memory offset) ∧
      machine.Cell memory offset type := by
  have slotCell {slot : Slot} (isSlot : operand = .slot slot) : ∃ memory offset,
      View.value ⟨unit, machine, frame⟩ operand = .ok (.address memory offset) ∧
        machine.Cell memory offset type := by
    subst isSlot
    obtain ⟨memory, cells, value, found, stores, isPointer⟩ :=
      conforms.base machineConforms resolves role
    rw [isPointer] at points
    cases points
    obtain ⟨sameType, inside⟩ := stores.scalar scalar
    exact ⟨memory, 0, value, cells, found, sameType, inside⟩
  cases role with
  | stack | «global» => exact slotCell rfl
  | @element register base index here =>
    obtain ⟨element, memory, offset, type, found, cell⟩ :=
      conforms.register_address resolves here
    have same : register.type = .ptr _ := points
    rw [type] at same
    cases same
    exact ⟨memory, offset, by simp [View.value, found, View.present], cell⟩

theorem address (conforms : frame.Conforms unit function block marks machine)
    (machineConforms : machine.Conforms unit)
    (resolves : operand.Resolves unit function
      (IR.writtenBy (block.code.toList.take frame.index)))
    (role : operand.IsAddress function fun slot =>
      marks frame.block slot ∨ slot ∈ IR.reservedBy (block.code.toList.take frame.index)) :
    ∃ memory offset, View.value ⟨unit, machine, frame⟩ operand = .ok (.address memory offset) := by
  have slotAddress {slot : Slot} (isSlot : operand = .slot slot) : ∃ memory offset,
      View.value ⟨unit, machine, frame⟩ operand = .ok (.address memory offset) := by
    subst isSlot
    obtain ⟨memory, _, value, _⟩ := conforms.base machineConforms resolves role
    exact ⟨memory, 0, value⟩
  cases role with
  | stack | «global» => exact slotAddress rfl
  | @element register base index here =>
    obtain ⟨_, memory, offset, _, found, _⟩ := conforms.register_address resolves here
    exact ⟨memory, offset, by simp [View.value, found, View.present]⟩

end Operands

end Frame.Conforms

end Frames

end Machine

end Pascaline
