/-
Values stay where they belong. Addresses are made by slots and by the addresses of elements, and
never leave the registers of the frame that made them: no cell holds one, and none is passed to a
function or returned. So a function reaches the variables of the module and the memories that were
made for it or for what it calls, and no others. An integer is cut to the width of the register or
the cell that receives it.

All this holds whatever a function is called with from outside, also if the arguments are too few
or of the wrong sorts. It says nothing about types of values beyond the widths of integers.
-/

import Pascaline.Proofs.Safety

namespace Pascaline

open IR (Operand Slot)

/-- A module whose functions are typed, complete and guarded, or served from outside. -/
structure IR.Module.Guarded (unit : IR.Module) : Prop where
  defined : ∀ (place : Nat) (function : IR.Function), unit.functions[place]? = some function →
    function.external = false →
      ∃ marks, (∀ slot, ¬ marks 0 slot) ∧ function.Executable unit marks
  served : ∀ (place : Nat) (function : IR.Function), unit.functions[place]? = some function →
    function.external = true → function.name ∈ Lowering.servedNames

theorem Lowering.compile_guarded {name : Bytes} {program : Program} {unit : IR.Module}
    (compiled : compile name program = .ok unit) : unit.Guarded := by
  obtain ⟨_, workspace, lowered, rfl⟩ := compile_eq_ok.mp compiled
  obtain ⟨sound, complete⟩ := lowerProgram_sound lowered
  refine ⟨fun place function found defined => ?_, fun place function found isExternal =>
    (sound.served place function found isExternal).1⟩
  have settled {property : Prop} (either : function.external = true ∨ property) : property := by
    rcases either with isExternal | holds
    · rw [defined] at isExternal
      cases isExternal
    · exact holds
  obtain ⟨marks, unmarked, guarded⟩ := settled (lowerProgram_secure lowered place function found)
  exact ⟨marks, unmarked, (sound.defined place function found defined).1,
    settled (complete place function found), guarded⟩

/-- What is checked of the outcome of compiling a program is true of its module. -/
theorem Lowering.compile_any {name : Bytes} {program : Program} {check : IR.Module → Bool}
    (checks : (compile name program).toOption.any check = true) :
    ∃ unit, compile name program = .ok unit ∧ check unit = true := by
  cases compiled : compile name program with
  | error failure =>
    rw [compiled] at checks
    cases checks
  | ok unit =>
    rw [compiled] at checks
    exact ⟨unit, rfl, checks⟩

namespace Machine

/-! ### Values -/

/-- A value that a type receives as it is: if both are integers, the width cuts nothing off. -/
def Value.Fits (value : Value) (type : Ty) : Prop := value.fit type = value

theorem wrapToWidth_wrapToWidth (bits : Int16) (number : Int64) :
    wrapToWidth bits (wrapToWidth bits number) = wrapToWidth bits number := by
  unfold wrapToWidth
  split
  · rw [Int64.and_assoc, Int64.and_self]
  · split
    · rw [Int8.toInt8_toInt64]
    · split
      · rw [Int16.toInt16_toInt64]
      · split
        · rw [Int32.toInt32_toInt64]
        · rfl

theorem Value.fits_fit (value : Value) (type : Ty) : (value.fit type).Fits type := by
  cases value with
  | int number =>
    cases type with
    | int target => exact congrArg Value.int (wrapToWidth_wrapToWidth target.bits number)
    | _ => rfl
  | _ => rfl

theorem Value.fits_zero (type : Ty) : (Value.zero type).Fits type := by
  cases type with
  | int target =>
    have zero : wrapToWidth target.bits 0 = 0 := by
      unfold wrapToWidth
      repeat' split
      all_goals rfl
    exact congrArg Value.int zero
  | _ => rfl

theorem Value.fits_ofBool (value : Bool) : (Value.ofBool value).Fits .i1 := by
  cases value <;> rfl

theorem Value.isPlain_fit {value : Value} (plain : value.isPlain = true) (type : Ty) :
    (value.fit type).isPlain = true := by
  cases value with
  | int number => cases type <;> rfl
  | _ => exact plain

theorem Value.isPlain_zero (type : Ty) : (Value.zero type).isPlain = true := by
  cases type <;> rfl

/-! ### Memories -/

/-- The cells of a memory hold no addresses, and no integers that its type cannot hold. -/
def Memory.Contained (memory : Memory) : Prop :=
  ∀ (offset : Nat) (value : Value), memory.cells[offset]? = some value →
    value.isPlain = true ∧ value.Fits memory.type

/-- The memory of a variable of a type: a cell for each element of an array, or one cell. -/
def Memory.IsFor (memory : Memory) : Ty → Prop
  | .array element length =>
    memory.type = element ∧ memory.cells.size = length.toNatClampNeg
  | type => memory.type = type ∧ memory.cells.size = 1

variable {memory : Memory} {type : Ty}

theorem Memory.IsFor.of_same {later : Memory} (isFor : memory.IsFor type)
    (sameType : later.type = memory.type) (sameSize : later.cells.size = memory.cells.size) :
    later.IsFor type := by
  cases type <;> exact ⟨sameType.trans isFor.1, sameSize.trans isFor.2⟩

theorem Memory.IsFor.scalar (isFor : memory.IsFor type) (scalar : type.IsScalar) :
    memory.type = type := by
  rcases scalar.cases with rfl | rfl | rfl | rfl | rfl <;> exact isFor.1

theorem Memory.contained_replicate (type : Ty) (size : Nat) :
    Memory.Contained ⟨type, Array.replicate size (.zero type)⟩ := by
  intro offset value found
  rw [Array.getElem?_replicate] at found
  split at found
  · cases found
    exact ⟨Value.isPlain_zero type, Value.fits_zero type⟩
  · cases found

theorem Memory.new?_contained (made : Memory.new? type = some memory) :
    memory.IsFor type ∧ memory.Contained := by
  cases type with
  | array element length =>
    simp only [Memory.new?] at made
    split at made
    · cases made
    · cases made
      exact ⟨⟨rfl, Array.size_replicate⟩, contained_replicate element length.toNatClampNeg⟩
  | _ =>
    cases made
    exact ⟨⟨rfl, rfl⟩, contained_replicate _ 1⟩

theorem Memory.Contained.write (contained : memory.Contained) (offset : Nat) {value : Value}
    (plain : value.isPlain = true) : (memory.write offset (value.fit memory.type)).Contained := by
  intro other held there
  have there : (memory.cells.setIfInBounds offset (value.fit memory.type))[other]? = some held :=
    there
  rw [Array.getElem?_setIfInBounds] at there
  split at there
  · split at there
    · cases there
      exact ⟨Value.isPlain_fit plain _, Value.fits_fit value memory.type⟩
    · cases there
  · exact contained other held there

/-! ### Machines -/

/-- A machine whose cells hold nothing that they should not. -/
structure Machine.Contained (unit : IR.Module) (machine : Machine) : Prop where
  globals : ∀ (place : Nat) (global : IR.Variable), unit.globals[place]? = some global →
    ∃ memory, machine.memories[place]? = some memory ∧ memory.IsFor global.type
  memories : ∀ (id : Nat) (memory : Memory), machine.memories[id]? = some memory →
    memory.Contained

/-- The memories within reach of what was started when there were as many as the base: those of the
variables of the module, and those made since. -/
def InReach (unit : IR.Module) (base memory : Nat) : Prop :=
  memory < unit.globals.size ∨ base ≤ memory

/-- A later machine that spares all memories out of reach. -/
structure Machine.Spares (unit : IR.Module) (base : Nat) (before after : Machine) : Prop where
  contained : after.Contained unit
  keeps : before.Keeps after
  spared : ∀ id : Nat, ¬ InReach unit base id → after.memories[id]? = before.memories[id]?

namespace Machine

variable {unit : IR.Module} {base : Nat} {machine later last : Machine}

theorem Keeps.size_le (keeps : machine.Keeps later) :
    machine.memories.size ≤ later.memories.size := by
  by_contra shrinks
  have inside : later.memories.size < machine.memories.size := Nat.lt_of_not_le shrinks
  obtain ⟨_, found, _⟩ := keeps _ _ (Array.getElem?_eq_getElem inside)
  exact absurd (Array.getElem?_eq_some_iff.mp found).1 (Nat.lt_irrefl _)

theorem Contained.globals_le (contained : machine.Contained unit) :
    unit.globals.size ≤ machine.memories.size := by
  by_contra fewer
  have inside : machine.memories.size < unit.globals.size := Nat.lt_of_not_le fewer
  obtain ⟨_, found, _⟩ := contained.globals _ _ (Array.getElem?_eq_getElem inside)
  exact absurd (Array.getElem?_eq_some_iff.mp found).1 (Nat.lt_irrefl _)

theorem Contained.keeps_globals (contained : machine.Contained unit) (keeps : machine.Keeps later)
    (place : Nat) (global : IR.Variable) (found : unit.globals[place]? = some global) :
    ∃ memory, later.memories[place]? = some memory ∧ memory.IsFor global.type := by
  obtain ⟨memory, there, isFor⟩ := contained.globals place global found
  obtain ⟨other, otherThere, type, size⟩ := keeps place memory there
  exact ⟨other, otherThere, isFor.of_same type size⟩

namespace Spares

theorem of_memories (contained : machine.Contained unit)
    (same : later.memories = machine.memories) : machine.Spares unit base later := by
  refine ⟨⟨?_, ?_⟩, fun id memory found => ⟨memory, same ▸ found, rfl, rfl⟩,
    fun id _ => by rw [same]⟩
  · rw [same]
    exact contained.globals
  · rw [same]
    exact contained.memories

theorem refl (contained : machine.Contained unit) : machine.Spares unit base machine :=
  of_memories contained rfl

theorem trans (early : machine.Spares unit base later) (late : later.Spares unit base last) :
    machine.Spares unit base last :=
  ⟨late.contained, early.keeps.trans late.keeps, fun id far =>
    (late.spared id far).trans (early.spared id far)⟩

/-- Changing a memory within reach. -/
theorem modify {id : Nat} (change : Memory → Memory) (contained : machine.Contained unit)
    (near : InReach unit base id) (type : ∀ memory, (change memory).type = memory.type)
    (size : ∀ memory, (change memory).cells.size = memory.cells.size)
    (changed : ∀ memory, machine.memories[id]? = some memory → (change memory).Contained)
    (memories : later.memories = machine.memories.modify id change) :
    machine.Spares unit base later := by
  have keeps : machine.Keeps later := by
    intro place memory found
    rw [memories, Array.getElem?_modify]
    split
    · rw [found]
      exact ⟨change memory, rfl, type memory, size memory⟩
    · exact ⟨memory, found, rfl, rfl⟩
  refine ⟨⟨contained.keeps_globals keeps, fun place memory found => ?_⟩, keeps, fun place far => ?_⟩
  · rw [memories, Array.getElem?_modify] at found
    split at found
    · rename_i same
      obtain ⟨old, there, rfl⟩ := Option.map_eq_some_iff.mp found
      exact changed old (same ▸ there)
    · exact contained.memories place memory found
  · rw [memories, Array.getElem?_modify, if_neg]
    rintro rfl
    exact far near

theorem write {id offset : Nat} {cells : Memory} {value : Value}
    (contained : machine.Contained unit) (near : InReach unit base id)
    (found : machine.memories[id]? = some cells) (plain : value.isPlain = true) :
    machine.Spares unit base (machine.write id offset (value.fit cells.type)) := by
  refine modify (·.write offset (value.fit cells.type)) contained near (fun _ => rfl)
    (fun _ => Array.size_setIfInBounds ..) (fun memory there => ?_) rfl
  rw [found] at there
  cases there
  exact (contained.memories id cells found).write offset plain

theorem clear {id : Nat} (contained : machine.Contained unit) (near : InReach unit base id) :
    machine.Spares unit base (machine.clear id) :=
  modify Memory.clear contained near (fun _ => rfl) (fun _ => Array.size_replicate)
    (fun memory _ => Memory.contained_replicate memory.type memory.cells.size) rfl

theorem allocate {memory : Memory} (contained : machine.Contained unit)
    (room : base ≤ machine.memories.size) (memoryContained : memory.Contained) :
    machine.Spares unit base (machine.allocate memory) := by
  have pushed (place : Nat) : (machine.allocate memory).memories[place]? =
      if place = machine.memories.size then some memory else machine.memories[place]? :=
    Array.getElem?_push
  have keeps : machine.Keeps (machine.allocate memory) := by
    intro place other found
    have inside := (Array.getElem?_eq_some_iff.mp found).1
    exact ⟨other, by rw [pushed, if_neg (Nat.ne_of_lt inside), found], rfl, rfl⟩
  refine ⟨⟨contained.keeps_globals keeps, fun place other found => ?_⟩, keeps, fun place far => ?_⟩
  · rw [pushed] at found
    split at found
    · cases found
      exact memoryContained
    · exact contained.memories place other found
  · rw [pushed, if_neg]
    rintro rfl
    exact far (.inr room)

end Spares

/-- The memories of variables, each made for its type. -/
theorem memories_made {globals : List IR.Variable} {memories : List Memory}
    (made : globals.mapM (fun global => Memory.new? global.type) = some memories) :
    List.Forall₂ (fun global memory => Memory.new? global.type = some memory) globals memories := by
  induction globals generalizing memories with
  | nil =>
    cases made
    exact .nil
  | cons global globals rest =>
    simp only [List.mapM_cons, Option.bind_eq_bind, Option.bind_eq_some_iff, Option.pure_def,
      Option.some.injEq] at made
    obtain ⟨memory, first, others, made, rfl⟩ := made
    exact .cons first (rest made)

/-- A new machine has a memory for each variable of the module. -/
theorem new?_made {input : Bytes} (made : Machine.new? unit input = some machine) :
    ∃ memories : List Memory, machine = { memories := memories.toArray, input } ∧
      List.Forall₂ (fun global memory => Memory.new? global.type = some memory)
        unit.globals.toList memories := by
  unfold Machine.new? at made
  rw [Array.mapM_eq_mapM_toList] at made
  obtain ⟨memories, mapped, same⟩ := Option.bind_eq_some_iff.mp made
  obtain ⟨list, listed, rfl⟩ := Option.map_eq_some_iff.mp mapped
  cases same
  exact ⟨list, rfl, memories_made listed⟩

theorem new?_memory {input : Bytes} (made : Machine.new? unit input = some machine) {place : Nat}
    {global : IR.Variable} (found : unit.globals[place]? = some global) :
    ∃ memory, machine.memories[place]? = some memory ∧ Memory.new? global.type = some memory := by
  obtain ⟨memories, rfl, pairs⟩ := new?_made made
  rw [← Array.getElem?_toList] at found
  obtain ⟨memory, there, isNew⟩ := forall₂_getElem? pairs found
  exact ⟨memory, by rw [List.getElem?_toArray, there], isNew⟩

/-- A new machine holds zeros. -/
theorem new?_contained {input : Bytes} (made : Machine.new? unit input = some machine) :
    machine.Contained unit := by
  refine ⟨fun place global found => ?_, fun id memory found => ?_⟩
  · obtain ⟨memory, there, isNew⟩ := new?_memory made found
    exact ⟨memory, there, (Memory.new?_contained isNew).1⟩
  · obtain ⟨memories, rfl, pairs⟩ := new?_made made
    rw [List.getElem?_toArray] at found
    obtain ⟨_, _, isNew⟩ := forall₂_getElem? pairs.flip found
    exact (Memory.new?_contained isNew).2

end Machine

/-! ### Functions that are served from outside -/

section Served

variable {unit : IR.Module} {base : Nat} {machine : Machine}

/-- What a conversion reads is no address. -/
theorem conversion_plain {format input rest : Bytes} {value : Value}
    (converted : Scan.conversion format input = (rest, .ok (.read value))) :
    value.isPlain = true := by
  have option {made : Option Value} (read : Scan.Outcome.ofOption made = .read value)
      (plain : ∀ other, made = some other → other.isPlain = true) : value.isPlain = true := by
    cases made with
    | none => cases read
    | some other =>
      cases read
      exact plain value rfl
  have word {reader : Bytes → Option Value} {input : Bytes}
      (read : (Scan.readWord reader input).2 = .read value)
      (plain : ∀ text other, reader text = some other → other.isPlain = true) :
      value.isPlain = true := by
    unfold Scan.readWord at read
    split at read
    · cases read
    · rename_i text _ _ _
      exact option read (plain text)
  unfold Scan.conversion at converted
  split at converted
  · cases converted
  · cases converted
  · rename_i left verb _
    split at converted
    · cases left with
      | nil => cases converted
      | cons byte left =>
        cases converted
        rfl
    · split at converted
      · rename_i reader isReader
        have read : (Scan.readWord reader left).2 = .read value :=
          Except.ok.inj (congrArg Prod.snd converted)
        refine word read fun text other made => ?_
        unfold Scan.wordReader? at isReader
        split at isReader
        · cases isReader
          obtain ⟨_, _, rfl⟩ := Option.map_eq_some_iff.mp made
          rfl
        · split at isReader
          · cases isReader
            obtain ⟨_, _, rfl⟩ := Option.map_eq_some_iff.mp made
            rfl
          · split at isReader
            · cases isReader
              cases made
              rfl
            · cases isReader
      · cases converted

theorem scanCall_spares {values : List Value} (contained : machine.Contained unit)
    (near : ∀ memory offset : Nat, .address memory offset ∈ values → InReach unit base memory) :
    machine.Spares unit base (scanCall machine values).1 ∧
      ∀ result, (scanCall machine values).2 = .ok result → result.isPlain = true := by
  have taken (input : Bytes) : machine.Spares unit base { machine with input } :=
    .of_memories contained rfl
  unfold scanCall
  split
  · rename_i format memory offset
    split
    · exact ⟨taken _, nofun⟩
    · rename_i input outcome converted
      dsimp only
      split
      · rename_i value
        split
        · rename_i cells found
          split
          · refine ⟨(taken input).trans (.write (taken input).contained (near memory offset ?_)
              found (conversion_plain converted)), fun result isResult => ?_⟩
            · simp
            · cases isResult
              rfl
          · exact ⟨taken _, nofun⟩
        · exact ⟨taken _, nofun⟩
      · refine ⟨taken _, fun result isResult => ?_⟩
        cases isResult
        rfl
  all_goals exact ⟨.refl contained, nofun⟩

/-- A function that is served from outside writes at most to a cell whose address it is given. -/
theorem externalCall_spares (name : Bytes) {values : List Value}
    (contained : machine.Contained unit)
    (near : ∀ memory offset : Nat, .address memory offset ∈ values → InReach unit base memory) :
    machine.Spares unit base (externalCall name machine values).1 ∧
      ∀ result, (externalCall name machine values).2 = .ok result → result.isPlain = true := by
  unfold externalCall
  split
  · unfold printCall
    split
    · refine ⟨.of_memories contained rfl, fun result isResult => ?_⟩
      cases isResult
      rfl
    · exact ⟨.refl contained, nofun⟩
  · split
    · exact scanCall_spares contained near
    · exact ⟨.refl contained, nofun⟩

end Served

/-! ### Frames -/

/-- What the register of an instruction may hold besides nil: the address of an element within
reach, or a value that is no address and that the type of the register can hold. -/
def MayHold (unit : IR.Module) (base : Nat) (machine : Machine) : IR.Instr → Value → Prop
  | .elementAddress out _ _, value => value = .nil ∨ ∃ memory offset cells,
      value = .address memory offset ∧ InReach unit base memory ∧
      machine.memories[memory]? = some cells ∧ out.type = .ptr cells.type
  | instr, value => value.isPlain = true ∧ ∀ out, instr.out? = some out → value.Fits out.type

/-- A frame that has been made when there were as many memories as the base, or more. -/
structure Frame.Contained (unit : IR.Module) (function : IR.Function) (base : Nat)
    (machine : Machine) (frame : Frame) : Prop where
  found : unit.functions[frame.function]? = some function
  code : ∃ marks, function.Executable unit marks
  room : base ≤ machine.memories.size
  args : ∀ (place : Nat) (value : Value), frame.args[place]? = some value → value.isPlain = true
  locals : ∀ slot id : Nat, frame.locals[slot]? = some (some id) → base ≤ id ∧
    ∃ place memory, function.locals[slot]? = some place ∧ machine.memories[id]? = some memory ∧
      memory.IsFor place.type
  registers : ∀ (instr : IR.Instr) (out : IR.Register) (value : Value),
    function.Contains instr → instr.out? = some out → frame.registers[out.id]? = some value →
      MayHold unit base machine instr value

theorem View.eq_some_of_present {held : Option Value} {value : Value}
    (there : View.present held = .ok value) : held = some value := by
  cases held with
  | none => cases there
  | some other =>
    cases there
    rfl

section Frames

variable {unit : IR.Module} {function : IR.Function} {base : Nat} {machine later : Machine}
  {frame : Frame} {instr : IR.Instr}

theorem MayHold.keeps {value : Value} (holds : MayHold unit base machine instr value)
    (keeps : machine.Keeps later) : MayHold unit base later instr value := by
  cases instr with
  | elementAddress out array index =>
    refine Or.imp_right ?_ holds
    rintro ⟨memory, offset, cells, isAddress, near, there, type⟩
    obtain ⟨other, otherThere, sameType, _⟩ := keeps memory cells there
    exact ⟨memory, offset, other, isAddress, near, otherThere, by rw [sameType]; exact type⟩
  | _ => exact holds

/-- Registers are nil at first. -/
theorem MayHold.nil (unit : IR.Module) (base : Nat) (machine : Machine) (instr : IR.Instr) :
    MayHold unit base machine instr .nil := by
  cases instr with
  | elementAddress => exact .inl rfl
  | _ => exact ⟨rfl, fun _ _ => rfl⟩

/-- A value for the register of an instruction that computes no address. -/
theorem MayHold.of_value {out : IR.Register} {value : Value} (isValue : instr.value? = some out)
    (plain : value.isPlain = true) (fits : value.Fits out.type) :
    MayHold unit base machine instr value := by
  cases instr with
  | elementAddress => cases isValue
  | alloca | store => cases isValue
  | _ =>
    refine ⟨plain, fun other isOther => ?_⟩
    cases isValue.symm.trans isOther
    exact fits

theorem MayHold.value {out : IR.Register} {value : Value}
    (holds : MayHold unit base machine instr value) (isValue : instr.value? = some out) :
    value.isPlain = true ∧ value.Fits out.type := by
  cases instr with
  | elementAddress => cases isValue
  | alloca | store => cases isValue
  | _ => exact ⟨holds.1, holds.2 out isValue⟩

namespace Frame.Contained

theorem keeps (contained : frame.Contained unit function base machine)
    (keeps : machine.Keeps later) : frame.Contained unit function base later := by
  refine { contained with
    room := contained.room.trans keeps.size_le
    locals := fun slot id bound => ?_
    registers := fun instr out value contains isOut held =>
      (contained.registers instr out value contains isOut held).keeps keeps }
  obtain ⟨above, place, memory, placed, there, isFor⟩ := contained.locals slot id bound
  obtain ⟨other, otherThere, type, size⟩ := keeps id memory there
  exact ⟨above, place, other, placed, otherThere, isFor.of_same type size⟩

theorem advance (contained : frame.Contained unit function base machine) :
    frame.advance.Contained unit function base machine := { contained with }

theorem jump (contained : frame.Contained unit function base machine) (target : Nat) :
    (frame.jump target).Contained unit function base machine := { contained with }

/-- Filling the register of an instruction leaves those that other instructions write. -/
theorem assign (contained : frame.Contained unit function base machine) {out : IR.Register}
    {value : Value} (contains : function.Contains instr) (isOut : instr.out? = some out)
    (holds : MayHold unit base machine instr value) :
    (frame.assign out.id value).Contained unit function base machine := by
  refine { contained with registers := fun other register held otherContains isOther found => ?_ }
  have found : (frame.registers.setIfInBounds out.id value)[register.id]? = some held := found
  obtain ⟨marks, code⟩ := contained.code
  rw [Array.getElem?_setIfInBounds] at found
  split at found
  · rename_i same
    split at found
    · cases found
      rw [← instr_unique code.sound contains otherContains isOut isOther same]
      exact holds
    · cases found
  · exact contained.registers other register held otherContains isOther found

/-- A variable gets a memory that has just been made. -/
theorem bind (contained : frame.Contained unit function base machine) {slot : Nat}
    {place : IR.Local} {memory : Memory} (placed : function.locals[slot]? = some place)
    (isFor : memory.IsFor place.type) (keeps : machine.Keeps (machine.allocate memory)) :
    (frame.bind slot machine.memories.size).Contained unit function base
      (machine.allocate memory) := by
  refine { contained.keeps keeps with locals := fun other id bound => ?_ }
  have bound : (frame.locals.setIfInBounds slot (some machine.memories.size))[other]? =
    some (some id) := bound
  rw [Array.getElem?_setIfInBounds] at bound
  split at bound
  · rename_i same
    split at bound
    · cases bound
      refine ⟨contained.room, place, memory, same ▸ placed, ?_, isFor⟩
      show (machine.memories.push memory)[machine.memories.size]? = some memory
      exact Array.getElem?_push_size
    · cases bound
  · exact (contained.keeps keeps).locals other id bound

/-- The frame of a function that has just been entered reaches nothing that was there before. -/
theorem new {callee : Nat} {values : List Value} (guarded : unit.Guarded)
    (found : unit.functions[callee]? = some function) (defined : function.external = false)
    (plain : ∀ value ∈ values, value.isPlain = true) (room : base ≤ machine.memories.size) :
    (Frame.new callee function values).Contained unit function base machine where
  found := found
  code := (guarded.defined callee function found defined).imp fun _ => And.right
  room := room
  args place value there :=
    plain value (List.mem_of_getElem? (List.getElem?_toArray.symm.trans there))
  locals slot id bound := by
    have bound : (Array.replicate function.locals.size none)[slot]? = some (some id) := bound
    rw [Array.getElem?_replicate] at bound
    split at bound <;> cases bound
  registers instr out value contains isOut held := by
    have held : (Array.replicate function.registers .nil)[out.id]? = some value := held
    rw [Array.getElem?_replicate] at held
    split at held
    · cases held
      exact .nil unit base machine instr
    · cases held

/-- The next instruction stands in the block of the frame. -/
theorem next_instruction (contained : frame.Contained unit function base machine)
    (isNext : frame.next unit = .instruction instr) :
    ∃ block, function.blocks[frame.block]? = some block ∧
      block.code[frame.index]? = some instr := by
  rcases frame.next_cases unit with nothing |
    ⟨_, block, found, here, ⟨_, there, isInstr⟩ | ⟨_, _, _, isTerminator⟩⟩
  · cases isNext.symm.trans nothing
  · cases contained.found.symm.trans found
    cases isNext.symm.trans isInstr
    exact ⟨block, here, there⟩
  · cases isNext.symm.trans isTerminator

/-- The terminator that comes next is that of the block of the frame. -/
theorem next_terminator (contained : frame.Contained unit function base machine)
    {terminator : IR.Terminator} (isNext : frame.next unit = .terminator terminator) :
    ∃ block, function.blocks[frame.block]? = some block ∧
      block.terminator = some terminator := by
  rcases frame.next_cases unit with nothing |
    ⟨_, block, found, here, ⟨_, _, isInstr⟩ | ⟨_, _, ended, isTerminator⟩⟩
  · cases isNext.symm.trans nothing
  · cases isNext.symm.trans isInstr
  · cases contained.found.symm.trans found
    cases isNext.symm.trans isTerminator
    exact ⟨block, here, ended⟩

/-! ### Operands -/

/-- An operand that stands for a value of the program is no address. -/
theorem value_plain (contained : frame.Contained unit function base machine) {operand : Operand}
    {value : Value} (role : operand.IsValue function)
    (read : View.value ⟨unit, machine, frame⟩ operand = .ok value) : value.isPlain = true := by
  cases role with
  | int | float | null =>
    cases read
    rfl
  | data id =>
    obtain ⟨datum, _, rfl⟩ := Option.map_eq_some_iff.mp (View.eq_some_of_present read)
    rfl
  | @param slot storage scalar =>
    have read : View.slotValue ⟨unit, machine, frame⟩ slot = .ok value := read
    rw [View.slotValue, storage] at read
    exact contained.args slot.id value (View.eq_some_of_present read)
  | @register register instr contains isValue scalar =>
    have isOut : instr.out? = some register := by
      cases instr <;> first | exact isValue | cases isValue
    exact ((contained.registers instr register value contains isOut
      (View.eq_some_of_present read)).value isValue).1

/-- The storage behind a slot that is no parameter. -/
theorem slot_reach (contained : frame.Contained unit function base machine)
    (machineContained : machine.Contained unit) {slot : Slot} {value : Value}
    (resolves : slot.Resolves unit function) (noParam : slot.storage ≠ .param)
    (read : View.value ⟨unit, machine, frame⟩ (.slot slot) = .ok value) :
    ∃ memory cells, value = .address memory 0 ∧ InReach unit base memory ∧
      machine.memories[memory]? = some cells ∧ cells.IsFor slot.type ∧
      (Operand.slot slot).type = .ptr slot.type := by
  have read : View.slotValue ⟨unit, machine, frame⟩ slot = .ok value := read
  unfold View.slotValue at read
  cases storage : slot.storage with
  | param => exact absurd storage noParam
  | «global» =>
    rw [IR.Slot.Resolves, storage] at resolves
    obtain ⟨global, placed, type⟩ := Option.map_eq_some_iff.mp resolves
    obtain ⟨cells, found, isFor⟩ := machineContained.globals slot.id global placed
    have inside := (Array.getElem?_eq_some_iff.mp placed).1
    rw [storage] at read
    dsimp only at read
    rw [if_pos inside] at read
    cases read
    refine ⟨slot.id, cells, rfl, .inl inside, found, type ▸ isFor, ?_⟩
    simp [Operand.type, IR.Slot.valueType, storage]
  | stack =>
    rw [IR.Slot.Resolves, storage] at resolves
    obtain ⟨place, placed, type⟩ := Option.map_eq_some_iff.mp resolves
    rw [storage] at read
    dsimp only at read
    split at read
    · rename_i id bound
      cases read
      obtain ⟨above, other, cells, otherPlaced, found, isFor⟩ := contained.locals slot.id id bound
      rw [placed] at otherPlaced
      cases otherPlaced
      refine ⟨id, cells, rfl, .inr above, found, type ▸ isFor, ?_⟩
      simp [Operand.type, IR.Slot.valueType, storage]
    · cases read
    · cases read

/-- What an operand that stands for an address leads to. -/
theorem address_reach (contained : frame.Contained unit function base machine)
    (machineContained : machine.Contained unit) {operand : Operand}
    {written : List IR.Register} {reserved : Nat → Prop} {memory offset : Nat}
    (resolves : operand.Resolves unit function written) (role : operand.IsAddress function reserved)
    (read : View.address ⟨unit, machine, frame⟩ operand = .ok (memory, offset)) :
    InReach unit base memory ∧ ∃ cells, machine.memories[memory]? = some cells ∧
      ∀ type : Ty, type.IsScalar → operand.type = .ptr type → cells.type = type := by
  have isAddress : View.value ⟨unit, machine, frame⟩ operand = .ok (.address memory offset) := by
    unfold View.address at read
    cases held : View.value ⟨unit, machine, frame⟩ operand with
    | error trap =>
      rw [held] at read
      cases read
    | ok value =>
      rw [held] at read
      cases value with
      | address =>
        cases read
        rfl
      | _ => cases read
  have slotReach {slot : Slot} (isSlot : operand = .slot slot) (noParam : slot.storage ≠ .param) :
      InReach unit base memory ∧ ∃ cells, machine.memories[memory]? = some cells ∧
        ∀ type : Ty, type.IsScalar → operand.type = .ptr type → cells.type = type := by
    subst isSlot
    obtain ⟨_, cells, same, near, found, isFor, points⟩ :=
      contained.slot_reach machineContained resolves noParam isAddress
    cases same
    refine ⟨near, cells, found, fun type scalar pointsToo => ?_⟩
    cases points.symm.trans pointsToo
    exact isFor.scalar scalar
  cases role with
  | stack storage _ => exact slotReach rfl (by simp [storage])
  | «global» storage => exact slotReach rfl (by simp [storage])
  | @element register array index contains =>
    have there : frame.registers[register.id]? = some (.address memory offset) :=
      View.eq_some_of_present isAddress
    rcases contained.registers _ register _ contains rfl there with isNil |
      ⟨_, _, cells, same, near, found, points⟩
    · cases isNil
    · cases same
      refine ⟨near, cells, found, fun type _ pointsToo => ?_⟩
      cases points.symm.trans pointsToo
      rfl

end Frame.Contained

/-! ### Instructions -/

/-- The effects that an instruction may have in a frame. -/
def Frame.Allows (unit : IR.Module) (function : IR.Function) (base : Nat) (machine : Machine)
    (instr : IR.Instr) : Effect → Prop
  | .assign register value => ∃ out, instr.out? = some out ∧ register = out.id ∧
      MayHold unit base machine instr value
  | .allocate slot memory => memory.Contained ∧
      ∃ place, function.locals[slot]? = some place ∧ memory.IsFor place.type
  | .write memory _ value => InReach unit base memory ∧ ∃ (cells : Memory) (held : Value),
      machine.memories[memory]? = some cells ∧ held.isPlain = true ∧ value = held.fit cells.type
  | .clear memory => InReach unit base memory
  | .call out callee values => (∃ args, instr = .call out callee args) ∧
      (∀ memory offset : Nat, .address memory offset ∈ values → InReach unit base memory) ∧
      ∀ called, unit.functions[callee]? = some called → called.external = false →
        ∀ value ∈ values, value.isPlain = true

/-- What values computed into a register are. -/
def Settles (type : Ty) : Except Trap Value → Prop
  | .ok value => value.isPlain = true ∧ value.Fits type
  | .error _ => True

theorem settles_bind {type : Ty} {Result : Type} {step : Except Trap Result}
    {next : Result → Except Trap Value} (settles : ∀ result, Settles type (next result)) :
    Settles type (step >>= next) := by
  cases step with
  | ok result => exact settles result
  | error trap => trivial

theorem binary_settles (view : View) (op : IR.BinaryOp) (left right : Operand) (type : Ty) :
    Settles type (view.binary op left right type) := by
  have float (number : Double) : Settles type (.ok (.float number)) := ⟨rfl, rfl⟩
  have integer (number : Int64) : Settles type (.ok ((Value.int number).fit type)) :=
    ⟨Value.isPlain_fit rfl type, Value.fits_fit _ type⟩
  unfold View.binary
  split
  · exact settles_bind fun _ => settles_bind fun _ => float _
  · exact settles_bind fun _ => settles_bind fun _ => settles_bind fun _ => integer _

theorem compare_settles (view : View) (predicate : IR.Predicate) (left right : Operand) :
    Settles .i1 (view.compare predicate left right) := by
  have truth (value : Bool) : Settles .i1 (.ok (.ofBool value)) :=
    ⟨by cases value <;> rfl, Value.fits_ofBool value⟩
  unfold View.compare
  split
  · exact settles_bind fun _ => settles_bind fun _ => truth _
  · exact settles_bind fun _ => settles_bind fun _ => truth _
  · exact settles_bind fun _ => settles_bind fun _ => truth _
  · exact settles_bind fun _ => settles_bind fun _ => truth _
  · split <;> exact settles_bind fun _ => settles_bind fun _ => truth _

theorem convert_settles (view : View) (cast : IR.Cast) (operand : Operand) (type : Ty) :
    Settles type (view.convert cast operand type) :=
  settles_bind fun _ => settles_bind fun _ =>
    ⟨Value.isPlain_fit rfl type, Value.fits_fit _ type⟩

theorem assigning_allowed {out : IR.Register} {outcome : Except Trap Value} {effect : Effect}
    (isValue : instr.value? = some out) (settles : Settles out.type outcome)
    (done : View.assigning out outcome = .ok effect) :
    Frame.Allows unit function base machine instr effect := by
  have isOut : instr.out? = some out := by
    cases instr <;> first | exact isValue | cases isValue
  cases outcome with
  | ok value =>
    cases done
    exact ⟨out, isOut, rfl, .of_value isValue settles.1 settles.2⟩
  | error trap => cases done

namespace Frame.Contained

variable {address : Operand} {out : IR.Register} {written : List IR.Register}
  {reserved : Nat → Prop} {effect : Effect} {args : List Operand} {values : List Value}

theorem load_settles (contained : frame.Contained unit function base machine)
    (machineContained : machine.Contained unit) (resolves : address.Resolves unit function written)
    (role : address.IsAddress function reserved) (scalar : out.type.IsScalar)
    (points : address.type = .ptr out.type) :
    Settles out.type (View.load ⟨unit, machine, frame⟩ address) := by
  unfold View.load
  cases read : View.address ⟨unit, machine, frame⟩ address with
  | error trap => trivial
  | ok place =>
    obtain ⟨memory, offset⟩ := place
    obtain ⟨_, cells, found, type⟩ :=
      contained.address_reach machineContained resolves role read
    show Settles out.type (View.present (machine.cell? memory offset))
    have cell : machine.cell? memory offset = cells.cells[offset]? := by
      simp [Machine.cell?, found]
    rw [cell]
    cases there : cells.cells[offset]? with
    | none => trivial
    | some value =>
      rw [← type out.type scalar points]
      exact machineContained.memories memory cells found offset value there

theorem elementAddress_allowed (contained : frame.Contained unit function base machine)
    (machineContained : machine.Contained unit) {slot : Slot} {index : Operand} {element : Ty}
    {length : Int64} (resolves : slot.Resolves unit function) (noParam : slot.storage ≠ .param)
    (isArray : (Operand.slot slot).type = .ptr (.array element length))
    (outType : out.type = .ptr element)
    (done : View.assigning out
      (View.elementAddress ⟨unit, machine, frame⟩ (.slot slot) index) = .ok effect) :
    Frame.Allows unit function base machine (.elementAddress out (.slot slot) index) effect := by
  unfold View.elementAddress View.address at done
  cases read : View.value ⟨unit, machine, frame⟩ (.slot slot) with
  | error trap =>
    rw [read] at done
    cases done
  | ok value =>
    obtain ⟨memory, cells, rfl, near, found, isFor, points⟩ :=
      contained.slot_reach machineContained resolves noParam read
    rw [points] at isArray
    injection isArray with isArray
    rw [isArray] at isFor
    rw [read] at done
    cases number : View.integer ⟨unit, machine, frame⟩ index with
    | error trap =>
      rw [number] at done
      cases done
    | ok number' =>
      rw [number] at done
      have done : View.assigning out (ite _ (.error _) (.ok (.address memory _))) = _ := done
      split at done
      · cases done
      · cases done
        exact ⟨out, rfl, rfl, .inr ⟨memory, _, cells, rfl, near, found, outType.trans
          (congrArg Ty.ptr isFor.1.symm)⟩⟩

theorem store_allowed (contained : frame.Contained unit function base machine)
    (machineContained : machine.Contained unit) {value : Operand}
    (resolves : address.Resolves unit function written) (role : address.IsAddress function reserved)
    (valueRole : value.IsValue function ∨ ∃ type, value = .zeros type)
    (done : View.store ⟨unit, machine, frame⟩ address value = .ok effect) :
    Frame.Allows unit function base machine instr effect := by
  cases read : View.address ⟨unit, machine, frame⟩ address with
  | error trap =>
    unfold View.store at done
    rw [read] at done
    cases done
  | ok place =>
    obtain ⟨memory, offset⟩ := place
    obtain ⟨near, cells, found, _⟩ :=
      contained.address_reach machineContained resolves role read
    rcases valueRole with valueRole | ⟨type, rfl⟩
    · have stored : View.store ⟨unit, machine, frame⟩ address value =
          View.value ⟨unit, machine, frame⟩ value >>= fun held =>
            View.write ⟨unit, machine, frame⟩ memory offset held := by
        unfold View.store
        rw [read]
        cases valueRole <;> rfl
      rw [stored] at done
      cases held : View.value ⟨unit, machine, frame⟩ value with
      | error trap =>
        rw [held] at done
        cases done
      | ok other =>
        rw [held] at done
        have done : View.write ⟨unit, machine, frame⟩ memory offset other = .ok effect := done
        simp only [View.write, found] at done
        split at done
        · cases done
          exact ⟨near, cells, other, found, contained.value_plain valueRole held, rfl⟩
        · cases done
    · unfold View.store at done
      rw [read] at done
      cases done
      exact near

/-- Values of operands are values one by one. -/
theorem mem_values {view : View} {position : Nat} (read : view.values position args = .ok values)
    {value : Value} (listed : value ∈ values) : ∃ arg ∈ args, view.value arg = .ok value := by
  induction args generalizing position values with
  | nil =>
    cases read
    cases listed
  | cons arg args rest =>
    rw [View.values] at read
    cases first : view.value arg with
    | error trap =>
      rw [first] at read
      cases read
    | ok held =>
      rw [first] at read
      dsimp only at read
      cases others : view.values (position + 1) args with
      | error failure =>
        rw [others] at read
        cases read
      | ok more =>
        rw [others] at read
        cases read
        rcases List.mem_cons.mp listed with rfl | listed
        · exact ⟨arg, List.mem_cons_self .., first⟩
        · obtain ⟨other, member, held⟩ := rest others listed
          exact ⟨other, List.mem_cons_of_mem _ member, held⟩

theorem call_allowed (contained : frame.Contained unit function base machine)
    (machineContained : machine.Contained unit) {out : Option IR.Register} {callee : Nat}
    (resolves : ∀ arg ∈ args, arg.Resolves unit function written)
    (guarded : IR.Instr.Guarded unit function reserved (.call out callee args))
    (read : View.values ⟨unit, machine, frame⟩ 0 args = .ok values) :
    Frame.Allows unit function base machine (.call out callee args) (.call out callee values) := by
  obtain ⟨called, found, formatted, roles⟩ := guarded
  -- An argument is a value, or it is the address to which a served function writes.
  have either : ∀ arg ∈ args, arg.IsValue function ∨
      called.external = true ∧ arg.IsAddress function reserved := by
    intro arg member
    cases isExternal : called.external with
    | false => exact .inl ((roles isExternal).2 arg member)
    | true =>
      generalize called.name = name at formatted
      cases formatted isExternal with
      | print _ _ _ areValues =>
        rcases List.mem_cons.mp member with rfl | member
        · exact .inl (.data _)
        · obtain ⟨pair, listed, rfl⟩ := List.mem_map.mp member
          exact .inl (areValues pair listed)
      | scan _ _ _ _ isAddress =>
        rcases List.mem_cons.mp member with rfl | member
        · exact .inl (.data _)
        · rw [List.mem_singleton.mp member]
          exact .inr ⟨rfl, isAddress⟩
  refine ⟨⟨args, rfl⟩, fun memory offset listed => ?_,
    fun other otherFound defined value listed => ?_⟩
  · obtain ⟨arg, member, held⟩ := mem_values read listed
    rcases either arg member with isValue | ⟨_, isAddress⟩
    · cases contained.value_plain isValue held
    · exact (contained.address_reach machineContained (resolves arg member) isAddress
        (Evaluation.address_eq held)).1
  · rw [found] at otherFound
    cases otherFound
    obtain ⟨arg, member, held⟩ := mem_values read listed
    exact contained.value_plain ((roles defined).2 arg member) held

/-- An instruction of the function has effects that its frame allows. -/
theorem allows (contained : frame.Contained unit function base machine)
    (machineContained : machine.Contained unit) {block : IR.Block}
    (here : function.blocks[frame.block]? = some block)
    (isNext : block.code[frame.index]? = some instr)
    (done : View.effect ⟨unit, machine, frame⟩ instr = .ok effect) :
    Frame.Allows unit function base machine instr effect := by
  obtain ⟨marks, code⟩ := contained.code
  have sound := (code.sound.coded _ block here).code _ instr isNext
  have guarded := code.guarded.code _ _ block instr here isNext
  cases instr with
  | alloca slot =>
    have storage : slot.storage = .stack := sound.typed
    have resolves : slot.Resolves unit function := sound.resolves (.slot slot) (by
      simp [IR.Instr.operands])
    rw [IR.Slot.Resolves, storage] at resolves
    obtain ⟨place, placed, type⟩ := Option.map_eq_some_iff.mp resolves
    simp only [View.effect] at done
    split at done
    · rename_i memory made
      cases done
      obtain ⟨isFor, memoryContained⟩ := Memory.new?_contained made
      exact ⟨memoryContained, place, placed, type ▸ isFor⟩
    · cases done
  | load out address =>
    exact assigning_allowed rfl (contained.load_settles machineContained
      (sound.resolves address (List.mem_singleton.mpr rfl)) guarded.2 guarded.1 sound.typed) done
  | store address value =>
    simp only [View.effect] at done
    cases stored : View.store ⟨unit, machine, frame⟩ address value with
    | error trap =>
      rw [stored] at done
      cases done
    | ok other =>
      rw [stored] at done
      cases done
      exact contained.store_allowed machineContained
        (sound.resolves address (List.mem_cons_self ..)) guarded.1 guarded.2 stored
  | elementAddress out array index =>
    obtain ⟨⟨slot, rfl⟩, role, _⟩ := guarded
    obtain ⟨element, length, isArray, outType, _⟩ := sound.typed
    have noParam : slot.storage ≠ .param := by
      cases role with
      | stack storage _ => simp [storage]
      | «global» storage => simp [storage]
    exact contained.elementAddress_allowed machineContained
      (sound.resolves _ (List.mem_cons_self ..)) noParam isArray outType done
  | binary out op left right =>
    exact assigning_allowed rfl (binary_settles _ op left right out.type) done
  | compare out predicate left right =>
    refine assigning_allowed rfl ?_ done
    rw [show out.type = .i1 from sound.typed.2.1]
    exact compare_settles _ predicate left right
  | convert out cast operand =>
    exact assigning_allowed rfl (convert_settles _ cast operand out.type) done
  | call out callee args =>
    cases read : View.values ⟨unit, machine, frame⟩ 0 args with
    | error failure =>
      simp only [View.effect, read] at done
      cases done
    | ok values =>
      simp only [View.effect, read] at done
      cases done
      exact contained.call_allowed machineContained sound.resolves guarded read

end Frame.Contained

end Frames

/-! ### Steps -/

/-- A frame that waits at a call of its function. -/
def Caller.Contained (unit : IR.Module) (base : Nat) (machine : Machine) (caller : Caller) : Prop :=
  ∃ function, caller.frame.Contained unit function base machine ∧
    ∃ callee args, function.Contains (.call caller.out callee args)

/-- A state in which the running frame, and all frames that wait for it before some outer ones, have
been made when there were as many memories as the base, or more. -/
structure State.Contained (unit : IR.Module) (base : Nat) (outer : List Caller) (state : State) :
    Prop where
  machine : state.machine.Contained unit
  frame : ∃ function, state.frame.Contained unit function base state.machine
  callers : ∃ inner, state.callers = inner ++ outer ∧
    ∀ caller ∈ inner, caller.Contained unit base state.machine

/-- What a step leads to from such a state. It spares all memories out of reach, and it goes on in
such a state unless the innermost of the outer frames gets a result. -/
inductive State.Leads (unit : IR.Module) (base : Nat) (outer : List Caller) (state : State) :
    Progress → Prop
  | on {next : State} (spares : state.machine.Spares unit base next.machine)
      (contained : next.Contained unit base outer) : Leads unit base outer state (.running next)
  | back {machine : Machine} {caller : Caller} {rest : List Caller} {result : Value}
      (spares : state.machine.Spares unit base machine) (isOuter : outer = caller :: rest)
      (callers : state.callers = outer) (plain : result.isPlain = true) :
      Leads unit base outer state (.running ⟨machine, caller.resume result, rest⟩)
  | finished {machine : Machine} {result : Value}
      (spares : state.machine.Spares unit base machine) (plain : result.isPlain = true) :
      Leads unit base outer state (.finished machine result)
  | failed {machine : Machine} {failure : MachineFailure}
      (spares : state.machine.Spares unit base machine) :
      Leads unit base outer state (.failed machine failure)

section Steps

variable {unit : IR.Module} {base : Nat} {outer : List Caller} {state : State}
  {function : IR.Function} {block : IR.Block} {instr : IR.Instr}

theorem Caller.Contained.keeps {machine later : Machine} {caller : Caller}
    (contained : caller.Contained unit base machine) (keeps : machine.Keeps later) :
    caller.Contained unit base later := by
  obtain ⟨function, frame, waits⟩ := contained
  exact ⟨function, frame.keeps keeps, waits⟩

/-- A frame goes on with a result that is no address. -/
theorem Caller.Contained.resume {machine : Machine} {caller : Caller} {result : Value}
    (contained : caller.Contained unit base machine) (plain : result.isPlain = true) :
    ∃ function, (caller.resume result).Contained unit function base machine := by
  obtain ⟨frame, out⟩ := caller
  obtain ⟨function, frameContained, callee, args, waits⟩ := contained
  cases out with
  | none => exact ⟨function, frameContained.advance⟩
  | some out =>
    exact ⟨function, (frameContained.assign waits rfl (.of_value rfl
      (Value.isPlain_fit plain out.type) (Value.fits_fit result out.type))).advance⟩

namespace State.Contained

/-- All frames of a run have been made for it. -/
theorem frames (contained : state.Contained unit base []) {frame : Frame}
    (member : frame ∈ state.frames) :
    ∃ function, frame.Contained unit function base state.machine := by
  obtain ⟨inner, isInner, callers⟩ := contained.callers
  rcases List.mem_cons.mp member with rfl | member
  · exact contained.frame
  · obtain ⟨caller, listed, rfl⟩ := List.mem_map.mp member
    rw [isInner, List.append_nil] at listed
    obtain ⟨function, frameContained, _⟩ := callers caller listed
    exact ⟨function, frameContained⟩

/-- The same frames, with a later machine. -/
theorem go {later : Machine} {frame : Frame} (contained : state.Contained unit base outer)
    (spares : state.machine.Spares unit base later)
    (frameContained : ∃ function, frame.Contained unit function base later) :
    state.Leads unit base outer (.running ⟨later, frame, state.callers⟩) := by
  obtain ⟨inner, isInner, callers⟩ := contained.callers
  exact .on spares ⟨spares.contained, frameContained, inner, isInner, fun caller member =>
    (callers caller member).keeps spares.keeps⟩

theorem stay {frame : Frame} (contained : state.Contained unit base outer)
    (frameContained : ∃ function, frame.Contained unit function base state.machine) :
    state.Leads unit base outer (.running ⟨state.machine, frame, state.callers⟩) :=
  contained.go (.refl contained.machine) frameContained

theorem fail (contained : state.Contained unit base outer) (failure : MachineFailure) :
    state.Leads unit base outer (state.fail unit failure) :=
  .failed (.of_memories contained.machine (unwind_memories _ _))

theorem returned {result : Value} (contained : state.Contained unit base outer)
    (plain : result.isPlain = true) : state.Leads unit base outer (state.return result) := by
  obtain ⟨machine, frame, callers⟩ := state
  obtain ⟨inner, isInner, innerContained⟩ := contained.callers
  have spares : machine.Spares unit base machine.leave := .of_memories contained.machine rfl
  cases inner with
  | nil =>
    cases outer with
    | nil =>
      cases isInner
      exact .finished spares plain
    | cons caller rest =>
      cases isInner
      exact .back spares rfl rfl plain
  | cons caller inner =>
    cases isInner
    refine .on spares ⟨spares.contained, ?_, inner, rfl, fun other member =>
      (innerContained other (List.mem_cons_of_mem _ member)).keeps spares.keeps⟩
    exact ((innerContained caller (List.mem_cons_self ..)).keeps spares.keeps).resume plain

theorem call {out : Option IR.Register} {callee : Nat} {args : List Operand}
    {values : List Value} (guarded : unit.Guarded) (contained : state.Contained unit base outer)
    (frameContained : state.frame.Contained unit function base state.machine)
    (here : function.Contains (.call out callee args))
    (near : ∀ memory offset : Nat, .address memory offset ∈ values → InReach unit base memory)
    (plain : ∀ called, unit.functions[callee]? = some called → called.external = false →
      ∀ value ∈ values, value.isPlain = true) :
    state.Leads unit base outer (state.call unit out callee values) := by
  obtain ⟨machine, frame, callers⟩ := state
  have waits : Caller.Contained unit base machine ⟨frame, out⟩ :=
    ⟨function, frameContained, callee, args, here⟩
  unfold State.call
  dsimp only
  split
  · exact contained.fail _
  · rename_i called found
    split
    · obtain ⟨spares, plainResult⟩ :=
        externalCall_spares called.name contained.machine near
      split
      · rename_i later result served
        rw [served] at spares plainResult
        exact contained.go spares ((waits.keeps spares.keeps).resume (plainResult result rfl))
      · rename_i later trap served
        rw [served] at spares
        exact .failed (spares.trans (.of_memories spares.contained (unwind_memories _ _)))
    · rename_i defined
      split
      · exact contained.fail _
      · obtain ⟨inner, isInner, innerContained⟩ := contained.callers
        have isDefined : called.external = false := eq_false_of_ne_true defined
        have spares : machine.Spares unit base machine.enter := .of_memories contained.machine rfl
        refine .on spares ⟨spares.contained, ⟨called, ?_⟩,
          ⟨frame, out⟩ :: inner, congrArg _ isInner, fun caller member => ?_⟩
        · exact .new guarded found isDefined (plain called found isDefined) frameContained.room
        · rcases List.mem_cons.mp member with rfl | member
          · exact waits.keeps spares.keeps
          · exact (innerContained caller member).keeps spares.keeps

/-- Executing the next instruction of a function. -/
theorem execute (guarded : unit.Guarded) (contained : state.Contained unit base outer)
    (frameContained : state.frame.Contained unit function base state.machine)
    (here : function.blocks[state.frame.block]? = some block)
    (isNext : block.code[state.frame.index]? = some instr) :
    state.Leads unit base outer (state.execute unit instr) := by
  have contains : function.Contains instr := ⟨_, _, block, here, isNext⟩
  unfold State.execute
  split
  · rename_i effect done
    have allowed := frameContained.allows contained.machine here isNext done
    cases effect with
    | assign register value =>
      obtain ⟨out, isOut, rfl, holds⟩ := allowed
      exact contained.stay ⟨function, (frameContained.assign contains isOut holds).advance⟩
    | allocate slot memory =>
      obtain ⟨memoryContained, place, placed, isFor⟩ := allowed
      have spares := Machine.Spares.allocate contained.machine frameContained.room memoryContained
      exact contained.go spares
        ⟨function, (frameContained.bind placed isFor spares.keeps).advance⟩
    | write memory offset value =>
      obtain ⟨near, cells, held, found, plain, rfl⟩ := allowed
      have spares : state.machine.Spares unit base (state.machine.write memory offset _) :=
        .write contained.machine near found plain
      exact contained.go spares ⟨function, (frameContained.keeps spares.keeps).advance⟩
    | clear memory =>
      have spares := Machine.Spares.clear contained.machine allowed
      exact contained.go spares ⟨function, (frameContained.keeps spares.keeps).advance⟩
    | call out callee values =>
      obtain ⟨⟨args, rfl⟩, near, plain⟩ := allowed
      exact contained.call guarded frameContained contains near plain
  · exact contained.fail _

/-- Going where the end of a block says. -/
theorem terminate {terminator : IR.Terminator} (contained : state.Contained unit base outer)
    (frameContained : state.frame.Contained unit function base state.machine)
    (here : function.blocks[state.frame.block]? = some block)
    (ended : block.terminator = some terminator) :
    state.Leads unit base outer (state.terminate unit terminator) := by
  obtain ⟨marks, code⟩ := frameContained.code
  have roles := (code.guarded.ending _ block terminator here ended).values
  unfold State.terminate
  cases terminator with
  | branch target => exact contained.stay ⟨function, frameContained.jump target⟩
  | branchIf condition consequent alternative =>
    dsimp only
    split
    · exact contained.stay ⟨function, frameContained.jump _⟩
    · exact contained.fail _
  | ret value =>
    cases value with
    | none => exact contained.returned rfl
    | some operand =>
      dsimp only
      split
      · rename_i result read
        exact contained.returned
          (frameContained.value_plain (roles operand (List.mem_singleton.mpr rfl)) read)
      · exact contained.fail _
  | unreachable => exact contained.fail _

/-- Counting a step changes nothing else. -/
theorem tick (contained : state.Contained unit base outer) :
    state.tick.Contained unit base outer := by
  have spares : state.machine.Spares unit base state.tick.machine :=
    .of_memories contained.machine rfl
  obtain ⟨function, frame⟩ := contained.frame
  obtain ⟨inner, isInner, callers⟩ := contained.callers
  exact ⟨spares.contained, ⟨function, frame.keeps spares.keeps⟩, inner, isInner,
    fun caller member => (callers caller member).keeps spares.keeps⟩

theorem leads_of_tick {progress : Progress} (contained : state.Contained unit base outer)
    (leads : state.tick.Leads unit base outer progress) : state.Leads unit base outer progress := by
  have spares : state.machine.Spares unit base state.tick.machine :=
    .of_memories contained.machine rfl
  cases leads with
  | on later next => exact .on (spares.trans later) next
  | back later isOuter callers plain => exact .back (spares.trans later) isOuter callers plain
  | finished later plain => exact .finished (spares.trans later) plain
  | failed later => exact .failed (spares.trans later)

/-- One step. -/
theorem step (guarded : unit.Guarded) (contained : state.Contained unit base outer)
    (limits : Limits) : state.Leads unit base outer (state.step unit limits) := by
  obtain ⟨function, frame⟩ := contained.tick.frame
  unfold State.step
  cases isNext : state.frame.next unit with
  | nothing => exact contained.fail _
  | instruction instr =>
    obtain ⟨block, here, there⟩ := frame.next_instruction isNext
    refine contained.leads_of_tick ?_
    dsimp only
    split
    · exact contained.tick.fail _
    · exact contained.tick.execute guarded frame here there
  | terminator terminator =>
    obtain ⟨block, here, ended⟩ := frame.next_terminator isNext
    refine contained.leads_of_tick ?_
    dsimp only
    split
    · exact contained.tick.fail _
    · exact contained.tick.terminate frame here ended

end State.Contained

end Steps

/-! ### Runs -/

/-- A machine in use: it has been made for a module, and functions have been called on it with
whatever values can be given from outside, successfully or not. -/
inductive InUse (unit : IR.Module) : Machine → Prop
  | made {input : Bytes} {machine : Machine} (made : Machine.new? unit input = some machine) :
      InUse unit machine
  | called {machine : Machine} {callee : Nat} {args : List Value} {limits : Limits}
      {ending : Ending} (before : InUse unit machine) (plain : ∀ value ∈ args, value.isPlain = true)
      (ends : EndsWith unit limits (start unit machine callee args) ending) :
      InUse unit ending.machine

/-- A run that has been started on a machine in use, however far it has come. -/
inductive Progress.Reachable (unit : IR.Module) (limits : Limits) (callee : Nat) :
    Progress → Prop
  | call {machine : Machine} {args : List Value} (inUse : InUse unit machine)
      (plain : ∀ value ∈ args, value.isPlain = true) (fuel : Nat) :
      Reachable unit limits callee ((start unit machine callee args).advance unit limits fuel)

/-- The invariant of a run. All memories behind the variables of the module are made for frames. -/
def Progress.Contained (unit : IR.Module) : Progress → Prop
  | .running state => state.Contained unit unit.globals.size []
  | .finished machine result => machine.Contained unit ∧ result.isPlain = true
  | .failed machine _ => machine.Contained unit

section Runs

variable {unit : IR.Module} {limits : Limits} {callee : Nat} {progress : Progress}
  {machine : Machine}

theorem State.Leads.contained {base : Nat} {outer : List Caller} {state : State}
    (leads : state.Leads unit base outer progress) (isBase : base = unit.globals.size)
    (isOuter : outer = []) : progress.Contained unit := by
  subst isBase isOuter
  cases leads with
  | on spares contained => exact contained
  | back spares isOuter callers plain => cases isOuter
  | finished spares plain => exact ⟨spares.contained, plain⟩
  | failed spares => exact spares.contained

theorem Progress.Contained.advance (guarded : unit.Guarded) (contained : progress.Contained unit)
    (limits : Limits) (fuel : Nat) : (progress.advance unit limits fuel).Contained unit := by
  induction fuel generalizing progress with
  | zero =>
    rw [advance_zero]
    exact contained
  | succ fuel rest =>
    cases progress with
    | running state =>
      exact rest ((State.Contained.step guarded contained limits).contained rfl rfl)
    | finished machine result => exact contained
    | failed machine failure => exact contained

theorem start_contained {args : List Value} (guarded : unit.Guarded)
    (contained : machine.Contained unit) (plain : ∀ value ∈ args, value.isPlain = true) :
    (start unit machine callee args).Contained unit := by
  unfold start
  split
  · exact contained
  · rename_i function found
    split
    · have near (memory offset : Nat) (listed : .address memory offset ∈ args) :
          InReach unit unit.globals.size memory := by cases plain _ listed
      obtain ⟨spares, plainResult⟩ := externalCall_spares function.name contained near
      split
      · rename_i later result served
        rw [served] at spares plainResult
        exact ⟨spares.contained, plainResult result rfl⟩
      · rename_i later trap served
        rw [served] at spares
        exact spares.contained
    · rename_i defined
      split
      · exact contained
      · have entered : machine.Spares unit unit.globals.size machine.enter :=
          .of_memories contained rfl
        exact ⟨entered.contained, ⟨function, .new guarded found (eq_false_of_ne_true defined) plain
          contained.globals_le⟩, [], rfl, by simp⟩

theorem Progress.machine_contained (contained : progress.Contained unit) :
    progress.machine.Contained unit := by
  cases progress with
  | running state => exact State.Contained.machine contained
  | finished machine result => exact contained.1
  | failed machine failure => exact contained

theorem InUse.contained (guarded : unit.Guarded) (inUse : InUse unit machine) :
    machine.Contained unit := by
  induction inUse with
  | made made => exact Machine.new?_contained made
  | called _ plain ends contained =>
    obtain ⟨fuel, ended⟩ := ends
    rw [← ending_machine ended]
    exact Progress.machine_contained
      ((start_contained guarded contained plain).advance guarded _ fuel)

theorem Progress.Reachable.contained (guarded : unit.Guarded)
    (reachable : progress.Reachable unit limits callee) : progress.Contained unit := by
  obtain ⟨inUse, plain, fuel⟩ := reachable
  exact (start_contained guarded (inUse.contained guarded) plain).advance guarded limits fuel

end Runs

end Machine

end Pascaline
