/-
Registers retain what has been computed. A register is written by one instruction only, and an
instruction reads only registers that are written before it in its block. So within a block every
conversion, every operation and every element address that has been executed could be computed
again from what the registers hold now, and would come to what its own register holds. Along with
this it is shown that the stack variables on which code counts have their memories. All this is true
along every run, whatever it has been started with.
-/

import Pascaline.Proofs.Containment

namespace Pascaline.Machine

open IR (Operand Slot)

/-! ### Frames that agree -/

/-- A later frame with the same arguments that holds the same in some registers. -/
structure Frame.Agrees (written : List IR.Register) (frame later : Frame) : Prop where
  args : later.args = frame.args
  registers : ∀ register ∈ written, later.registers[register.id]? = frame.registers[register.id]?

/-- What an executed instruction has computed is what it would compute now. The address of an
element may be that of an earlier memory of the variable. -/
def Frame.Recomputes (unit : IR.Module) (machine : Machine) (frame : Frame) : IR.Instr → Prop
  | .binary out op left right => ∃ value, frame.registers[out.id]? = some value ∧
      View.binary ⟨unit, machine, frame⟩ op left right out.type = .ok value
  | .convert out cast operand => ∃ value, frame.registers[out.id]? = some value ∧
      View.convert ⟨unit, machine, frame⟩ cast operand out.type = .ok value
  | .elementAddress out base index => ∃ slot memory cells number, base = .slot slot ∧
      machine.memories[memory]? = some cells ∧ cells.IsFor slot.type ∧
      View.integer ⟨unit, machine, frame⟩ index = .ok number ∧
      0 ≤ number.toInt ∧ number.toInt < cells.cells.size ∧
      frame.registers[out.id]? = some (.address memory number.toInt.toNat)
  | _ => True

section Agreement

variable {unit : IR.Module} {function : IR.Function} {written early : List IR.Register}
  {frame later : Frame} {operand left right : Operand} {machine after : Machine}

namespace Frame.Agrees

/-- An operand that stands for a value is read from arguments and registers only. -/
theorem value (agrees : frame.Agrees written later) (machine after : Machine)
    (role : operand.IsValue function) (resolves : operand.Resolves unit function written) :
    View.value ⟨unit, after, later⟩ operand = View.value ⟨unit, machine, frame⟩ operand := by
  cases role with
  | int | float | null | data => rfl
  | @param slot storage =>
    show View.slotValue ⟨unit, after, later⟩ slot = View.slotValue ⟨unit, machine, frame⟩ slot
    simp only [View.slotValue, storage, agrees.args]
  | @register register =>
    show View.present later.registers[register.id]? = View.present frame.registers[register.id]?
    rw [agrees.registers register resolves]

theorem integer (agrees : frame.Agrees written later) (machine after : Machine)
    (role : operand.IsValue function) (resolves : operand.Resolves unit function written) :
    View.integer ⟨unit, after, later⟩ operand = View.integer ⟨unit, machine, frame⟩ operand := by
  simp only [View.integer, agrees.value machine after role resolves]

theorem binary (agrees : frame.Agrees written later) (machine after : Machine)
    (leftRole : left.IsValue function) (rightRole : right.IsValue function)
    (leftResolves : left.Resolves unit function written)
    (rightResolves : right.Resolves unit function written) (op : IR.BinaryOp) (type : Ty) :
    View.binary ⟨unit, after, later⟩ op left right type =
      View.binary ⟨unit, machine, frame⟩ op left right type := by
  have leftSame := agrees.value machine after leftRole leftResolves
  have rightSame := agrees.value machine after rightRole rightResolves
  simp only [View.binary, View.float, View.integer, leftSame, rightSame]

theorem convert (agrees : frame.Agrees written later) (machine after : Machine)
    (role : operand.IsValue function) (resolves : operand.Resolves unit function written)
    (cast : IR.Cast) (type : Ty) :
    View.convert ⟨unit, after, later⟩ cast operand type =
      View.convert ⟨unit, machine, frame⟩ cast operand type := by
  simp only [View.convert, agrees.integer machine after role resolves]

theorem mono (agrees : frame.Agrees written later) (fewer : early ⊆ written) :
    frame.Agrees early later :=
  ⟨agrees.args, fun register member => agrees.registers register (fewer member)⟩

/-- What an instruction has computed is not lost as long as its operands and its register stay as
they are. -/
theorem recomputes {instr : IR.Instr} {reserved : Nat → Prop} (agrees : frame.Agrees written later)
    (keeps : machine.Keeps after) (sound : instr.Sound unit function early)
    (guarded : instr.Guarded unit function reserved) (fewer : early ⊆ written)
    (isWritten : ∀ out, instr.out? = some out → out ∈ written)
    (computed : frame.Recomputes unit machine instr) : later.Recomputes unit after instr := by
  have before := agrees.mono fewer
  cases instr with
  | binary out op left right =>
    obtain ⟨value, held, isValue⟩ := computed
    refine ⟨value, (agrees.registers out (isWritten out rfl)).trans held, ?_⟩
    rw [before.binary machine after guarded.1 guarded.2
      (sound.resolves left (by simp [IR.Instr.operands]))
      (sound.resolves right (by simp [IR.Instr.operands]))]
    exact isValue
  | convert out cast operand =>
    obtain ⟨value, held, isValue⟩ := computed
    refine ⟨value, (agrees.registers out (isWritten out rfl)).trans held, ?_⟩
    rw [before.convert machine after guarded (sound.resolves operand (by simp [IR.Instr.operands]))]
    exact isValue
  | elementAddress out base index =>
    obtain ⟨slot, memory, cells, number, isSlot, there, isFor, read, nonneg, inside, held⟩ :=
      computed
    obtain ⟨other, otherThere, sameType, sameSize⟩ := keeps memory cells there
    refine ⟨slot, memory, other, number, isSlot, otherThere, isFor.of_same sameType sameSize, ?_,
      nonneg, by rw [sameSize]; exact inside, (agrees.registers out (isWritten out rfl)).trans held⟩
    rw [before.integer machine after guarded.2.2
      (sound.resolves index (by simp [IR.Instr.operands]))]
    exact read
  | _ => trivial

end Frame.Agrees

/-- The register of an instruction is not written before it in its block. -/
theorem fresh_out {block : IR.Block} {place index : Nat} {instr : IR.Instr} {out : IR.Register}
    (sound : function.Sound unit) (here : function.blocks[place]? = some block)
    (isNext : block.code[index]? = some instr) (isOut : instr.out? = some out) :
    ∀ register ∈ IR.writtenBy (block.code.toList.take index), register.id ≠ out.id := by
  have ids := sound.registers.nodup_iff.mpr List.nodup_range
  have listed : block ∈ function.blocks.toList :=
    List.mem_of_getElem? (Array.getElem?_toList.trans here)
  have part : (IR.writtenBy block.code.toList).Sublist function.definitions := by
    rw [IR.Function.definitions, List.flatMap_def]
    exact List.sublist_flatten_of_mem (List.mem_map.mpr ⟨block, listed, rfl⟩)
  have inBlock := ids.sublist (part.map IR.Register.id)
  have split : block.code.toList =
      block.code.toList.take index ++ instr :: block.code.toList.drop (index + 1) := by
    rw [← Array.getElem?_toList] at isNext
    obtain ⟨inside, rfl⟩ := List.getElem?_eq_some_iff.mp isNext
    rw [List.getElem_cons_drop, List.take_append_drop]
  rw [split, IR.writtenBy_append, List.map_append] at inBlock
  intro register member same
  refine (List.nodup_append.mp inBlock).2.2 register.id (List.mem_map_of_mem member) out.id ?_ same
  exact List.mem_map_of_mem (List.mem_filterMap.mpr ⟨instr, List.mem_cons_self .., isOut⟩)

theorem out_lt {block : IR.Block} {place index : Nat} {instr : IR.Instr} {out : IR.Register}
    (sound : function.Sound unit) (here : function.blocks[place]? = some block)
    (isNext : block.code[index]? = some instr) (isOut : instr.out? = some out) :
    out.id < function.registers := by
  have listed : out ∈ function.definitions :=
    List.mem_flatMap.mpr ⟨block, List.mem_of_getElem? (Array.getElem?_toList.trans here),
      List.mem_filterMap.mpr
        ⟨instr, List.mem_of_getElem? (Array.getElem?_toList.trans isNext), isOut⟩⟩
  exact List.mem_range.mp (sound.registers.mem_iff.mp (List.mem_map_of_mem listed))

end Agreement

/-! ### Frames that retain -/

/-- A frame of guarded code in which the executed part of its block can be computed again. -/
structure Frame.Retains (unit : IR.Module) (function : IR.Function) (block : IR.Block)
    (marks : Nat → Nat → Prop) (machine : Machine) (frame : Frame) : Prop where
  found : unit.functions[frame.function]? = some function
  code : function.Executable unit marks
  here : function.blocks[frame.block]? = some block
  registerCount : frame.registers.size = function.registers
  localCount : frame.locals.size = function.locals.size
  reserved : ∀ slot,
    marks frame.block slot ∨ slot ∈ IR.reservedBy (block.code.toList.take frame.index) →
      ∃ id, frame.locals[slot]? = some (some id)
  computed : ∀ instr ∈ block.code.toList.take frame.index, frame.Recomputes unit machine instr

/-- The frame behind an instruction that stands behind some code. -/
structure Frame.Passes (before : List IR.Instr) (instr : IR.Instr) (frame next : Frame) : Prop where
  function : next.function = frame.function
  block : next.block = frame.block
  index : next.index = frame.index + 1
  agrees : frame.Agrees (IR.writtenBy before) next
  registerCount : next.registers.size = frame.registers.size
  localCount : next.locals.size = frame.locals.size
  bound : ∀ slot, (∃ id, frame.locals[slot]? = some (some id)) ∨ slot ∈ IR.reservedBy [instr] →
    ∃ id, next.locals[slot]? = some (some id)

/-- The address of an element, if the array and the index can be read. -/
theorem View.elementAddress_eq {view : View} {base index : Operand} {memory : Nat} {cells : Memory}
    {number : Int64} (isBase : view.value base = .ok (.address memory 0))
    (there : view.machine.memories[memory]? = some cells)
    (read : view.integer index = .ok number) :
    view.elementAddress base index =
      if number.toInt < 0 ∨ (cells.cells.size : Int) ≤ number.toInt then
        .error (.indexRange number.toInt cells.cells.size)
      else .ok (.address memory number.toInt.toNat) := by
  have address : view.address base = .ok (memory, 0) := Evaluation.address_eq isBase
  unfold View.elementAddress
  rw [address, read]
  simp only [bind, Except.bind, there, Option.map_some, Option.getD_some, Int.natCast_zero,
    Int.zero_add]
  rfl

theorem View.eq_of_assigning {out : IR.Register} {outcome : Except Trap Value} {effect : Effect}
    (done : View.assigning out outcome = .ok effect) :
    ∃ value, outcome = .ok value ∧ effect = .assign out.id value := by
  cases outcome with
  | ok value =>
    cases done
    exact ⟨value, rfl, rfl⟩
  | error trap => cases done

theorem View.store_cases {view : View} {address value : Operand} {effect : Effect}
    (stored : view.store address value = .ok effect) :
    (∃ memory, effect = .clear memory) ∨
      ∃ memory offset held, effect = .write memory offset held := by
  have writes {memory offset : Nat} {held : Value}
      (written : view.write memory offset held = .ok effect) :
      ∃ memory offset held, effect = .write memory offset held := by
    unfold View.write at written
    split at written
    · split at written
      · cases written
        exact ⟨_, _, _, rfl⟩
      · cases written
    · cases written
  unfold View.store at stored
  cases read : view.address address with
  | error trap =>
    rw [read] at stored
    cases stored
  | ok place =>
    rw [read] at stored
    dsimp only [bind, Except.bind] at stored
    split at stored
    · cases stored
      exact .inl ⟨_, rfl⟩
    · split at stored
      · cases stored
      · exact .inr (writes stored)

/-- The instruction behind an effect that fills no register. -/
def Effect.ComesFrom (instr : IR.Instr) : Effect → Prop
  | .allocate slot _ => ∃ place, instr = .alloca place ∧ slot = place.id
  | .write .. | .clear _ => ∃ address value, instr = .store address value
  | .call out callee _ => ∃ args, instr = .call out callee args
  | .assign .. => True

theorem View.effect_comesFrom {view : View} {instr : IR.Instr} {effect : Effect}
    (done : view.effect instr = .ok effect) : effect.ComesFrom instr := by
  have assigns {out : IR.Register} {outcome : Except Trap Value}
      (settled : View.assigning out outcome = .ok effect) : effect.ComesFrom instr := by
    obtain ⟨value, _, rfl⟩ := View.eq_of_assigning settled
    trivial
  cases instr with
  | alloca slot =>
    simp only [View.effect] at done
    split at done
    · cases done
      exact ⟨slot, rfl, rfl⟩
    · cases done
  | store address value =>
    simp only [View.effect] at done
    cases stored : view.store address value with
    | error trap =>
      rw [stored] at done
      cases done
    | ok other =>
      rw [stored] at done
      cases done
      rcases View.store_cases stored with ⟨_, rfl⟩ | ⟨_, _, _, rfl⟩ <;> exact ⟨address, value, rfl⟩
  | call out callee args =>
    cases read : view.values 0 args with
    | error failure =>
      simp only [View.effect, read] at done
      cases done
    | ok values =>
      simp only [View.effect, read] at done
      cases done
      exact ⟨args, rfl⟩
  | _ => exact assigns done

section Retention

variable {unit : IR.Module} {function : IR.Function} {block : IR.Block} {marks : Nat → Nat → Prop}
  {machine after : Machine} {frame next : Frame} {instr : IR.Instr} {before : List IR.Instr}

namespace Frame.Passes

theorem advance (frame : Frame) (noReserve : IR.reservedBy [instr] = []) :
    frame.Passes before instr frame.advance where
  function := rfl
  block := rfl
  index := rfl
  agrees := ⟨rfl, fun _ _ => rfl⟩
  registerCount := rfl
  localCount := rfl
  bound slot either := by
    rw [noReserve] at either
    exact either.resolve_right List.not_mem_nil

theorem assign {out : IR.Register} (frame : Frame) (isOut : instr.out? = some out) (value : Value)
    (fresh : ∀ register ∈ IR.writtenBy before, register.id ≠ out.id) :
    frame.Passes before instr (frame.assign out.id value).advance where
  function := rfl
  block := rfl
  index := rfl
  agrees := ⟨rfl, fun register member =>
    Array.getElem?_setIfInBounds_ne fun same => fresh register member same.symm⟩
  registerCount := Array.size_setIfInBounds
  localCount := rfl
  bound slot either := by
    have noReserve : IR.reservedBy [instr] = [] := by
      cases instr with
      | alloca => cases isOut
      | _ => rfl
    rw [noReserve] at either
    exact either.resolve_right List.not_mem_nil

theorem bind {slot : Slot} (inside : slot.id < frame.locals.size) (id : Nat) :
    frame.Passes before (.alloca slot) (frame.bind slot.id id).advance where
  function := rfl
  block := rfl
  index := rfl
  agrees := ⟨rfl, fun _ _ => rfl⟩
  registerCount := rfl
  localCount := Array.size_setIfInBounds
  bound other either := by
    show ∃ bound, (frame.locals.setIfInBounds slot.id (some id))[other]? = some (some bound)
    rw [Array.getElem?_setIfInBounds, if_pos inside]
    split
    · exact ⟨id, rfl⟩
    · rename_i different
      exact either.resolve_right fun reserved => different (List.mem_singleton.mp reserved).symm

end Frame.Passes

/-- An instruction of the first part of some code stands behind a part of that part. -/
theorem place_of_mem_take {code : Array IR.Instr} {index : Nat}
    (listed : instr ∈ code.toList.take index) :
    ∃ place, place < index ∧ code[place]? = some instr ∧
      IR.writtenBy (code.toList.take place) ⊆ IR.writtenBy (code.toList.take index) ∧
      ∀ out, instr.out? = some out → out ∈ IR.writtenBy (code.toList.take index) := by
  obtain ⟨place, there⟩ := List.getElem?_of_mem listed
  rw [List.getElem?_take] at there
  split at there
  · rename_i early
    refine ⟨place, early, Array.getElem?_toList ▸ there, ?_, fun out isOut =>
      List.mem_filterMap.mpr ⟨instr, listed, isOut⟩⟩
    exact ((List.take_prefix_take_left early.le).sublist.filterMap _).subset
  · cases there

namespace Frame.Retains

/-- Another frame that stands where the old one stood and agrees with it recomputes the same. -/
theorem recomputes (retains : frame.Retains unit function block marks machine)
    (agrees : frame.Agrees (IR.writtenBy (block.code.toList.take frame.index)) next)
    (keeps : machine.Keeps after) (listed : instr ∈ block.code.toList.take frame.index) :
    next.Recomputes unit after instr := by
  obtain ⟨place, _, there, fewer, isWritten⟩ := place_of_mem_take listed
  exact agrees.recomputes keeps
    ((retains.code.sound.coded _ block retains.here).code place instr there)
    (retains.code.guarded.code _ place block instr retains.here there) fewer isWritten
    (retains.computed instr listed)

theorem keeps (retains : frame.Retains unit function block marks machine)
    (keeps : machine.Keeps after) : frame.Retains unit function block marks after :=
  { retains with computed := fun _ listed =>
      retains.recomputes ⟨rfl, fun _ _ => rfl⟩ keeps listed }

/-- Going on behind an instruction. -/
theorem pass (retains : frame.Retains unit function block marks machine)
    (isNext : block.code[frame.index]? = some instr)
    (passes : frame.Passes (block.code.toList.take frame.index) instr next)
    (keeps : machine.Keeps after) (computes : next.Recomputes unit after instr) :
    next.Retains unit function block marks after := by
  have taken : block.code.toList.take next.index =
      block.code.toList.take frame.index ++ [instr] := by
    rw [passes.index]
    exact Frame.Conforms.take_next isNext
  refine ⟨by rw [passes.function]; exact retains.found, retains.code,
    by rw [passes.block]; exact retains.here, passes.registerCount.trans retains.registerCount,
    passes.localCount.trans retains.localCount, fun slot counted => ?_, fun other listed => ?_⟩
  · rw [passes.block, taken, IR.reservedBy_append, List.mem_append, ← or_assoc] at counted
    exact passes.bound slot (counted.imp_left (retains.reserved slot))
  · rw [taken] at listed
    rcases List.mem_append.mp listed with old | new
    · exact retains.recomputes passes.agrees keeps old
    · rw [List.mem_singleton.mp new]
      exact computes

/-- Going to another block from the end of one. -/
theorem jump (retains : frame.Retains unit function block marks machine)
    {terminator : IR.Terminator} {target : Nat} (atEnd : block.code[frame.index]? = none)
    (ended : block.terminator = some terminator) (listed : target ∈ terminator.targets) :
    ∃ next, (frame.jump target).Retains unit function next marks machine := by
  obtain ⟨inside, marked⟩ :=
    (retains.code.guarded.ending _ block terminator retains.here ended).targets target listed
  have whole : block.code.toList.take frame.index = block.code.toList :=
    List.take_of_length_le (by simpa using atEnd)
  refine ⟨function.blocks[target], retains.found, retains.code, Array.getElem?_eq_getElem inside,
    retains.registerCount, retains.localCount, fun slot counted => retains.reserved slot ?_, ?_⟩
  · rw [whole]
    exact marked slot (counted.resolve_right List.not_mem_nil)
  · exact fun _ listed => absurd listed List.not_mem_nil

/-- The frame of a function that has just been entered. -/
theorem new {callee : Nat} (guarded : unit.Guarded)
    (found : unit.functions[callee]? = some function) (defined : function.external = false)
    (machine : Machine) (args : List Value) :
    ∃ block marks, (Frame.new callee function args).Retains unit function block marks machine := by
  obtain ⟨marks, unmarked, code⟩ := guarded.defined callee function found defined
  have entry := code.complete.entry
  refine ⟨function.blocks[0], marks, found, code, Array.getElem?_eq_getElem entry,
    Array.size_replicate, Array.size_replicate, fun slot counted => ?_, ?_⟩
  · exact absurd (counted.resolve_right List.not_mem_nil) (unmarked slot)
  · exact fun _ listed => absurd listed List.not_mem_nil

/-- A register that is written before the next instruction can be read. -/
theorem register_read (retains : frame.Retains unit function block marks machine)
    {register : IR.Register}
    (written : register ∈ IR.writtenBy (block.code.toList.take frame.index)) :
    ∃ value, frame.registers[register.id]? = some value := by
  obtain ⟨instr, listed, isOut⟩ := List.mem_filterMap.mp written
  obtain ⟨place, _, there, _⟩ := place_of_mem_take listed
  have inside := out_lt retains.code.sound retains.here there isOut
  rw [← retains.registerCount] at inside
  exact ⟨_, Array.getElem?_eq_getElem inside⟩

/-- A variable that code may use has its memory. -/
theorem slot_read {base : Nat} {slot : Slot} {reserved : Nat → Prop}
    (retains : frame.Retains unit function block marks machine)
    (contained : frame.Contained unit function base machine)
    (machineContained : machine.Contained unit) (resolves : slot.Resolves unit function)
    (role : (Operand.slot slot).IsAddress function reserved)
    (counted : ∀ place, reserved place →
      marks frame.block place ∨ place ∈ IR.reservedBy (block.code.toList.take frame.index)) :
    ∃ memory cells, View.value ⟨unit, machine, frame⟩ (.slot slot) = .ok (.address memory 0) ∧
      machine.memories[memory]? = some cells ∧ cells.IsFor slot.type := by
  have read : slot.storage ≠ .param ∧
      ∃ memory, View.slotValue ⟨unit, machine, frame⟩ slot = .ok (.address memory 0) := by
    unfold View.slotValue
    cases role with
    | stack storage isReserved =>
      obtain ⟨id, bound⟩ := retains.reserved slot.id (counted slot.id isReserved)
      exact ⟨by simp [storage], id, by simp only [storage, bound]⟩
    | «global» storage =>
      rw [IR.Slot.Resolves, storage] at resolves
      obtain ⟨global, placed, _⟩ := Option.map_eq_some_iff.mp resolves
      refine ⟨by simp [storage], slot.id, ?_⟩
      simp only [storage, (Array.getElem?_eq_some_iff.mp placed).1, if_true]
  obtain ⟨noParam, memory, read⟩ := read
  obtain ⟨_, cells, same, _, there, isFor, _⟩ :=
    contained.slot_reach machineContained resolves noParam read
  cases same
  exact ⟨memory, cells, read, there, isFor⟩

/-- An executed instruction that writes a register would compute again what it has computed. -/
theorem computes {base : Nat} {out : IR.Register} {value : Value}
    (retains : frame.Retains unit function block marks machine)
    (contained : frame.Contained unit function base machine)
    (machineContained : machine.Contained unit) (isNext : block.code[frame.index]? = some instr)
    (isOut : instr.out? = some out)
    (done : View.effect ⟨unit, machine, frame⟩ instr = .ok (.assign out.id value)) :
    (frame.assign out.id value).advance.Recomputes unit machine instr := by
  have sound := (retains.code.sound.coded _ block retains.here).code _ instr isNext
  have guarded := retains.code.guarded.code _ _ block instr retains.here isNext
  have agrees : frame.Agrees _ (frame.assign out.id value).advance :=
    (Frame.Passes.assign frame isOut value
      (fresh_out retains.code.sound retains.here isNext isOut)).agrees
  have held : (frame.assign out.id value).advance.registers[out.id]? = some value := by
    have inside := out_lt retains.code.sound retains.here isNext isOut
    rw [← retains.registerCount] at inside
    exact Array.getElem?_setIfInBounds_self_of_lt inside
  have assigned {outcome : Except Trap Value} (settled : View.assigning out outcome =
      .ok (.assign out.id value)) : outcome = .ok value := by
    obtain ⟨_, isOk, same⟩ := View.eq_of_assigning settled
    cases same
    exact isOk
  cases instr with
  | binary register op left right =>
    cases isOut
    refine ⟨value, held, ?_⟩
    rw [agrees.binary machine machine guarded.1 guarded.2
      (sound.resolves left (by simp [IR.Instr.operands]))
      (sound.resolves right (by simp [IR.Instr.operands]))]
    exact assigned done
  | convert register cast operand =>
    cases isOut
    refine ⟨value, held, ?_⟩
    rw [agrees.convert machine machine guarded
      (sound.resolves operand (by simp [IR.Instr.operands]))]
    exact assigned done
  | elementAddress register array index =>
    cases isOut
    obtain ⟨⟨slot, rfl⟩, role, indexRole⟩ := guarded
    have indexResolves := sound.resolves index (by simp [IR.Instr.operands])
    obtain ⟨memory, cells, isBase, there, isFor⟩ := retains.slot_read contained machineContained
      (sound.resolves _ (List.mem_cons_self ..)) role fun _ => id
    have computed := assigned done
    cases read : View.integer ⟨unit, machine, frame⟩ index with
    | error trap =>
      rw [View.elementAddress, Evaluation.address_eq isBase, read] at computed
      cases computed
    | ok number =>
      rw [View.elementAddress_eq isBase there read] at computed
      split at computed
      · cases computed
      · rename_i inside
        rw [not_or, Int.not_lt, Int.not_le] at inside
        cases computed
        refine ⟨slot, memory, cells, number, rfl, there, isFor, ?_, inside.1, inside.2, held⟩
        rw [agrees.integer machine machine indexRole indexResolves]
        exact read
  | _ => trivial

end Frame.Retains

end Retention

/-! ### Steps -/

/-- A frame that waits at a call. -/
def Caller.Retains (unit : IR.Module) (machine : Machine) (caller : Caller) : Prop :=
  ∃ function block marks callee args,
    caller.frame.Retains unit function block marks machine ∧
      block.code[caller.frame.index]? = some (.call caller.out callee args)

structure State.Retains (unit : IR.Module) (state : State) : Prop where
  frame : ∃ function block marks, state.frame.Retains unit function block marks state.machine
  callers : ∀ caller ∈ state.callers, caller.Retains unit state.machine

section Steps

variable {unit : IR.Module} {machine after : Machine} {caller : Caller} {state next : State}
  {function : IR.Function} {block : IR.Block} {marks : Nat → Nat → Prop} {instr : IR.Instr}
  {base : Nat} {outer : List Caller}

theorem Caller.Retains.keeps (retains : caller.Retains unit machine)
    (keeps : machine.Keeps after) : caller.Retains unit after := by
  obtain ⟨function, block, marks, callee, args, frame, waits⟩ := retains
  exact ⟨function, block, marks, callee, args, frame.keeps keeps, waits⟩

/-- A call has changed nothing in the frame that goes on behind it, apart from its result. -/
theorem Caller.Retains.resume (retains : caller.Retains unit machine) (result : Value) :
    ∃ function block marks, (caller.resume result).Retains unit function block marks machine := by
  obtain ⟨frame, out⟩ := caller
  obtain ⟨function, block, marks, callee, args, frameRetains, waits⟩ := retains
  refine ⟨function, block, marks, frameRetains.pass waits ?_ (.refl machine) trivial⟩
  cases out with
  | none => exact .advance frame rfl
  | some out =>
    exact .assign frame rfl _ (fresh_out frameRetains.code.sound frameRetains.here waits rfl)

namespace State.Retains

/-- The same callers, with a later machine. -/
theorem go {frame : Frame} (retains : state.Retains unit) (keeps : state.machine.Keeps after)
    (frameRetains : ∃ function block marks, frame.Retains unit function block marks after) :
    State.Retains unit ⟨after, frame, state.callers⟩ :=
  ⟨frameRetains, fun caller member => (retains.callers caller member).keeps keeps⟩

theorem returned {result : Value} (retains : state.Retains unit)
    (returns : state.return result = .running next) : next.Retains unit := by
  obtain ⟨machine, frame, callers⟩ := state
  cases callers with
  | nil => cases returns
  | cons caller callers =>
    cases returns
    have same : machine.Keeps machine.leave := fun _ memory found => ⟨memory, found, rfl, rfl⟩
    have first := (retains.callers caller (List.mem_cons_self ..)).keeps same
    exact ⟨first.resume result, fun other member =>
      (retains.callers other (List.mem_cons_of_mem _ member)).keeps same⟩

theorem call {out : Option IR.Register} {callee : Nat} {values : List Value}
    (guarded : unit.Guarded) (retains : state.Retains unit)
    (waits : Caller.Retains unit state.machine ⟨state.frame, out⟩)
    (called : state.call unit out callee values = .running next)
    (keeps : state.machine.Keeps next.machine) : next.Retains unit := by
  obtain ⟨machine, frame, callers⟩ := state
  unfold State.call at called
  dsimp only at called
  split at called
  · cases called
  · rename_i entered found
    split at called
    · split at called
      · cases called
        exact retains.go keeps ((waits.keeps keeps).resume _)
      · cases called
    · rename_i defined
      split at called
      · cases called
      · cases called
        have isDefined : entered.external = false := eq_false_of_ne_true defined
        refine ⟨⟨entered, Frame.Retains.new guarded found isDefined machine.enter values⟩,
          fun caller member => ?_⟩
        rcases List.mem_cons.mp member with rfl | member
        · exact waits.keeps keeps
        · exact (retains.callers caller member).keeps keeps

/-- Executing the next instruction. -/
theorem execute (guarded : unit.Guarded) (retains : state.Retains unit)
    (frame : state.frame.Retains unit function block marks state.machine)
    (contained : state.Contained unit base outer)
    (isNext : block.code[state.frame.index]? = some instr)
    (executed : state.execute unit instr = .running next)
    (keeps : state.machine.Keeps next.machine) : next.Retains unit := by
  obtain ⟨_, frameContained⟩ := contained.frame
  cases frame.found.symm.trans frameContained.found
  unfold State.execute at executed
  split at executed
  · rename_i effect done
    have allowed := frameContained.allows contained.machine frame.here isNext done
    cases effect with
    | assign register value =>
      obtain ⟨out, isOut, rfl, _⟩ := allowed
      cases executed
      have fresh := fresh_out frame.code.sound frame.here isNext isOut
      exact retains.go keeps ⟨function, block, marks, frame.pass isNext
        (.assign _ isOut value fresh) keeps
        (frame.computes frameContained contained.machine isNext isOut done)⟩
    | allocate slot memory =>
      obtain ⟨_, place, placed, _⟩ := allowed
      obtain ⟨reserved, rfl, rfl⟩ := View.effect_comesFrom done
      cases executed
      have inside : reserved.id < state.frame.locals.size :=
        frame.localCount.symm ▸ (Array.getElem?_eq_some_iff.mp placed).1
      exact retains.go keeps
        ⟨function, block, marks, frame.pass isNext (.bind inside _) keeps trivial⟩
    | write | clear =>
      obtain ⟨address, value, rfl⟩ := View.effect_comesFrom done
      cases executed
      exact retains.go keeps
        ⟨function, block, marks, frame.pass isNext (.advance _ rfl) keeps trivial⟩
    | call out callee values =>
      obtain ⟨⟨args, rfl⟩, _⟩ := allowed
      exact retains.call guarded ⟨function, block, marks, callee, args, frame, isNext⟩ executed
        keeps
  · cases executed

/-- Going where the end of a block says. -/
theorem terminate {terminator : IR.Terminator} (retains : state.Retains unit)
    (frame : state.frame.Retains unit function block marks state.machine)
    (atEnd : block.code[state.frame.index]? = none) (ended : block.terminator = some terminator)
    (terminated : state.terminate unit terminator = .running next) : next.Retains unit := by
  have branches {target : Nat} (listed : target ∈ terminator.targets) :
      ∃ function block marks, (state.frame.jump target).Retains unit function block marks
        state.machine := by
    obtain ⟨next, jumped⟩ := frame.jump atEnd ended listed
    exact ⟨function, next, marks, jumped⟩
  unfold State.terminate at terminated
  cases terminator with
  | branch target =>
    cases terminated
    exact ⟨branches (List.mem_singleton.mpr rfl), retains.callers⟩
  | branchIf condition consequent alternative =>
    dsimp only at terminated
    split at terminated
    · cases terminated
      refine ⟨branches ?_, retains.callers⟩
      show ite _ _ _ ∈ [consequent, alternative]
      split <;> simp
    · cases terminated
  | ret value =>
    cases value with
    | none => exact retains.returned terminated
    | some operand =>
      dsimp only at terminated
      split at terminated
      · exact retains.returned terminated
      · cases terminated
  | unreachable => cases terminated

/-- One step. -/
theorem step {limits : Limits} (guarded : unit.Guarded) (retains : state.Retains unit)
    (contained : state.Contained unit base []) (stepped : state.step unit limits = .running next) :
    next.Retains unit := by
  have keeps : state.machine.Keeps next.machine := by
    have leads := contained.step guarded limits
    rw [stepped] at leads
    cases leads with
    | on spares _ => exact spares.keeps
    | back _ isOuter => cases isOuter
  have same : state.machine.Keeps state.tick.machine := fun _ memory found =>
    ⟨memory, found, rfl, rfl⟩
  obtain ⟨function, block, marks, standing⟩ := retains.frame
  have frame := standing.keeps same
  have ticked : state.tick.Retains unit := retains.go same ⟨function, block, marks, frame⟩
  unfold State.step at stepped
  rcases state.frame.next_cases unit with nothing | ⟨_, _, found, here, rest⟩
  · rw [nothing] at stepped
    cases stepped
  · cases frame.found.symm.trans found
    cases frame.here.symm.trans here
    rcases rest with ⟨instr, there, isNext⟩ | ⟨terminator, atEnd, ended, isNext⟩
    · rw [isNext] at stepped
      dsimp only at stepped
      split at stepped
      · cases stepped
      · exact ticked.execute guarded frame contained.tick there stepped keeps
    · rw [isNext] at stepped
      dsimp only at stepped
      split at stepped
      · cases stepped
      · exact ticked.terminate frame atEnd ended stepped

end State.Retains

/-- The instruction that comes next is that of the block of the frame. -/
theorem Frame.Retains.next_instruction {frame : Frame}
    (retains : frame.Retains unit function block marks machine)
    (isNext : frame.next unit = .instruction instr) : block.code[frame.index]? = some instr := by
  rcases frame.next_cases unit with nothing |
    ⟨_, _, found, here, ⟨_, there, isInstr⟩ | ⟨_, _, _, isTerminator⟩⟩
  · cases isNext.symm.trans nothing
  · cases retains.found.symm.trans found
    cases retains.here.symm.trans here
    cases isNext.symm.trans isInstr
    exact there
  · cases isNext.symm.trans isTerminator

/-- What is known about the frame and about its block before an instruction. -/
theorem State.Retains.standing (retains : state.Retains unit)
    (contained : state.Contained unit base outer)
    (isNext : state.frame.next unit = .instruction instr) :
    ∃ function block marks, state.frame.Retains unit function block marks state.machine ∧
      state.frame.Contained unit function base state.machine ∧
      block.code[state.frame.index]? = some instr := by
  obtain ⟨function, block, marks, frame⟩ := retains.frame
  obtain ⟨_, frameContained⟩ := contained.frame
  cases frame.found.symm.trans frameContained.found
  exact ⟨function, block, marks, frame, frameContained, frame.next_instruction isNext⟩

end Steps

/-! ### Runs -/

section Runs

variable {unit : IR.Module} {limits : Limits} {progress : Progress} {callee : Nat}

theorem Progress.advance_retains (guarded : unit.Guarded) (contained : progress.Contained unit)
    (retains : ∀ state, progress = .running state → state.Retains unit) (fuel : Nat) :
    ∀ state, progress.advance unit limits fuel = .running state → state.Retains unit := by
  induction fuel generalizing progress with
  | zero =>
    intro state isRunning
    exact retains state (by rw [← isRunning, advance_zero])
  | succ fuel rest =>
    cases progress with
    | running state =>
      exact rest ((State.Contained.step guarded contained limits).contained rfl rfl)
        fun next stepped => (retains state rfl).step guarded contained stepped
    | finished machine result => exact fun _ isRunning => by cases isRunning
    | failed machine failure => exact fun _ isRunning => by cases isRunning

/-- At every state to which a call from outside comes, the frames retain what has been computed. -/
theorem Progress.Reachable.retains (guarded : unit.Guarded)
    (reachable : progress.Reachable unit limits callee) :
    ∀ state, progress = .running state → state.Retains unit := by
  obtain ⟨inUse, plain, fuel⟩ := reachable
  refine Progress.advance_retains guarded
    (start_contained guarded (inUse.contained guarded) plain) (fun state started => ?_) fuel
  unfold start at started
  split at started
  · cases started
  · rename_i function found
    split at started
    · split at started <;> cases started
    · rename_i defined
      split at started
      · cases started
      · cases started
        exact ⟨⟨function, Frame.Retains.new guarded found (eq_false_of_ne_true defined) _ _⟩,
          fun caller member => absurd member List.not_mem_nil⟩

end Runs

end Pascaline.Machine
