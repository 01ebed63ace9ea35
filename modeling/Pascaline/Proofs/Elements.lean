/-
Elements of arrays are addressed exactly. An access brings its index to 32 bits, takes the first
index away, again in 32 bits, and lets the machine compare the distance with the number of cells.
If the bounds of the array are numbers of 32 bits and it has at most half as many elements as there
are such numbers, no distance that has wrapped around lies inside of it. So an index within the
bounds leads to its own cell, and every other one is an error. What is stored there reaches no other
cell.
-/

import Pascaline.Proofs.Occurrences
import Pascaline.Proofs.Registers
import Pascaline.Proofs.Widths

namespace Pascaline

open IR (Operand Slot)

/-! ### Bounds -/

/-- Bounds of an array that are in order, are numbers of 32 bits, and leave at most half as many
elements as there are such numbers. -/
structure Bounds (first last : Int64) : Prop where
  lower : -2 ^ 31 ≤ first.toInt
  upper : last.toInt < 2 ^ 31
  ordered : first.toInt ≤ last.toInt
  short : last.toInt - first.toInt + 1 ≤ 2 ^ 31

namespace Bounds

variable {first last : Int64} (bounds : Bounds first last)

include bounds

/-- The number of elements. -/
theorem length_toInt : (last - first + 1).toInt = last.toInt - first.toInt + 1 := by
  obtain ⟨lower, upper, ordered, short⟩ := bounds
  have one : (1 : Int64).toInt = 1 := rfl
  rw [Int64.toInt_add, Int64.toInt_sub, one]
  simp only [Int.bmod_def]
  repeat' split
  all_goals omega

/-- A distance in 32 bits lies inside of the array just if the index is within its bounds, and then
nothing has been cut off. -/
theorem distance {number distance : Int} (lower : -2 ^ 31 ≤ number) (upper : number < 2 ^ 31)
    (isDistance : distance = (number - first.toInt).bmod (2 ^ 32)) :
    (0 ≤ distance ∧ distance < last.toInt - first.toInt + 1 ↔
      first.toInt ≤ number ∧ number ≤ last.toInt) ∧
    (first.toInt ≤ number ∧ number ≤ last.toInt → distance = number - first.toInt) := by
  obtain ⟨_, _, ordered, short⟩ := bounds
  rw [Int.bmod_def] at isDistance
  split at isDistance <;> omega

end Bounds

/-! ### What is read -/

namespace Machine

section Reading

variable {unit : IR.Module} {machine : Machine} {frame : Frame} {view : View}
  {function : IR.Function} {value index : Operand} {code : List IR.Instr} {number : Int64}

theorem View.value_of_integer (read : view.integer value = .ok number) :
    view.value value = .ok (.int number) := by
  unfold View.integer at read
  cases held : view.value value with
  | error trap =>
    rw [held] at read
    cases read
  | ok other =>
    rw [held] at read
    cases other with
    | int =>
      cases read
      rfl
    | _ => cases read

/-- What is stored through an address, if it is no aggregate. -/
theorem View.store_direct {address stored : Operand} {memory offset : Nat} {held : Value}
    {cells : Memory} (isAddress : view.value address = .ok (.address memory offset))
    (direct : stored.IsDirect) (read : view.value stored = .ok held)
    (there : view.machine.memories[memory]? = some cells) (inside : offset < cells.cells.size) :
    view.store address stored = .ok (.write memory offset (held.fit cells.type)) := by
  have written : view.write memory offset held =
      .ok (.write memory offset (held.fit cells.type)) := by
    simp only [View.write, there, inside, if_true]
  have stores : view.store address stored = view.value stored >>= view.write memory offset := by
    rw [View.store, Evaluation.address_eq isAddress]
    cases stored with
    | zeros => exact direct.elim
    | _ => rfl
  rw [stores, read]
  exact written

/-- A cell that has been written to holds the value, and no other cell is changed. -/
theorem Machine.cell?_write {memory offset : Nat} {cells : Memory}
    (there : machine.memories[memory]? = some cells) (inside : offset < cells.cells.size)
    (held : Value) :
    (machine.write memory offset held).cell? memory offset = some held ∧
      ∀ other place, (other, place) ≠ (memory, offset) →
        (machine.write memory offset held).cell? other place = machine.cell? other place := by
  have modified (other : Nat) : (machine.write memory offset held).memories[other]? =
      if memory = other then (machine.memories[other]?).map (·.write offset held)
      else machine.memories[other]? := Array.getElem?_modify
  refine ⟨?_, fun other place different => ?_⟩
  · simp only [Machine.cell?, modified, there, if_true, Option.map_some]
    exact Array.getElem?_setIfInBounds_self_of_lt inside
  · simp only [Machine.cell?, modified]
    split
    · rename_i same
      subst same
      rw [there]
      exact Array.getElem?_setIfInBounds_ne fun same => different (by rw [same])
    · rfl

theorem View.convert_int {cast : IR.Cast} (known : cast = .trunc ∨ cast = .sext) (type : Ty)
    (read : view.value value = .ok (.int number)) :
    view.convert cast value type = .ok ((Value.int number).fit type) := by
  rw [View.convert, Evaluation.integer_eq read]
  rcases known with rfl | rfl <;> rfl

end Reading

end Machine

/-! ### Indices -/

namespace IR

section Indices

open Machine

variable {unit : IR.Module} {machine : Machine} {frame : Frame} {function : IR.Function}
  {value index : Operand} {code : List IR.Instr} {number first : Int64}

/-- The index stands for a value of the program, as what has been made from it does. -/
theorem Widens.role (widens : Widens value code index) (settled : value.IsSettled)
    (guarded : ∀ instr ∈ code, ∃ reserved, instr.Guarded unit function reserved)
    (role : index.IsValue function) : value.IsValue function := by
  cases widens with
  | same => exact role
  | @constant type number isConstant =>
    subst isConstant
    exact .int number settled.1
  | converted =>
    obtain ⟨_, isValue⟩ := guarded _ (List.mem_singleton.mpr rfl)
    exact isValue

theorem Distances.role (distances : Distances first value code index) (settled : value.IsSettled)
    (guarded : ∀ instr ∈ code, ∃ reserved, instr.Guarded unit function reserved)
    (role : index.IsValue function) : value.IsValue function := by
  cases distances with
  | direct widens => exact widens.role settled guarded role
  | subtracted widens =>
    obtain ⟨_, isLeft, _⟩ := guarded _ (List.mem_append_right _ (List.mem_singleton.mpr rfl))
    exact widens.role settled (fun instr member => guarded instr (List.mem_append_left _ member))
      isLeft

/-- Behind the code that widens an index the same number is read. -/
theorem Widens.read (widens : Widens value code index) (type : index.type = .i32)
    (computed : ∀ instr ∈ code, frame.Recomputes unit machine instr)
    (fits : wrapToWidth 32 number = number)
    (read : View.value ⟨unit, machine, frame⟩ value = .ok (.int number)) :
    View.value ⟨unit, machine, frame⟩ index = .ok (.int number) := by
  cases widens with
  | same => exact read
  | constant isConstant =>
    subst isConstant
    cases read
    exact congrArg (Except.ok ∘ Value.int) fits
  | @converted cast known out =>
    obtain ⟨held, isHeld, converted⟩ := computed _ (List.mem_singleton.mpr rfl)
    have type : out.type = .i32 := type
    rw [View.convert_int known out.type read, type] at converted
    cases converted
    show View.present frame.registers[out.id]? = _
    rw [isHeld]
    exact congrArg (Except.ok ∘ Value.int) fits

/-- What has been computed from an index has been computed from a number. -/
theorem Widens.value_read (widens : Widens value code index)
    (computed : ∀ instr ∈ code, frame.Recomputes unit machine instr)
    (read : View.value ⟨unit, machine, frame⟩ index = .ok (.int number)) :
    ∃ number, View.value ⟨unit, machine, frame⟩ value = .ok (.int number) := by
  cases widens with
  | same => exact ⟨number, read⟩
  | constant isConstant =>
    subst isConstant
    exact ⟨_, rfl⟩
  | converted =>
    obtain ⟨_, _, converted⟩ := computed _ (List.mem_singleton.mpr rfl)
    unfold View.convert at converted
    cases isNumber : View.integer ⟨unit, machine, frame⟩ value with
    | error trap =>
      rw [isNumber] at converted
      cases converted
    | ok other => exact ⟨other, View.value_of_integer isNumber⟩

/-- Behind the code that finds a distance it is read, in 32 bits. -/
theorem Distances.read (distances : Distances first value code index) (type : index.type = .i32)
    (typed : ∀ instr ∈ code, instr.Typed unit)
    (computed : ∀ instr ∈ code, frame.Recomputes unit machine instr)
    (fits : wrapToWidth 32 number = number)
    (read : View.value ⟨unit, machine, frame⟩ value = .ok (.int number)) :
    View.value ⟨unit, machine, frame⟩ index = .ok (.int (wrapToWidth 32 (number - first))) := by
  cases distances with
  | direct widens zero =>
    rw [zero, Int64.sub_zero, fits]
    exact widens.read type computed fits read
  | @subtracted code left widens nonzero out =>
    have listed : Instr.binary out (.int .sub) left (.int .i32 first) ∈
        code ++ [.binary out (.int .sub) left (.int .i32 first)] :=
      List.mem_append_right _ (List.mem_singleton.mpr rfl)
    have outType : out.type = .i32 := type
    have leftRead := widens.read (typed _ listed).1
      (fun instr member => computed instr (List.mem_append_left _ member)) fits read
    obtain ⟨held, isHeld, subtracted⟩ := computed _ listed
    rw [Evaluation.binary_int_eq leftRead rfl, outType] at subtracted
    cases subtracted
    show View.present frame.registers[out.id]? = _
    rw [isHeld]
    rfl

theorem Distances.value_read (distances : Distances first value code index)
    (computed : ∀ instr ∈ code, frame.Recomputes unit machine instr)
    (read : View.value ⟨unit, machine, frame⟩ index = .ok (.int number)) :
    ∃ number, View.value ⟨unit, machine, frame⟩ value = .ok (.int number) := by
  cases distances with
  | direct widens => exact widens.value_read computed read
  | @subtracted code left widens nonzero out =>
    obtain ⟨_, _, subtracted⟩ := computed _
      (List.mem_append_right _ (List.mem_singleton.mpr rfl))
    cases isNumber : View.integer ⟨unit, machine, frame⟩ left with
    | error trap =>
      simp only [View.binary, isNumber] at subtracted
      cases subtracted
    | ok other =>
      exact widens.value_read (fun instr member => computed instr (List.mem_append_left _ member))
        (View.value_of_integer isNumber)

end Indices

theorem toInt_wrap_sub (number first : Int64) :
    (wrapToWidth 32 (number - first)).toInt = (number.toInt - first.toInt).bmod (2 ^ 32) := by
  show (number - first).toInt32.toInt64.toInt = _
  rw [Int32.toInt_toInt64, Int64.toInt_toInt32, Int64.toInt_sub]
  exact Int.bmod_bmod_of_dvd (by decide)

theorem wrap_of_range {number : Int64} (lower : -2 ^ 31 ≤ number.toInt)
    (upper : number.toInt < 2 ^ 31) : wrapToWidth 32 number = number := by
  refine Int64.toInt_inj.mp ?_
  show number.toInt32.toInt64.toInt = number.toInt
  rw [Int32.toInt_toInt64, Int64.toInt_toInt32]
  exact Int.bmod_eq_of_le (by omega) (by omega)

end IR

/-- The representation of an array. -/
theorem Symbol.nativeType_array {symbol : Symbol} {first last : Int64}
    (shape : symbol.shape = .array first last) :
    symbol.nativeType = .array symbol.kind.native (last - first + 1) := by
  simp only [Symbol.nativeType, Symbol.length, Symbol.last, Symbol.first, shape]

/-! ### Accesses -/

namespace Machine

/-- The part of its block that a frame has executed. -/
def Frame.executed (unit : IR.Module) (frame : Frame) : List IR.Instr :=
  (((unit.functions[frame.function]?).bind fun function => function.blocks[frame.block]?).map
    fun block => block.code.toList.take frame.index).getD []

section Accesses

variable {unit : IR.Module} {function : IR.Function} {block : IR.Block} {marks : Nat → Nat → Prop}
  {machine : Machine} {frame : Frame} {base place : Nat} {out : IR.Register}
  {array index value : Operand} {symbol : Symbol} {first last number : Int64} {id : Nat}

theorem Frame.executed_eq (found : unit.functions[frame.function]? = some function)
    (here : function.blocks[frame.block]? = some block) :
    frame.executed unit = block.code.toList.take frame.index := by
  simp only [Frame.executed, found, Option.bind_some, here, Option.map_some, Option.getD_some]

namespace Frame.Retains

theorem executed (retains : frame.Retains unit function block marks machine) :
    frame.executed unit = block.code.toList.take frame.index :=
  Frame.executed_eq retains.found retains.here

/-- A settled operand of an integral type holds a number of 32 bits. -/
theorem index_fits (contained : frame.Contained unit function base machine)
    (role : value.IsValue function) (settled : value.IsSettled)
    (integral : value.type.category = .integral)
    (read : View.value ⟨unit, machine, frame⟩ value = .ok (.int number)) :
    -2 ^ 31 ≤ number.toInt ∧ number.toInt < 2 ^ 31 := by
  have range {type : Ty} (scalar : type.IsScalar) (integral : type.category = .integral)
      (fits : (Value.int number).Fits type) : -2 ^ 31 ≤ number.toInt ∧ number.toInt < 2 ^ 31 := by
    rcases scalar.eq_of_integral integral with rfl | rfl
    · exact (fits.inRange number .i32 rfl rfl).i32 rfl
    · have small := (fits.inRange number .i8 rfl rfl).i8 rfl
      omega
  cases role with
  | @int type value scalar =>
    cases read
    exact range scalar integral (congrArg Value.int settled.2)
  | float | null => cases read
  | data id =>
    obtain ⟨_, _, isText⟩ := Option.map_eq_some_iff.mp (View.eq_some_of_present read)
    cases isText
  | param => exact settled.elim
  | @register register instr contains isValue scalar =>
    have isOut : instr.out? = some register := by
      cases instr <;> first | exact isValue | cases isValue
    exact range scalar integral ((contained.registers instr register _ contains isOut
      (View.eq_some_of_present read)).value isValue).2

/-- The distance that has been found for an access, as long as the frame stays in its block. -/
theorem distance (retains : frame.Retains unit function block marks machine)
    (contained : frame.Contained unit function base machine)
    (there : block.code[place]? = some (.elementAddress out array index))
    (early : place ≤ frame.index)
    (access : IR.Access id (block.code.toList.take place) array index symbol first last value)
    (read : View.value ⟨unit, machine, frame⟩ value = .ok (.int number)) :
    -2 ^ 31 ≤ number.toInt ∧ number.toInt < 2 ^ 31 ∧
      View.integer ⟨unit, machine, frame⟩ index = .ok (wrapToWidth 32 (number - first)) := by
  obtain ⟨code, distances, isLast⟩ := access.code
  have executed {instr : IR.Instr} (member : instr ∈ code) :
      instr ∈ block.code.toList.take frame.index :=
    (List.take_prefix_take_left early).subset (isLast.subset member)
  have guarded (instr : IR.Instr) (member : instr ∈ code) :
      ∃ reserved, instr.Guarded unit function reserved := by
    obtain ⟨earlier, _, found, _⟩ := place_of_mem_take (executed member)
    exact ⟨_, retains.code.guarded.code _ earlier block instr retains.here found⟩
  have typed (instr : IR.Instr) (member : instr ∈ code) : instr.Typed unit := by
    obtain ⟨earlier, _, found, _⟩ := place_of_mem_take (executed member)
    exact ((retains.code.sound.coded _ block retains.here).code earlier instr found).typed
  obtain ⟨_, _, _, _, type⟩ :=
    ((retains.code.sound.coded _ block retains.here).code place _ there).typed
  have role : value.IsValue function := distances.role access.settled guarded
    (retains.code.guarded.code _ place block _ retains.here there).2.2
  obtain ⟨lower, upper⟩ := index_fits contained role access.settled access.integral read
  exact ⟨lower, upper, Evaluation.integer_eq (distances.read type typed
    (fun instr member => retains.computed instr (executed member))
    (IR.wrap_of_range lower upper) read)⟩

end Frame.Retains

/-- The cells of an array. -/
theorem Memory.IsFor.elements {memory : Memory} {slot : Slot} (isFor : memory.IsFor slot.type)
    (placed : symbol.Placed slot) (shape : symbol.shape = .array first last) :
    memory.type = symbol.kind.native ∧
      (Bounds first last → (memory.cells.size : Int) = last.toInt - first.toInt + 1) := by
  rw [placed.type, Symbol.nativeType_array shape] at isFor
  refine ⟨isFor.1, fun bounds => ?_⟩
  have ordered := bounds.ordered
  rw [isFor.2, ← Int64.toNat_toInt, bounds.length_toInt]
  omega

end Accesses

/-- The next instruction computes the address of an element of an array. If the bounds of the array
are as they should be, an index within them leads to the cell of its own, and any other index is an
error. -/
def State.SelectsBy (unit : IR.Module) (state : State) (out : IR.Register) (array : Operand)
    (first last : Int64) (value : Operand) : Prop :=
  ∃ memory cells, View.value ⟨unit, state.machine, state.frame⟩ array = .ok (.address memory 0) ∧
    state.machine.memories[memory]? = some cells ∧
    (Bounds first last →
      (cells.cells.size : Int) = last.toInt - first.toInt + 1 ∧
      ∀ number, View.value ⟨unit, state.machine, state.frame⟩ value = .ok (.int number) →
        (first.toInt ≤ number.toInt ∧ number.toInt ≤ last.toInt →
          ∃ later, state.step unit {} = .running later ∧
            later.machine.memories = state.machine.memories ∧
            later.frame.registers[out.id]? =
              some (.address memory (number.toInt - first.toInt).toNat)) ∧
        (¬ (first.toInt ≤ number.toInt ∧ number.toInt ≤ last.toInt) →
          ∃ machine failure distance, state.step unit {} = .failed machine failure ∧
            failure.cause = .indexRange distance cells.cells.size))

/-- The next instruction selects an element in this way, for an array that the program declares and
an index that has been brought to its distance. -/
def State.Selects (ledger : List Symbol) (unit : IR.Module) (state : State) (out : IR.Register)
    (array index : Operand) : Prop :=
  ∃ symbol ∈ ledger, ∃ first last value,
    IR.Access state.frame.function (state.frame.executed unit) array index symbol first last value ∧
    state.SelectsBy unit out array first last value

/-- The next instruction stores a value at an element of an array. If the bounds of the array are as
they should be, it is the element of the index, which is within them, and no other cell is
changed. -/
def State.AssignsBy (unit : IR.Module) (state : State) (register : IR.Register) (stored : Operand)
    (type : Ty) (first last : Int64) (value : Operand) : Prop :=
  Bounds first last → ∃ number memory held later,
    View.value ⟨unit, state.machine, state.frame⟩ value = .ok (.int number) ∧
    first.toInt ≤ number.toInt ∧ number.toInt ≤ last.toInt ∧
    state.frame.registers[register.id]? =
      some (.address memory (number.toInt - first.toInt).toNat) ∧
    View.value ⟨unit, state.machine, state.frame⟩ stored = .ok held ∧
    state.step unit {} = .running later ∧
    later.machine.cell? memory (number.toInt - first.toInt).toNat = some (held.fit type) ∧
    ∀ other offset, (other, offset) ≠ (memory, (number.toInt - first.toInt).toNat) →
      later.machine.cell? other offset = state.machine.cell? other offset

/-- The next instruction assigns to an element in this way, for an array that the program declares.
The address has been computed in the same block. -/
def State.Assigns (ledger : List Symbol) (unit : IR.Module) (state : State)
    (register : IR.Register) (stored : Operand) : Prop :=
  ∃ symbol ∈ ledger, ∃ first last value array index before,
    before ++ [.elementAddress register array index] <+: state.frame.executed unit ∧
    IR.Access state.frame.function before array index symbol first last value ∧
    state.AssignsBy unit register stored symbol.kind.native first last value

section Steps

variable {unit : IR.Module} {ledger : List Symbol} {state : State} {out register : IR.Register}
  {array index stored : Operand}

/-- An access leads to the element of its index, whatever code has found the distance. -/
theorem State.Retains.selectsBy {symbol : Symbol} {slot : Slot} {first last : Int64}
    {value : Operand} {owner : Nat} (retains : state.Retains unit)
    (contained : state.Contained unit unit.globals.size [])
    (isNext : state.frame.next unit = .instruction (.elementAddress out (.slot slot) index))
    (placed : symbol.Placed slot)
    (access : IR.Access owner (state.frame.executed unit) (.slot slot) index symbol first last
      value) :
    state.SelectsBy unit out (.slot slot) first last value := by
  obtain ⟨function, block, marks, frame, frameContained, there⟩ := retains.standing contained isNext
  have guarded := frame.code.guarded.code _ _ block _ frame.here there
  have sound := (frame.code.sound.coded _ block frame.here).code _ _ there
  obtain ⟨memory, cells, isBase, found, isFor⟩ := frame.slot_read frameContained contained.machine
    (sound.resolves _ (List.mem_cons_self ..)) guarded.2.1 fun _ => id
  refine ⟨memory, cells, isBase, found, fun bounds => ?_⟩
  have size := (isFor.elements placed access.shape).2 bounds
  refine ⟨size, fun number read => ?_⟩
  rw [frame.executed] at access
  obtain ⟨lower, upper, isDistance⟩ :=
    frame.distance frameContained there (Nat.le_refl _) access read
  obtain ⟨inside, same⟩ := bounds.distance lower upper (IR.toInt_wrap_sub number first)
  rw [← size] at inside
  have address := View.elementAddress_eq isBase found isDistance
  have effect : View.effect ⟨unit, state.tick.machine, state.tick.frame⟩
      (.elementAddress out (.slot slot) index) = View.assigning out _ :=
    congrArg (View.assigning out) address
  rw [State.step_instruction isNext, State.execute, effect]
  refine ⟨fun within => ?_, fun outside => ?_⟩
  · obtain ⟨nonneg, below⟩ := inside.mpr within
    rw [if_neg (not_or.mpr ⟨Int.not_lt.mpr nonneg, Int.not_le.mpr below⟩)]
    refine ⟨_, rfl, rfl, ?_⟩
    have room : out.id < state.frame.registers.size :=
      frame.registerCount.symm ▸ out_lt frame.code.sound frame.here there rfl
    rw [← same within]
    exact Array.getElem?_setIfInBounds_self_of_lt room
  · rw [if_pos]
    · exact ⟨_, _, _, rfl, passOn_cause ..⟩
    · by_contra fits
      rw [not_or, Int.not_lt, Int.not_le] at fits
      exact outside (inside.mp fits)

theorem State.Retains.selects (stores : Stored ledger unit) (tidy : unit.Tidy ledger)
    (retains : state.Retains unit) (contained : state.Contained unit unit.globals.size [])
    (isNext : state.frame.next unit = .instruction (.elementAddress out array index)) :
    state.Selects ledger unit out array index := by
  obtain ⟨function, block, marks, frame, frameContained, there⟩ := retains.standing contained isNext
  obtain ⟨symbol, listed, first, last, value, access⟩ :=
    (tidy _ function frame.found _ block frame.here).accesses _ out array index there
  rw [← frame.executed] at access
  obtain ⟨slot, bound, rfl⟩ := access.array
  obtain ⟨slotToo, placed⟩ := stores.placed symbol listed
  cases bound.symm.trans placed.bound
  exact ⟨symbol, listed, first, last, value, access,
    retains.selectsBy contained isNext placed access⟩

variable {function : IR.Function} {block : IR.Block} {marks : Nat → Nat → Prop} {machine : Machine}
  {frame : Frame}

/-- A constant or a register can be read. -/
theorem Frame.Retains.direct_read (retains : frame.Retains unit function block marks machine)
    (direct : stored.IsDirect)
    (resolves : stored.Resolves unit function
      (IR.writtenBy (block.code.toList.take frame.index))) :
    ∃ held, View.value ⟨unit, machine, frame⟩ stored = .ok held := by
  cases stored with
  | int | float | null => exact ⟨_, rfl⟩
  | data id =>
    have inside : id < unit.data.size := resolves
    refine ⟨.text unit.data[id].bytes, ?_⟩
    show View.present ((unit.data[id]?).map _) = _
    rw [Array.getElem?_eq_getElem inside]
    rfl
  | reg register =>
    obtain ⟨held, isHeld⟩ := retains.register_read resolves
    refine ⟨held, ?_⟩
    show View.present frame.registers[register.id]? = _
    rw [isHeld]
    rfl
  | slot | zeros | function => exact direct.elim

/-- The address of an element that has been computed in the block is that of the element which the
index still tells. -/
theorem Frame.Retains.selected {base place id : Nat} {value : Operand} {symbol : Symbol}
    {slot : Slot} {first last : Int64} (retains : frame.Retains unit function block marks machine)
    (contained : frame.Contained unit function base machine) (early : place < frame.index)
    (there : block.code[place]? = some (.elementAddress register (.slot slot) index))
    (placed : symbol.Placed slot) (bounds : Bounds first last)
    (access : IR.Access id (block.code.toList.take place) (.slot slot) index symbol first last
      value) :
    ∃ number memory cells, View.value ⟨unit, machine, frame⟩ value = .ok (.int number) ∧
      first.toInt ≤ number.toInt ∧ number.toInt ≤ last.toInt ∧
      frame.registers[register.id]? =
        some (.address memory (number.toInt - first.toInt).toNat) ∧
      machine.memories[memory]? = some cells ∧ cells.type = symbol.kind.native ∧
      (number.toInt - first.toInt).toNat < cells.cells.size := by
  have executed {instr : IR.Instr} (member : instr ∈ block.code.toList.take (place + 1)) :
      instr ∈ block.code.toList.take frame.index :=
    (List.take_prefix_take_left early).subset member
  have listed :
      .elementAddress register (.slot slot) index ∈ block.code.toList.take (place + 1) := by
    rw [List.take_add_one, Array.getElem?_toList, there]
    exact List.mem_append_right _ (List.mem_singleton.mpr rfl)
  obtain ⟨_, memory, cells, distance, same, found, isFor, isDistance, nonneg, below, held⟩ :=
    retains.computed _ (executed listed)
  cases same
  obtain ⟨type, size⟩ := isFor.elements placed access.shape
  obtain ⟨code, distances, isLast⟩ := access.code
  obtain ⟨number, read⟩ := distances.value_read
    (fun instr member => retains.computed instr (executed
      ((List.take_prefix_take_left (Nat.le_succ place)).subset (isLast.subset member))))
    (View.value_of_integer isDistance)
  obtain ⟨lower, upper, isDistanceToo⟩ := retains.distance contained there early.le access read
  cases isDistance.symm.trans isDistanceToo
  obtain ⟨inside, isExact⟩ := bounds.distance lower upper (IR.toInt_wrap_sub number first)
  have within := inside.mp ⟨nonneg, size bounds ▸ below⟩
  rw [isExact within] at held below
  exact ⟨number, memory, cells, read, within.1, within.2, held, found, type, by omega⟩

/-- A store through a register. -/
theorem State.step_store {memory offset : Nat} {cells : Memory} {held : Value}
    (isNext : state.frame.next unit = .instruction (.store (.reg register) stored))
    (isAddress : state.frame.registers[register.id]? = some (.address memory offset))
    (direct : stored.IsDirect)
    (read : View.value ⟨unit, state.machine, state.frame⟩ stored = .ok held)
    (there : state.machine.memories[memory]? = some cells) (inside : offset < cells.cells.size) :
    state.step unit {} = .running ⟨state.tick.machine.write memory offset (held.fit cells.type),
      state.frame.advance, state.callers⟩ := by
  have address : View.value ⟨unit, state.tick.machine, state.tick.frame⟩ (.reg register) =
      .ok (.address memory offset) := congrArg View.present isAddress
  rw [State.step_instruction isNext, State.execute, View.effect,
    View.store_direct address direct read there inside]
  rfl

/-- What is stored behind an access goes to the element of its index. -/
theorem State.Retains.assignsBy {symbol : Symbol} {slot : Slot} {first last : Int64}
    {value : Operand} {place id : Nat}
    (retains : state.frame.Retains unit function block marks state.machine)
    (contained : state.frame.Contained unit function unit.globals.size state.machine)
    (isNext : state.frame.next unit = .instruction (.store (.reg register) stored))
    (there : block.code[state.frame.index]? = some (.store (.reg register) stored))
    (direct : stored.IsDirect) (early : place < state.frame.index)
    (found : block.code[place]? = some (.elementAddress register (.slot slot) index))
    (placed : symbol.Placed slot)
    (access : IR.Access id (block.code.toList.take place) (.slot slot) index symbol first last
      value) :
    state.AssignsBy unit register stored symbol.kind.native first last value := by
  intro bounds
  obtain ⟨number, memory, cells, read, notBelow, notAbove, isAddress, cellsFound, type, inside⟩ :=
    retains.selected contained early found placed bounds access
  have sound := (retains.code.sound.coded _ block retains.here).code _ _ there
  obtain ⟨held, isHeld⟩ := retains.direct_read direct
    (sound.resolves stored (List.mem_cons_of_mem _ (List.mem_singleton.mpr rfl)))
  obtain ⟨changed, unchanged⟩ := Machine.cell?_write cellsFound inside (held.fit cells.type)
  rw [← type]
  exact ⟨number, memory, held, _, read, notBelow, notAbove, isAddress, isHeld,
    State.step_store isNext isAddress direct isHeld cellsFound inside, changed, unchanged⟩

theorem State.Retains.assigns (stores : Stored ledger unit) (tidy : unit.Tidy ledger)
    (retains : state.Retains unit) (contained : state.Contained unit unit.globals.size [])
    (isNext : state.frame.next unit = .instruction (.store (.reg register) stored)) :
    state.Assigns ledger unit register stored := by
  obtain ⟨function, block, marks, frame, frameContained, there⟩ := retains.standing contained isNext
  have sound := (frame.code.sound.coded _ block frame.here).code _ _ there
  have isTidy := tidy _ function frame.found _ block frame.here
  -- The register has been written in the block, and what writes it computes an address.
  obtain ⟨instr, executed, isOut⟩ := List.mem_filterMap.mp
    (show register ∈ IR.writtenBy (block.code.toList.take state.frame.index) from
      sound.resolves (.reg register) (List.mem_cons_self ..))
  obtain ⟨place, early, found, _⟩ := place_of_mem_take executed
  cases (frame.code.guarded.code _ _ block _ frame.here there).1 with
  | @element _ array index contains =>
    cases instr_unique frame.code.sound ⟨_, place, block, frame.here, found⟩ contains isOut rfl rfl
    obtain ⟨symbol, listed, first, last, value, access⟩ :=
      isTidy.accesses place register array index found
    obtain ⟨slot, bound, rfl⟩ := access.array
    obtain ⟨_, placed⟩ := stores.placed symbol listed
    cases bound.symm.trans placed.bound
    refine ⟨symbol, listed, first, last, value, .slot slot, index, block.code.toList.take place, ?_,
      access, ?_⟩
    · have taken : block.code.toList.take (place + 1) =
          block.code.toList.take place ++ [.elementAddress register (.slot slot) index] := by
        rw [List.take_add_one, Array.getElem?_toList, found]
        rfl
      rw [frame.executed, ← taken]
      exact List.take_prefix_take_left early
    · exact assignsBy frame frameContained isNext there (isTidy.stores _ register stored there)
        early found placed access

end Steps

end Machine

/-! ### Accesses of a program -/

/-- The array and the index, if a node accesses an element. -/
def Node.element? : Node → Option (Bytes × Node)
  | .arrayAccess _ name index | .input _ (.arrayAccess _ name index) => some (name, index)
  | .arrayAssignment _ name index _ => if index.isMissing then none else some (name, index)
  | _ => none

/-- What a block ends with stands there still when the block has grown. -/
theorem IR.Block.Grows.suffix {block later : IR.Block} {code : List IR.Instr} {instr : IR.Instr}
    (grows : block.Grows later) (ends : code ++ [instr] <:+ block.code.toList) :
    ∃ place, block.code.size = place + 1 ∧ later.code[place]? = some instr ∧
      code <:+ later.code.toList.take place := by
  have kept : block.code.toList <+: later.code.toList := by
    refine List.prefix_iff_getElem?.mpr fun place inside => ?_
    rw [Array.getElem?_toList]
    exact grows.code place _ (Array.getElem?_eq_getElem inside)
  obtain ⟨front, whole⟩ := ends
  obtain ⟨rest, isLater⟩ := kept
  rw [← whole, ← List.append_assoc] at isLater
  refine ⟨(front ++ code).length, ?_, ?_, front, ?_⟩
  · rw [← Array.length_toList, ← whole, ← List.append_assoc, List.length_append]
    rfl
  · rw [← Array.getElem?_toList, ← isLater, List.append_assoc,
      List.getElem?_append_right (Nat.le_refl _), Nat.sub_self]
    rfl
  · rw [← isLater, List.append_assoc, List.take_left]

namespace Lowering

section Elements

variable {unit : IR.Module} {node index : Node} {name : Bytes} {routine : Routine}

/-- The address of an element, behind its index. -/
def addressing (routine : Routine) (name : Bytes) (index : Node) : Lower (Symbol × Operand) := do
  let place ← lowerIndex (operand index (lowerNode index routine))
  routine.storage name (some place)

theorem addressing_straight (routine : Routine) (name : Bytes) (index : Node) :
    Straight (addressing routine name index) :=
  .bind (operand_straight index routine).lowerIndex fun _ => .storage

/-- What an assignment does with the address of its element. -/
def assigning (routine : Routine) (name : Bytes) (value : Node) (found : Symbol × Operand) :
    Lower Unit := do
  let fitted ← fit name found.1.kind.native (← operand value (lowerNode value routine))
  build (IR.Build.store found.2 fitted)

theorem assigning_straight (routine : Routine) (name : Bytes) (value : Node)
    (found : Symbol × Operand) : Straight (assigning routine name value found) :=
  .bind (operand_straight value routine) fun _ => .bind .fit fun _ => .build .emit

theorem lowerElementAssignment_eq (routine : Routine) (name : Bytes) (index value : Node) :
    lowerElementAssignment routine name (operand index (lowerNode index routine))
      (operand value (lowerNode value routine)) =
        addressing routine name index >>= assigning routine name value := by
  rw [addressing, bind_assoc]
  rfl

/-- An access computes the address of its element first, and what follows is straight-line code. -/
theorem lowerNode_eq_addressing (isElement : node.element? = some (name, index))
    (routine : Routine) :
    ∃ next, (∀ found, Straight (next found)) ∧
      lowerNode node routine = addressing routine name index >>= next := by
  cases node with
  | arrayAccess position array place =>
    cases isElement
    refine ⟨fun found => some <$> build (IR.Build.load found.2),
      fun _ => .map (.build .load), ?_⟩
    rw [lowerNode, lowerElement, addressing, bind_assoc]
    simp only [map_bind]
  | arrayAssignment position array place value =>
    rw [Node.element?] at isElement
    split at isElement
    · cases isElement
    · rename_i present
      cases isElement
      refine ⟨fun found => statement (assigning routine name value found),
        fun _ => (assigning_straight ..).statement, ?_⟩
      rw [lowerNode, if_neg present, lowerElementAssignment_eq, statement, bind_assoc]
      rfl
  | input position target =>
    cases target with
    | arrayAccess _ array place =>
      cases isElement
      refine ⟨fun found => statement (lowerInput found.1 found.2),
        fun _ => Straight.lowerInput.statement, ?_⟩
      rw [lowerNode, addressing, statement, bind_assoc, bind_assoc]
      simp only [statement, bind_assoc]
    | _ => cases isElement
  | _ => cases isElement

/-- An access to an element at the moment when it is lowered: the operand that its index has been
lowered to, before anything is made from it; the array that its name means there; the code that
finds the distance of the index from the first one; and the address, with which the code ends that
is written up to there. -/
structure Element (moment : Moment unit node) (name : Bytes) (index : Node) where
  value : Operand
  evaluated : Workspace
  given : lowerNode index moment.routine moment.before = .ok (some value) evaluated
  settled : value.IsSettled
  integral : value.type.category = .integral
  symbol : Symbol
  first : Int64
  last : Int64
  slot : Slot
  means : evaluated.table.find? name = some symbol
  shape : symbol.shape = .array first last
  placed : symbol.Placed slot
  owner : symbol.owner = none ∨ symbol.owner = some moment.routine.function
  code : List IR.Instr
  place : Operand
  out : IR.Register
  reached : Workspace
  distances : IR.Distances first value code place
  addressed : addressing moment.routine name index moment.before = .ok (symbol, .reg out) reached
  ends : reached.builder.EndsIn (code ++ [.elementAddress out (.slot slot) place])
  grows : reached.builder.unit.Grows unit

theorem Moment.element (moment : Moment unit node)
    (isElement : node.element? = some (name, index)) : Nonempty (Element moment name index) := by
  obtain ⟨next, straight, isNode⟩ := lowerNode_eq_addressing isElement moment.routine
  obtain ⟨id, site, holds⟩ := IR.Builder.exists_holds moment.placed
  have lowered := moment.lowered
  rw [isNode] at lowered
  obtain ⟨found, reached, addressed, rest⟩ := (bind_eq_ok _ _ _ _ _).mp lowered
  obtain ⟨between, written⟩ := addressing_straight _ _ _ addressed holds
  obtain ⟨later, writtenToo⟩ := straight found rest written.holds
  have grows := writtenToo.builder.unit.trans moment.grows
  -- The index, its category and what it is widened to.
  obtain ⟨widened, middle, indexed, uses⟩ := (bind_eq_ok _ _ _ _ _).mp addressed
  rw [lowerIndex, within_eq_ok, bind_eq_ok] at indexed
  obtain ⟨value, evaluated, isOperand, indexed⟩ := indexed
  obtain ⟨_, _, expected, resized⟩ := (bind_eq_ok _ _ _ _ _).mp indexed
  obtain ⟨integral, rfl⟩ := (expectCategory_eq_ok _ _ _ _ _ _).mp expected
  obtain ⟨_, kept, settled⟩ := moment.kept.carried
    (.operand (lowerNode_records index moment.routine moment.outermost)) isOperand
  obtain ⟨_, keptToo, isWidened⟩ := kept.carried (.build (resize_widened settled integral)) resized
  have given := ((operand_eq_ok _ _ _ _ _).mp isOperand).2
  obtain ⟨_, rfl⟩ := (build_eq_ok _ _ _ _).mp resized
  -- The array, and the address of its element.
  have used := keptToo.uses name (some widened)
  rw [uses] at used
  cases used with
  | whole found listed placed reachable isWhole => cases isWhole
  | @element symbol slot first last _ means listed placed reachable isPlace shape =>
    cases isPlace
    obtain ⟨code, out, place, distances, isOut, ends⟩ := elementOf_endsIn isWidened slot first
    rw [isOut] at addressed
    exact ⟨⟨value, evaluated, given, settled, integral, symbol, first, last, slot, means, shape,
      placed, reachable, code, place, out, _, distances, addressed, ends, grows⟩⟩

variable {moment : Moment unit node} {frame : Machine.Frame} {id : Nat} {site : IR.Site}
  {block : IR.Block}

namespace Element

/-- In every block that grows from the one with the address, it stands behind its distance. -/
theorem access (element : Element moment name index)
    (holds : element.reached.builder.Holds id site) (grows : site.current.Grows block) :
    ∃ place, site.current.code.size = place + 1 ∧
      block.code[place]? =
        some (.elementAddress element.out (.slot element.slot) element.place) ∧
      IR.Access moment.routine.function (block.code.toList.take place) (.slot element.slot)
        element.place element.symbol element.first element.last element.value := by
  obtain ⟨place, size, there, behind⟩ := grows.suffix
    (element.ends.2 _ holds.currentBlock)
  exact ⟨place, size, there, element.owner, ⟨_, element.placed.bound, rfl⟩, element.shape,
    element.settled, element.integral, element.code, element.distances, behind⟩

/-- Where a frame computes the address. -/
theorem next (element : Element moment name index) (ends : element.reached.builder.EndsAt frame) :
    frame.next unit =
        .instruction (.elementAddress element.out (.slot element.slot) element.place) ∧
      IR.Access moment.routine.function (frame.executed unit) (.slot element.slot) element.place
        element.symbol element.first element.last element.value := by
  have isThere : element.reached.builder.currentBlock?.isSome = true := by
    rw [← Option.isSome_map, ends.index]
    rfl
  obtain ⟨id, site, holds⟩ := IR.Builder.exists_holds isThere
  obtain ⟨function, block, found, here, _, grows⟩ := ends.located holds element.grows
  obtain ⟨place, size, there, access⟩ := element.access holds grows
  obtain rfl : frame.index = place := Nat.succ.inj ((ends.size holds).symm.trans size)
  rw [← Machine.Frame.executed_eq found here] at access
  exact ⟨Machine.Frame.next_of_code found here there, access⟩

/-- Where a frame stores the value of an assignment, the address stands before it in the block. -/
theorem stores {position : Int} {value : Node}
    {moment : Moment unit (.arrayAssignment position name index value)}
    (element : Element moment name index)
    (isElement : Node.element? (.arrayAssignment position name index value) = some (name, index))
    (ends : moment.EndsAt frame) :
    ∃ stored function block place, unit.functions[frame.function]? = some function ∧
      function.blocks[frame.block]? = some block ∧
      block.code[frame.index]? = some (.store (.reg element.out) stored) ∧ place < frame.index ∧
      block.code[place]? =
        some (.elementAddress element.out (.slot element.slot) element.place) ∧
      IR.Access moment.routine.function (block.code.toList.take place) (.slot element.slot)
        element.place element.symbol element.first element.last element.value := by
  obtain ⟨id, start, holds⟩ := IR.Builder.exists_holds moment.placed
  obtain ⟨site, written⟩ := addressing_straight _ _ _ element.addressed holds
  have present : ¬index.isMissing = true := by
    intro missing
    rw [Node.element?, if_pos missing] at isElement
    cases isElement
  have lowered := moment.lowered
  rw [lowerNode, if_neg present, statement_eq_ok, lowerElementAssignment_eq,
    bind_of_ok element.addressed] at lowered
  obtain ⟨later, writtenToo⟩ := assigning_straight _ _ _ _ lowered.1 written.holds
  obtain ⟨given, _, _, fits⟩ := (bind_eq_ok _ _ _ _ _).mp lowered.1
  obtain ⟨stored, last, _, stores⟩ := (bind_eq_ok _ _ _ _ _).mp fits
  obtain ⟨_, isAfter⟩ := (build_eq_ok _ _ _ _).mp stores
  -- The block is the same one, since nothing ends it in between.
  have going : site.terminated = false := by
    rw [← written.holds.terminated]
    exact element.ends.1
  obtain ⟨function, block, found, here, _, grows⟩ := ends.located writtenToo.holds moment.grows
  have same : later.block = site.block := writtenToo.straight.block_eq going
  obtain ⟨_, isLater, early⟩ :=
    writtenToo.straight.confined.grows.blocks _ _ site.current_found
  have isCurrent := later.current_found
  rw [same, isLater] at isCurrent
  cases isCurrent
  obtain ⟨place, size, there, access⟩ := element.access written.holds (early.trans grows)
  have isLast : [] ++ [.store (.reg element.out) stored] <:+ later.current.code.toList := by
    have ending : moment.after.builder.EndsIn ([] ++ [.store (.reg element.out) stored]) :=
      isAfter ▸ IR.Build.emit_endsIn (.inl rfl) _
    exact ending.2 _ writtenToo.holds.currentBlock
  obtain ⟨final, sizeToo, isStore, _⟩ := grows.suffix isLast
  obtain rfl : frame.index = final := Nat.succ.inj ((ends.size writtenToo.holds).symm.trans sizeToo)
  refine ⟨stored, function, block, place, found, here, isStore, ?_, there, access⟩
  obtain ⟨_, sizeThen, thereThen, _⟩ := element.access written.holds early
  have inside := (Array.getElem?_eq_some_iff.mp thereThen).1
  have notLater : place ≤ frame.index := by omega
  refine Nat.lt_of_le_of_ne notLater fun equal => ?_
  rw [equal, isStore] at there
  cases there

open Machine in
/-- The store of an assignment goes to the element of its index. -/
theorem assigns {position : Int} {value : Node} {ledger : List Symbol} {state : State}
    {moment : Moment unit (.arrayAssignment position name index value)}
    (element : Element moment name index)
    (isElement : Node.element? (.arrayAssignment position name index value) = some (name, index))
    (tidy : unit.Tidy ledger) (retains : state.Retains unit)
    (contained : state.Contained unit unit.globals.size []) (ends : moment.EndsAt state.frame) :
    ∃ stored, state.frame.next unit = .instruction (.store (.reg element.out) stored) ∧
      state.AssignsBy unit element.out stored element.symbol.kind.native element.first element.last
        element.value := by
  obtain ⟨stored, function, block, place, found, here, there, early, addressed, access⟩ :=
    element.stores isElement ends
  have isNext := Frame.next_of_code found here there
  obtain ⟨_, _, marks, frame⟩ := retains.frame
  cases found.symm.trans frame.found
  cases here.symm.trans frame.here
  obtain ⟨_, frameContained⟩ := contained.frame
  cases found.symm.trans frameContained.found
  have direct := (tidy _ function found _ block here).stores _ element.out stored there
  exact ⟨stored, isNext, State.Retains.assignsBy frame frameContained isNext there direct early
    addressed element.placed access⟩

end Element

end Elements

open Machine in
/-- Elements of arrays are addressed exactly. Whatever a compiled program is called with, each time
that it computes the address of an element it does so for an array that the program declares; the
cell is the one that belongs to the index, or the run fails because the index is out of range. Each
time that it stores something at such an address it changes the cell that belongs to the index, and
no other one.

Every access that the program writes has its place in the module. There the array is the one that
its name means, and the index is what its index has been lowered to, be it a number or a character,
before it is brought to 32 bits. -/
theorem compile_addressesElements {name : Bytes} {program : Program} {unit : IR.Module}
    (compiled : compile name program = .ok unit) :
    (∃ ledger, Stored ledger unit ∧
      Fulfils 0 1 unit.functions.size (Node.planAll true program) ledger ∧
      ∀ (limits : Limits) (callee : Nat) (state : State),
        Progress.Reachable unit limits callee (.running state) →
          (∀ out array index,
            state.frame.next unit = .instruction (.elementAddress out array index) →
              state.Selects ledger unit out array index) ∧
          ∀ register stored, state.frame.next unit = .instruction (.store (.reg register) stored) →
            state.Assigns ledger unit register stored) ∧
    ∀ (node : Node) (array : Bytes) (index : Node), node.element? = some (array, index) →
      (∀ outer ∈ program, node.Stands outer → Nonempty (Moment unit node)) ∧
      ∀ moment : Moment unit node, ∃ element : Element moment array index,
        ∀ (limits : Limits) (callee : Nat) (state : State),
          Progress.Reachable unit limits callee (.running state) →
            (element.reached.builder.EndsAt state.frame →
              state.frame.next unit =
                .instruction (.elementAddress element.out (.slot element.slot) element.place) ∧
              state.SelectsBy unit element.out (.slot element.slot) element.first element.last
                element.value) ∧
            ∀ position value, node = .arrayAssignment position array index value →
              moment.EndsAt state.frame → ∃ stored,
                state.frame.next unit = .instruction (.store (.reg element.out) stored) ∧
                state.AssignsBy unit element.out stored element.symbol.kind.native element.first
                  element.last element.value := by
  have guarded := compile_guarded compiled
  obtain ⟨ledger, stores, tidy, fulfils⟩ := compile_stored compiled
  refine ⟨⟨ledger, stores, fulfils, fun limits callee state reachable => ?_⟩,
    fun node array index isElement => ⟨fun outer member stands =>
      compile_places compiled member stands, fun moment => ?_⟩⟩
  · have contained := reachable.contained guarded
    have retains := reachable.retains guarded state rfl
    exact ⟨fun _ _ _ => retains.selects stores tidy contained,
      fun _ _ => retains.assigns stores tidy contained⟩
  · obtain ⟨element⟩ := moment.element isElement
    refine ⟨element, fun limits callee state reachable => ?_⟩
    have contained := reachable.contained guarded
    have retains := reachable.retains guarded state rfl
    refine ⟨fun ends => ?_, fun position value isAssignment ends => ?_⟩
    · obtain ⟨isNext, access⟩ := element.next ends
      exact ⟨isNext, retains.selectsBy contained isNext element.placed access⟩
    · subst isAssignment
      obtain ⟨stored, isNext, assigns⟩ := element.assigns isElement tidy retains contained ends
      exact ⟨stored, isNext, assigns⟩

/-- An array with the two lowest indices that there are, and an assignment to its second element. -/
def lowestIndices : Program :=
  [.arrayDeclaration 1 "lowest" "INTEGER" (-2147483648) (-2147483647),
    .arrayAssignment 2 "lowest" (.integer 2 (-2147483647)) (.integer 2 7)]

/-- A character, which is a negative number, and an array with an element for it. -/
def letterDeclarations : Program :=
  [.declaration 1 "letter" "CHAR", .arrayDeclaration 2 "row" "INTEGER" (-57) (-56),
    .assignment 3 "letter" (.char 3 200)]

/-- An assignment to the element of the character. -/
def letterAssignment : Node :=
  .arrayAssignment 4 "row" (.identifier 4 "letter") (.integer 4 7)

section Runs

open Machine

theorem result_of_run {Result : Type} {step : Lower Result} {before after : Workspace}
    {result : Result} {check : Result → Bool} (checks : (step.run' before).any check = true)
    (ran : step before = .ok result after) : check result = true := by
  simpa only [EStateM.run', EStateM.run, ran, Option.any_some] using checks

/-- The run of the first program comes to its store. -/
theorem lowestIndices_run :
    ∃ unit state, compile "lowest" lowestIndices = .ok unit ∧
      Progress.Reachable unit {} 0 (.running state) ∧
      state.frame.next unit = .instruction (.store (.reg ⟨1, .ptr .i32⟩) (.int .i32 7)) := by
  have checks : ((compile "lowest" lowestIndices).toOption.any fun unit =>
      (Machine.new? unit []).any fun machine =>
      (((start unit machine 0 []).advance unit {} 2).state?).any fun state =>
        state.frame.next unit =
          .instruction (.store (.reg ⟨1, .ptr .i32⟩) (.int .i32 7))) = true := by
    decide +kernel
  obtain ⟨unit, compiled, checks⟩ := compile_any checks
  obtain ⟨machine, made, checks⟩ := (Option.any_eq_true ..).mp checks
  obtain ⟨state, isState, checks⟩ := (Option.any_eq_true ..).mp checks
  refine ⟨unit, state, compiled, ?_, of_decide_eq_true checks⟩
  rw [← Progress.eq_running isState]
  exact .call (.made made) (by simp) 2

/-- The run of the second program comes to the store of its assignment, with the address of the
second cell in the register. -/
theorem letterAssignment_run :
    ∃ (unit : IR.Module) (moment : Moment unit letterAssignment) (state : State),
      compile "letters" (letterDeclarations ++ [letterAssignment]) = .ok unit ∧
      Progress.Reachable unit {} 0 (.running state) ∧ moment.EndsAt state.frame ∧
      state.frame.next unit = .instruction (.store (.reg ⟨3, .ptr .i32⟩) (.int .i32 7)) ∧
      state.frame.registers[3]? = some (.address 1 1) ∧
      ∀ element : Element moment "row" (.identifier 4 "letter"), element.value.type = .i8 ∧
        element.symbol.shape = .array (-57) (-56) ∧ element.symbol.kind = .integer := by
  have checks : ((compile "letters" (letterDeclarations ++ [letterAssignment])).toOption.any
      fun unit => (Machine.new? unit []).any fun machine =>
      (((start unit machine 0 []).advance unit {} 5).state?).any fun state =>
        state.frame.next unit =
            .instruction (.store (.reg ⟨3, .ptr .i32⟩) (.int .i32 7)) ∧
          state.frame.registers[3]? = some (.address 1 1) ∧
          writtenUpTo "letters" (letterDeclarations ++ [letterAssignment]) =
            some (⟨state.frame.function, state.frame.block⟩, state.frame.index + 1)) = true := by
    decide +kernel
  have isLetter : ((lowerNodes letterDeclarations mainRoutine >>= fun _ =>
      lowerNode (.identifier 4 "letter") mainRoutine).run' (programStart "letters")).any
        (fun value => value.map Operand.type = some .i8) = true := by
    decide +kernel
  have isRow : ((lowerNodes letterDeclarations mainRoutine >>= fun _ =>
      addressing mainRoutine "row" (.identifier 4 "letter")).run' (programStart "letters")).any
        (fun found => found.1.shape = .array (-57) (-56) ∧ found.1.kind = .integer) = true := by
    decide +kernel
  obtain ⟨unit, compiled, checks⟩ := compile_any checks
  obtain ⟨machine, made, checks⟩ := (Option.any_eq_true ..).mp checks
  obtain ⟨state, isState, checks⟩ := (Option.any_eq_true ..).mp checks
  obtain ⟨isNext, held, upTo⟩ := of_decide_eq_true checks
  obtain ⟨moment, isMain, before, endsAt⟩ := compile_moment compiled
  refine ⟨unit, moment, state, compiled, ?_, endsAt state.frame upTo, isNext, held,
    fun element => ?_⟩
  · rw [← Progress.eq_running isState]
    exact .call (.made made) (by simp) 5
  · have given := element.given
    have addressed := element.addressed
    rw [isMain] at given addressed
    have typed := result_of_run isLetter ((bind_of_ok before _).trans given)
    have shaped := result_of_run isRow ((bind_of_ok before _).trans addressed)
    exact ⟨Option.some.inj (of_decide_eq_true typed), of_decide_eq_true shaped⟩

end Runs

open Machine in
theorem compile_addressesElements_lowest_and_letter :
    (∃ unit state later, compile "lowest" lowestIndices = .ok unit ∧
      Progress.Reachable unit {} 0 (.running state) ∧
      Bounds (-2147483648) (-2147483647) ∧ state.step unit {} = .running later ∧
      ∃ memory offset, later.machine.cell? memory offset = some (.int 7) ∧
        ∀ other place, (other, place) ≠ (memory, offset) →
          later.machine.cell? other place = state.machine.cell? other place) ∧
    ∃ (unit : IR.Module) (moment : Moment unit letterAssignment)
      (element : Element moment "row" (.identifier 4 "letter")) (state later : State),
      compile "letters" (letterDeclarations ++ [letterAssignment]) = .ok unit ∧
      Progress.Reachable unit {} 0 (.running state) ∧ element.value.type = .i8 ∧
      View.value ⟨unit, state.machine, state.frame⟩ element.value = .ok (.int (-56)) ∧
      state.step unit {} = .running later ∧ later.machine.cell? 1 1 = some (.int 7) := by
  constructor
  · obtain ⟨unit, state, compiled, reachable, isNext⟩ := lowestIndices_run
    obtain ⟨⟨ledger, _, fulfils, accesses⟩, _⟩ := compile_addressesElements compiled
    have plan : Node.planAll true lowestIndices =
        [.variable "lowest" "INTEGER" (.array (-2147483648) (-2147483647)) true] := rfl
    rw [plan] at fulfils
    obtain ⟨symbol, listed, first, last, _, _, _, _, _, access, assigned⟩ :=
      (accesses {} 0 state reachable).2 _ _ isNext
    cases fulfils with
    | @«variable» _ _ _ _ _ _ _ _ _ declared meets rest =>
      cases rest
      rw [List.mem_singleton.mp listed] at access assigned
      cases meets.shape.symm.trans access.shape
      have bounds : Bounds (-2147483648) (-2147483647) :=
        ⟨by decide, by decide, by decide, by decide⟩
      obtain ⟨number, memory, held, later, _, _, _, _, isHeld, stepped, changed, unchanged⟩ :=
        assigned bounds
      cases isHeld
      have integer : some Kind.integer = some declared.kind := meets.kind
      rw [← Option.some.inj integer] at changed
      exact ⟨unit, state, later, compiled, reachable, bounds, stepped, memory, _, changed,
        unchanged⟩
  · obtain ⟨unit, moment, state, compiled, reachable, ends, isNext, held, facts⟩ :=
      letterAssignment_run
    obtain ⟨_, elements⟩ := compile_addressesElements compiled
    obtain ⟨element, accesses⟩ := (elements letterAssignment _ _ rfl).2 moment
    obtain ⟨type, shape, kind⟩ := facts element
    obtain ⟨stored, isStore, assigned⟩ := (accesses {} 0 state reachable).2 _ _ rfl ends
    injection isNext.symm.trans isStore with isStore
    injection isStore with isOut isStored
    injection isOut with isOut
    obtain ⟨isFirst, isLast⟩ := Shape.array.inj (element.shape.symm.trans shape)
    subst isStored
    rw [isFirst, isLast, kind, ← isOut] at assigned
    obtain ⟨number, memory, given, later, read, _, _, isHeld, isGiven, stepped, changed, _⟩ :=
      assigned ⟨by decide, by decide, by decide, by decide⟩
    cases isGiven
    -- The register tells the cell, and the cell the index.
    injection held.symm.trans isHeld with isAddress
    injection isAddress with isMemory isOffset
    subst isMemory
    rw [← isOffset] at changed
    have first : (-57 : Int64).toInt = -57 := rfl
    have isNumber : number = -56 := by
      refine Int64.toInt_inj.mp ?_
      show number.toInt = -56
      omega
    exact ⟨unit, moment, element, state, later, compiled, reachable, type, isNumber ▸ read,
      stepped, changed⟩

end Lowering

end Pascaline
