/-
Ledgers of storage. A ledger lists the variables that have been declared so far, each with the slot
that it has been given. It is right for a module if the variables of every owner, which is a
function or the module itself, are numbered from zero in the order of the ledger, and there is no
storage beside. So each variable has storage of its own, and no two variables share any.

Next to its ledger, the code of a module keeps to a few habits that types do not tell: what a
function returns is not read from a slot, and the address of an element is computed right behind its
index, from the bounds of an array in the ledger.
-/

import Pascaline.Proofs.Extension
import Pascaline.Proofs.Typing

namespace Pascaline

open IR (Build Builder Operand Slot Instr)

/-! ### Variables and their storage -/

/-- The number of a variable among those of an owner: a function, or none for the module. -/
def Symbol.numberIn (owner : Option Nat) (symbol : Symbol) : Option Nat :=
  if symbol.owner = owner then symbol.slot.map Slot.id else none

/-- The storage of a variable: its class, its function and its number there. -/
def Symbol.place? (symbol : Symbol) : Option (IR.Storage × Option Nat × Nat) :=
  symbol.slot.map fun slot => (slot.storage, symbol.owner, slot.id)

/-- A variable with a slot of its type, on the stack of its owner or in the module. -/
structure Symbol.Placed (symbol : Symbol) (slot : Slot) : Prop where
  isVariable : symbol.isRoutine = false
  bound : symbol.slot = some slot
  type : slot.type = symbol.nativeType
  storage : slot.storage = if symbol.owner = none then .global else .stack

/-- The number of variables that an owner has. -/
def IR.Module.room (unit : IR.Module) : Option Nat → Nat
  | none => unit.globals.size
  | some function => ((unit.functions[function]?).map fun function => function.locals.size).getD 0

/-- The ledger of a module. -/
structure Stored (ledger : List Symbol) (unit : IR.Module) : Prop where
  placed : ∀ symbol ∈ ledger, ∃ slot, symbol.Placed slot
  numbered : ∀ owner, ledger.filterMap (Symbol.numberIn owner) = List.range (unit.room owner)

namespace Stored

variable {ledger : List Symbol} {unit unit' : IR.Module}

theorem of_room (stored : Stored ledger unit) (same : ∀ owner, unit'.room owner = unit.room owner) :
    Stored ledger unit' :=
  ⟨stored.placed, fun owner => by rw [same, stored.numbered]⟩

/-- No two variables have the same storage. -/
theorem distinct (stored : Stored ledger unit) :
    ledger.Pairwise fun symbol other => symbol.place? ≠ other.place? := by
  have numbers (owner : Option Nat) : ledger.Pairwise fun symbol other => ∀ number,
      symbol.numberIn owner = some number → ∀ numberToo,
        other.numberIn owner = some numberToo → number ≠ numberToo := by
    rw [← List.pairwise_filterMap, stored.numbered]
    exact List.nodup_range
  rw [List.pairwise_iff_getElem]
  intro first second inFirst inSecond earlier same
  obtain ⟨slot, placed⟩ := stored.placed _ (List.getElem_mem inFirst)
  obtain ⟨slotToo, placedToo⟩ := stored.placed _ (List.getElem_mem inSecond)
  rw [Symbol.place?, Symbol.place?, placed.bound, placedToo.bound] at same
  injection same with same
  injection same with _ same
  injection same with sameOwner sameId
  refine List.pairwise_iff_getElem.mp (numbers ledger[first].owner) first second inFirst inSecond
    earlier slot.id ?_ slotToo.id ?_ sameId
  · rw [Symbol.numberIn, if_pos rfl, placed.bound, Option.map_some]
  · rw [Symbol.numberIn, if_pos sameOwner.symm, placedToo.bound, Option.map_some]

/-- One more variable, with the next number of its owner. -/
theorem append {symbol : Symbol} {slot : Slot} (stored : Stored ledger unit)
    (placed : symbol.Placed slot) (next : slot.id = unit.room symbol.owner)
    (more : unit'.room symbol.owner = unit.room symbol.owner + 1)
    (others : ∀ owner, owner ≠ symbol.owner → unit'.room owner = unit.room owner) :
    Stored (ledger ++ [symbol]) unit' := by
  refine ⟨fun other member => ?_, fun owner => ?_⟩
  · rcases List.mem_append.mp member with member | member
    · exact stored.placed other member
    · rw [List.mem_singleton.mp member]
      exact ⟨slot, placed⟩
  · rw [List.filterMap_append, stored.numbered]
    by_cases same : symbol.owner = owner
    · subst same
      have number : symbol.numberIn symbol.owner = some (unit.room symbol.owner) := by
        rw [Symbol.numberIn, if_pos rfl, placed.bound, Option.map_some, next]
      rw [more, List.range_succ, List.filterMap_cons_some number, List.filterMap_nil]
    · have noNumber : symbol.numberIn owner = none := if_neg same
      rw [List.filterMap_cons_none noNumber, List.filterMap_nil, List.append_nil,
        others owner (Ne.symm same)]

/-- One more function, which has no variables yet. -/
theorem addFunction {function : IR.Function} (stored : Stored ledger unit)
    (empty : function.locals = #[]) :
    Stored ledger { unit with functions := unit.functions.push function } := by
  refine stored.of_room fun owner => ?_
  cases owner with
  | none => rfl
  | some place =>
    show (((unit.functions.push function)[place]?).map _).getD 0 = _
    rw [Array.getElem?_push]
    split
    · rename_i last
      subst last
      simp [IR.Module.room, empty]
    · rfl

end Stored

/-! ### Habits of code -/

namespace IR

/-- An operand that is no storage: a constant or a register. -/
def Operand.IsDirect : Operand → Prop
  | .int _ _ | .float _ | .null | .data _ | .reg _ => True
  | .slot _ | .zeros _ | .function _ _ => False

/-- An operand that is no storage, and whose value, if it is an integer constant, is one of its
type. -/
def Operand.IsSettled : Operand → Prop
  | .int type value => (Ty.int type).IsScalar ∧ wrapToWidth type.bits value = value
  | .float _ | .null | .data _ | .reg _ => True
  | .slot _ | .zeros _ | .function _ _ => False

theorem Operand.IsSettled.direct {operand : Operand} (settled : operand.IsSettled) :
    operand.IsDirect := by
  cases operand with
  | slot | zeros | function => exact settled
  | _ => trivial

/-- The code that brings an index to 32 bits, and the operand that holds it then. -/
inductive Widens (value : Operand) : List Instr → Operand → Prop
  | same : Widens value [] value
  | constant {type : IntType} {number : Int64} (isConstant : value = .int type number) :
      Widens value [] (.int .i32 (wrapToWidth 32 number))
  | converted {cast : Cast} (known : cast = .trunc ∨ cast = .sext) (out : Register) :
      Widens value [.convert out cast value] (.reg out)

/-- The code that finds the distance of an index from the first one. -/
inductive Distances (first : Int64) (value : Operand) : List Instr → Operand → Prop
  | direct {code : List Instr} {index : Operand} (widens : Widens value code index)
      (zero : first = 0) : Distances first value code index
  | subtracted {code : List Instr} {index : Operand} (widens : Widens value code index)
      (nonzero : first ≠ 0) (out : Register) :
      Distances first value (code ++ [.binary out (.int .sub) index (.int .i32 first)]) (.reg out)

/-- An access of a function to an element of an array, for which some code has found the distance
of an index from the first one. The value holds that index. -/
structure Access (id : Nat) (before : List Instr) (base index : Operand) (symbol : Symbol)
    (first last : Int64) (value : Operand) : Prop where
  owner : symbol.owner = none ∨ symbol.owner = some id
  array : ∃ slot, symbol.slot = some slot ∧ base = .slot slot
  shape : symbol.shape = .array first last
  settled : value.IsSettled
  integral : value.type.category = .integral
  code : ∃ code, Distances first value code index ∧ code <:+ before

/-- A block of a function that keeps to the habits of lowered code. -/
structure Block.Tidy (ledger : List Symbol) (id : Nat) (block : Block) : Prop where
  accesses : ∀ (place : Nat) (out : Register) (base index : Operand),
    block.code[place]? = some (.elementAddress out base index) →
      ∃ symbol ∈ ledger, ∃ first last value,
        Access id (block.code.toList.take place) base index symbol first last value
  stores : ∀ (place : Nat) (register : Register) (value : Operand),
    block.code[place]? = some (.store (.reg register) value) → value.IsDirect
  returns : ∀ operand, block.terminator = some (.ret (some operand)) → operand.IsSettled

def Function.Tidy (ledger : List Symbol) (id : Nat) (function : Function) : Prop :=
  ∀ (place : Nat) (block : Block), function.blocks[place]? = some block → block.Tidy ledger id

def Module.Tidy (ledger : List Symbol) (unit : Module) : Prop :=
  ∀ (place : Nat) (function : Function), unit.functions[place]? = some function →
    function.Tidy ledger place

/-- An instruction that is tidy wherever it stands. -/
def Instr.IsTidy : Instr → Prop
  | .elementAddress .. => False
  | .store address value => ∀ register, address = .reg register → value.IsDirect
  | _ => True

/-- A terminator that is tidy. -/
def Terminator.IsTidy : Terminator → Prop
  | .ret (some operand) => operand.IsSettled
  | _ => True

section Tidy

variable {ledger : List Symbol} {id : Nat} {block : Block} {function : Function}

theorem Block.Tidy.append (tidy : block.Tidy ledger id) (more : List Symbol) :
    block.Tidy (ledger ++ more) id := by
  refine { tidy with accesses := fun place out base index there => ?_ }
  obtain ⟨symbol, member, rest⟩ := tidy.accesses place out base index there
  exact ⟨symbol, List.mem_append_left _ member, rest⟩

theorem Module.Tidy.append {unit : Module} (tidy : unit.Tidy ledger) (more : List Symbol) :
    unit.Tidy (ledger ++ more) :=
  fun place function found number block there =>
    (tidy place function found number block there).append more

theorem Module.Tidy.addFunction {unit : Module} (tidy : unit.Tidy ledger)
    (isTidy : function.Tidy ledger unit.functions.size) :
    Module.Tidy ledger { unit with functions := unit.functions.push function } := by
  intro place other found
  have found : (unit.functions.push function)[place]? = some other := found
  rw [Array.getElem?_push] at found
  split at found
  · rename_i last
    cases found
    rw [last]
    exact isTidy
  · exact tidy place other found

/-- A block without code. -/
theorem Block.tidy_empty (stem : Bytes) (copy : Nat) :
    Block.Tidy ledger id { stem, copy } :=
  ⟨by simp, by simp, nofun⟩

theorem Function.Tidy.addBlock (tidy : function.Tidy ledger id) (stem : Bytes) :
    (function.addBlock stem).Tidy ledger id := by
  intro place block found
  rw [Site.addBlock_found] at found
  split at found
  · cases found
    exact Block.tidy_empty _ _
  · exact tidy place block found

/-- Adding an instruction that is tidy behind the code of the block. -/
theorem Block.Tidy.push {instr : Instr} (tidy : block.Tidy ledger id)
    (accesses : ∀ out base index, instr = .elementAddress out base index →
      ∃ symbol ∈ ledger, ∃ first last value,
        Access id block.code.toList base index symbol first last value)
    (stores : ∀ register value, instr = .store (.reg register) value → value.IsDirect) :
    Block.Tidy ledger id { block with code := block.code.push instr } := by
  have found {place : Nat} {other : Instr} (there : (block.code.push instr)[place]? = some other) :
      (place = block.code.size ∧ other = instr) ∨
        (place < block.code.size ∧ block.code[place]? = some other) := by
    rw [Array.getElem?_push] at there
    split at there
    · rename_i last
      exact .inl ⟨last, (Option.some.inj there).symm⟩
    · exact .inr ⟨(Array.getElem?_eq_some_iff.mp there).1, there⟩
  refine ⟨fun place out base index there => ?_, fun place register value there => ?_, tidy.returns⟩
  · dsimp only
    rw [Array.toList_push]
    rcases found there with ⟨rfl, isInstr⟩ | ⟨inside, there⟩
    · rw [List.take_append_of_le_length (by simp), List.take_of_length_le (by simp)]
      exact accesses out base index isInstr.symm
    · rw [List.take_append_of_le_length (by simpa using Nat.le_of_lt inside)]
      exact tidy.accesses place out base index there
  · rcases found there with ⟨_, isInstr⟩ | ⟨_, there⟩
    · exact stores register value isInstr.symm
    · exact tidy.stores place register value there

theorem Block.Tidy.push_tidy {instr : Instr} (tidy : block.Tidy ledger id)
    (isTidy : instr.IsTidy) :
    Block.Tidy ledger id { block with code := block.code.push instr } := by
  refine tidy.push (fun out base index isInstr => ?_) fun register value isInstr => ?_
  · subst isInstr
    exact isTidy.elim
  · subst isInstr
    exact isTidy register rfl

theorem Block.Tidy.close {terminator : Terminator} (tidy : block.Tidy ledger id)
    (isTidy : terminator.IsTidy) :
    Block.Tidy ledger id { block with terminator := some terminator } := by
  refine { tidy with returns := fun operand ended => ?_ }
  cases ended
  exact isTidy

end Tidy

/-! ### Building -/

/-- A builder at work on a function, whose module has a ledger and keeps to the habits. -/
structure Builder.Upholds (ledger : List Symbol) (id : Nat) (builder : Builder) : Prop where
  stored : Stored ledger builder.unit
  tidy : builder.unit.Tidy ledger
  here : builder.cursor.map Cursor.function = some id
  inside : id < builder.unit.functions.size

/-- A step of building that adds no storage and keeps to the habits. -/
def Build.Upholding {Result : Type} (good : Builder → Result → Prop) (step : Build Result) : Prop :=
  ∀ ⦃ledger : List Symbol⦄ ⦃id : Nat⦄ ⦃builder : Builder⦄, builder.Upholds ledger id →
    (step builder).2.Upholds ledger id ∧
    builder.unit.functions.size ≤ (step builder).2.unit.functions.size ∧
    good (step builder).2 (step builder).1

namespace Builder.Upholds

variable {ledger : List Symbol} {id : Nat} {builder : Builder}

/-- Changing the current function, if the ledger is still right then. -/
theorem changeFunction {more : List Symbol} {change : Function → Function}
    (upholds : builder.Upholds ledger id)
    (stored : Stored more (builder.modifyCurrentFunction change).unit)
    (tidy : builder.unit.Tidy more)
    (changed : ∀ function, builder.currentFunction? = some function → function.Tidy more id →
      (change function).Tidy more id) :
    (builder.modifyCurrentFunction change).Upholds more id := by
  obtain ⟨cursor, isCursor, same⟩ := Option.map_eq_some_iff.mp upholds.here
  have modified : builder.modifyCurrentFunction change =
      builder.modifyFunction cursor.function change := by
    simp only [Builder.modifyCurrentFunction, isCursor]
  rw [modified] at stored ⊢
  refine ⟨stored, fun place function found => ?_, upholds.here, ?_⟩
  · have found : (builder.unit.functions.modify cursor.function change)[place]? = some function :=
      found
    rw [Array.getElem?_modify] at found
    split at found
    · rename_i isPlace
      obtain ⟨old, oldFound, rfl⟩ := Option.map_eq_some_iff.mp found
      rw [← isPlace, same]
      refine changed old ?_ (same ▸ isPlace ▸ tidy place old oldFound)
      simp [Builder.currentFunction?, Builder.function?, isCursor, isPlace, oldFound]
    · exact tidy place function found
  · simpa [Builder.modifyFunction] using upholds.inside

/-- Changing the current function without changing its stack variables. -/
theorem modifyCurrentFunction {change : Function → Function}
    (upholds : builder.Upholds ledger id)
    (locals : ∀ function, (change function).locals.size = function.locals.size)
    (changed : ∀ function, builder.currentFunction? = some function → function.Tidy ledger id →
      (change function).Tidy ledger id) :
    (builder.modifyCurrentFunction change).Upholds ledger id := by
  refine upholds.changeFunction (upholds.stored.of_room fun owner => ?_) upholds.tidy changed
  obtain ⟨cursor, isCursor, same⟩ := Option.map_eq_some_iff.mp upholds.here
  simp only [Builder.modifyCurrentFunction, isCursor]
  cases owner with
  | none => rfl
  | some place =>
    show (((builder.unit.functions.modify cursor.function change)[place]?).map _).getD 0 = _
    rw [Array.getElem?_modify]
    split
    · cases found : builder.unit.functions[place]? with
      | none => simp [IR.Module.room, found]
      | some function => simp [IR.Module.room, found, locals]
    · rfl

/-- Changing the current block. -/
theorem modifyCurrentBlock {change : Block → Block} (upholds : builder.Upholds ledger id)
    (changed : ∀ block, builder.currentBlock? = some block → block.Tidy ledger id →
      (change block).Tidy ledger id) :
    (builder.modifyCurrentBlock change).Upholds ledger id := by
  obtain ⟨cursor, isCursor, same⟩ := Option.map_eq_some_iff.mp upholds.here
  have modified : builder.modifyCurrentBlock change =
      builder.modifyCurrentFunction fun function =>
        { function with blocks := function.blocks.modify cursor.block change } := by
    simp only [Builder.modifyCurrentBlock, Builder.modifyCurrentFunction, isCursor]
  rw [modified]
  refine upholds.modifyCurrentFunction (fun _ => rfl) fun function found tidy place block there =>
    ?_
  have there : (function.blocks.modify cursor.block change)[place]? = some block := there
  rw [Array.getElem?_modify] at there
  split at there
  · rename_i isPlace
    obtain ⟨old, oldThere, rfl⟩ := Option.map_eq_some_iff.mp there
    refine changed old ?_ (tidy place old oldThere)
    simp only [Builder.currentFunction?, isCursor, Option.bind_eq_bind, Option.bind_some] at found
    simp [Builder.currentBlock?, isCursor, found, isPlace, oldThere]
  · exact tidy place block there

/-- One more function, which has no variables yet. -/
theorem addFunction {function : Function} (upholds : builder.Upholds ledger id)
    (empty : function.locals = #[])
    (tidy : function.Tidy ledger builder.unit.functions.size) :
    Builder.Upholds ledger id { builder with
      unit := { builder.unit with functions := builder.unit.functions.push function } } := by
  refine ⟨upholds.stored.addFunction empty, upholds.tidy.addFunction tidy, upholds.here, ?_⟩
  show id < (builder.unit.functions.push function).size
  rw [Array.size_push]
  exact Nat.lt_succ_of_lt upholds.inside

end Builder.Upholds

/-- A result of which nothing is asked. -/
def Unasked {Result : Type} (_ : Builder) (_ : Result) : Prop := True

/-- A result that is settled. -/
def Settling (_ : Builder) (operand : Operand) : Prop := operand.IsSettled

namespace Build

variable {Result Next : Type} {good : Builder → Result → Prop} {goodNext : Builder → Next → Prop}

theorem upholding_pure {result : Result} (isGood : ∀ builder, good builder result) :
    Upholding good (pure result) :=
  fun _ _ builder upholds => ⟨upholds, Nat.le_refl _, isGood builder⟩

theorem upholding_bind {step : Build Result} {next : Result → Build Next}
    (first : Upholding good step)
    (second : ∀ builder result, good builder result → Upholding goodNext (next result)) :
    Upholding goodNext (step >>= next) := by
  intro ledger id builder upholds
  obtain ⟨middle, fewer, isGood⟩ := first upholds
  obtain ⟨later, fewerToo, isGoodToo⟩ := second _ _ isGood middle
  exact ⟨later, fewer.trans fewerToo, isGoodToo⟩

theorem string_upholding (name bytes : Bytes) : Upholding Settling (string name bytes) :=
  fun _ _ _ upholds => ⟨⟨upholds.stored.of_room fun owner => by cases owner <;> rfl, upholds.tidy,
    upholds.here, upholds.inside⟩, Nat.le_refl _, trivial⟩

theorem declareFunction_upholding (name : Bytes) (signature : Signature) :
    Upholding Unasked (declareFunction name signature) := by
  intro ledger id builder upholds
  cases found : builder.unit.findFunction? name with
  | some other =>
    rw [declareFunction_of_some found]
    exact ⟨upholds, Nat.le_refl _, trivial⟩
  | none =>
    rw [declareFunction_of_none found]
    refine ⟨upholds.addFunction rfl (by simp [Function.Tidy]), ?_, trivial⟩
    show builder.unit.functions.size ≤ (builder.unit.functions.push _).size
    rw [Array.size_push]
    exact Nat.le_succ _

/-- The function that is defined becomes the one at work. -/
theorem defineFunction_upholds {ledger : List Symbol} {builder : Builder}
    (stored : Stored ledger builder.unit) (tidy : builder.unit.Tidy ledger) (name : Bytes)
    (signature : Signature) (params : List Bytes) :
    (defineFunction name signature params builder).2.Upholds ledger
      builder.unit.functions.size := by
  have empty : Function.Tidy ledger builder.unit.functions.size
      { name := freshName builder.unit.names name, signature, params } :=
    fun place block found => by simp at found
  refine ⟨stored.addFunction rfl, tidy.addFunction (empty.addBlock "entry"), rfl, ?_⟩
  show builder.unit.functions.size < (builder.unit.functions.push _).size
  rw [Array.size_push]
  exact Nat.lt_succ_self _

theorem moveTo_upholding (block : Nat) : Upholding Unasked (moveTo block) := by
  intro ledger id builder upholds
  refine ⟨⟨upholds.stored, upholds.tidy, ?_, upholds.inside⟩, Nat.le_refl _, trivial⟩
  show (builder.cursor.map _).map Cursor.function = some id
  rw [Option.map_map]
  exact upholds.here

theorem newBlock_upholding (stem : Bytes) : Upholding Unasked (newBlock stem) := by
  intro ledger id builder upholds
  cases found : builder.currentFunction? with
  | none =>
    rw [newBlock_of_none found]
    exact ⟨upholds, Nat.le_refl _, trivial⟩
  | some function =>
    rw [newBlock_of_some found]
    exact ⟨upholds.modifyCurrentFunction (fun _ => rfl) fun _ _ tidy => tidy.addBlock stem,
      (builder.sameMembers_modifyCurrentFunction _).functions.ge, trivial⟩

theorem get_upholding : Upholding Unasked (get : Build Builder) :=
  fun _ _ _ upholds => ⟨upholds, Nat.le_refl _, trivial⟩

theorem leaveTerminated_upholding : Upholding Unasked leaveTerminated := by
  have asks : Upholding Unasked terminated :=
    upholding_bind get_upholding fun _ _ _ => upholding_pure fun _ => trivial
  refine upholding_bind asks fun _ ended _ => ?_
  cases ended with
  | false => exact upholding_pure fun _ => trivial
  | true => exact upholding_bind (newBlock_upholding _) fun _ _ _ => moveTo_upholding _

theorem emit_upholding {instr : Instr} (isTidy : instr.IsTidy) : Upholding Unasked (emit instr) :=
  upholding_bind leaveTerminated_upholding fun _ _ _ _ _ builder upholds =>
    ⟨upholds.modifyCurrentBlock fun _ _ tidy => tidy.push_tidy isTidy,
      (builder.sameMembers_modifyCurrentBlock _).functions.ge, trivial⟩

theorem finish_upholding {terminator : Terminator} (isTidy : terminator.IsTidy) :
    Upholding Unasked (finish terminator) :=
  upholding_bind leaveTerminated_upholding fun _ _ _ _ _ builder upholds =>
    ⟨upholds.modifyCurrentBlock fun _ _ tidy => tidy.close isTidy,
      (builder.sameMembers_modifyCurrentBlock _).functions.ge, trivial⟩

theorem freshRegister_upholding (type : Ty) : Upholding Unasked (freshRegister type) :=
  fun _ _ builder upholds => ⟨upholds.modifyCurrentFunction (fun _ => rfl) fun _ _ tidy => tidy,
    (builder.sameMembers_modifyCurrentFunction _).functions.ge, trivial⟩

/-- An instruction that writes a fresh register. -/
theorem defining_upholding (type : Ty) {instr : Register → Instr} {value : Register → Result}
    (isTidy : ∀ out, (instr out).IsTidy) (isGood : ∀ builder out, good builder (value out)) :
    Upholding good (do
      let out ← freshRegister type
      emit (instr out)
      return value out) :=
  upholding_bind (freshRegister_upholding type) fun _ out _ =>
    upholding_bind (emit_upholding (isTidy out)) fun _ _ _ =>
      upholding_pure fun builder => isGood builder out

theorem load_upholding (address : Operand) : Upholding Settling (load address) :=
  defining_upholding _ (fun _ => trivial) fun _ _ => trivial

theorem binary_upholding (op : BinaryOp) (left right : Operand) :
    Upholding Settling (binary op left right) :=
  defining_upholding _ (fun _ => trivial) fun _ _ => trivial

theorem compare_upholding (predicate : Predicate) (left right : Operand) :
    Upholding Settling (compare predicate left right) :=
  defining_upholding _ (fun _ => trivial) fun _ _ => trivial

theorem convert_upholding (cast : Cast) (operand : Operand) (type : Ty) :
    Upholding Settling (convert cast operand type) :=
  defining_upholding _ (fun _ => trivial) fun _ _ => trivial

/-- The result of a call, if it has one, is settled. -/
theorem call_upholding (callee : Nat) (args : List Operand) :
    Upholding (fun _ made => ∀ value, made = some value → value.IsSettled) (call callee args) := by
  have without : Upholding (fun _ made => ∀ value, made = some value → value.IsSettled)
      (emit (.call none callee args) >>= fun _ => pure none : Build (Option Operand)) :=
    upholding_bind (emit_upholding (show Instr.IsTidy (.call none callee args) from trivial))
      fun _ _ _ => upholding_pure nofun
  refine upholding_bind get_upholding fun _ builder _ => ?_
  cases (builder.function? callee).map Function.signature with
  | none => exact without
  | some signature =>
    show Upholding _ (if signature.hasResult = true then _ else _ : Build (Option Operand))
    split
    · refine defining_upholding _ (fun _ => trivial) fun _ out value isValue => ?_
      cases isValue
      trivial
    · exact without

theorem store_upholding {address value : Operand}
    (isTidy : ∀ register, address = .reg register → value.IsDirect) :
    Upholding Unasked (store address value) :=
  emit_upholding (show Instr.IsTidy (.store address value) from isTidy)

end Build

/-! ### Addresses of elements -/

/-- The current block goes on, and its code ends with some instructions. -/
def Builder.EndsIn (builder : Builder) (code : List Instr) : Prop :=
  builder.terminated = false ∧
    ∀ block, builder.currentBlock? = some block → code <:+ block.code.toList

/-- An index that has just been brought to 32 bits from a value. -/
structure Widened (value : Operand) (builder : Builder) (index : Operand) : Prop where
  settled : value.IsSettled
  integral : value.type.category = .integral
  code : ∃ code, Widens value code index ∧ (code = [] ∨ builder.EndsIn code)

section Elements

variable {builder : Builder}

theorem Builder.currentBlock?_modifyCurrentBlock (builder : Builder) (change : Block → Block) :
    (builder.modifyCurrentBlock change).currentBlock? = builder.currentBlock?.map change := by
  obtain ⟨unit, position⟩ := builder
  cases position with
  | none => rfl
  | some cursor =>
    cases found : unit.functions[cursor.function]? with
    | none =>
      simp [Builder.modifyCurrentBlock, Builder.currentBlock?, Builder.modifyFunction,
        Builder.function?, Array.getElem?_modify, found]
    | some function =>
      simp [Builder.modifyCurrentBlock, Builder.currentBlock?, Builder.modifyFunction,
        Builder.function?, Array.getElem?_modify, found]

theorem Build.freshRegister_currentBlock? (type : Ty) (builder : Builder) :
    (freshRegister type builder).2.currentBlock? = builder.currentBlock? := by
  obtain ⟨unit, position⟩ := builder
  cases position with
  | none => rfl
  | some cursor =>
    show Builder.currentBlock? (Builder.modifyFunction ⟨unit, some cursor⟩ _ _) = _
    cases found : unit.functions[cursor.function]? with
    | none =>
      simp [Builder.currentBlock?, Builder.modifyFunction, Builder.function?,
        Array.getElem?_modify, found]
    | some function =>
      simp [Builder.currentBlock?, Builder.modifyFunction, Builder.function?,
        Array.getElem?_modify, found]

theorem Build.leaveTerminated_of_open (going : builder.terminated = false) :
    (leaveTerminated builder).2 = builder := by
  show ((if builder.terminated = true then _ else _ : Build PUnit) builder).2 = builder
  rw [going]
  rfl

/-- Where an instruction is added, the block ends with it and with what it ended with before. -/
theorem Build.emit_endsIn {code : List Instr} (ends : code = [] ∨ builder.EndsIn code)
    (instr : Instr) : (emit instr builder).2.EndsIn (code ++ [instr]) := by
  show Builder.EndsIn ((leaveTerminated builder).2.modifyCurrentBlock _) _
  have going := terminated_leaveTerminated builder
  refine ⟨?_, fun block found => ?_⟩
  · rw [Builder.terminated, Builder.currentBlock?_modifyCurrentBlock, Option.any_map]
    exact going
  · rw [Builder.currentBlock?_modifyCurrentBlock] at found
    obtain ⟨old, oldFound, rfl⟩ := Option.map_eq_some_iff.mp found
    show code ++ [instr] <:+ (old.code.push instr).toList
    rw [Array.toList_push]
    rcases ends with rfl | ⟨isOpen, ends⟩
    · exact List.suffix_append _ _
    · rw [leaveTerminated_of_open isOpen] at oldFound
      obtain ⟨front, isFront⟩ := ends old oldFound
      exact ⟨front, by rw [← isFront, List.append_assoc]⟩

theorem Builder.EndsIn.freshRegister {code : List Instr} (ends : code = [] ∨ builder.EndsIn code)
    (type : Ty) : code = [] ∨ (Build.freshRegister type builder).2.EndsIn code := by
  refine ends.imp_right fun ⟨going, ends⟩ => ⟨?_, ?_⟩
  · rw [Builder.terminated, Build.freshRegister_currentBlock?]
    exact going
  · rw [Build.freshRegister_currentBlock?]
    exact ends

theorem Build.elementAddress_endsIn {code : List Instr} (ends : code = [] ∨ builder.EndsIn code)
    (base index : Operand) :
    ∃ out, (elementAddress base index builder).1 = .reg out ∧
      (elementAddress base index builder).2.EndsIn (code ++ [.elementAddress out base index]) :=
  ⟨(freshRegister (.ptr base.type.pointee.element) builder).1, rfl,
    emit_endsIn (Builder.EndsIn.freshRegister ends (.ptr base.type.pointee.element)) _⟩

/-- The address of an element of an array in the ledger, right behind its index. -/
theorem Build.elementAddress_upholds {ledger : List Symbol} {id : Nat} {symbol : Symbol}
    {slot : Slot} {first last : Int64} {value index : Operand} {code : List Instr}
    (upholds : builder.Upholds ledger id) (listed : symbol ∈ ledger)
    (owner : symbol.owner = none ∨ symbol.owner = some id)
    (bound : symbol.slot = some slot) (shape : symbol.shape = .array first last)
    (settled : value.IsSettled) (integral : value.type.category = .integral)
    (distances : Distances first value code index) (ends : code = [] ∨ builder.EndsIn code) :
    (elementAddress (.slot slot) index builder).2.Upholds ledger id ∧
      builder.unit.functions.size ≤
        (elementAddress (.slot slot) index builder).2.unit.functions.size := by
  obtain ⟨taken, fewer, _⟩ :=
    freshRegister_upholding (.ptr (Operand.slot slot).type.pointee.element) upholds
  obtain ⟨left, fewerToo, _⟩ := leaveTerminated_upholding taken
  refine ⟨left.modifyCurrentBlock fun block found tidy => tidy.push ?_ nofun, ?_⟩
  · intro out base place isInstr
    cases isInstr
    refine ⟨symbol, listed, first, last, value, owner, ⟨slot, bound, rfl⟩, shape, settled, integral,
      code, distances, ?_⟩
    rcases Builder.EndsIn.freshRegister ends _ with rfl | ⟨going, ends⟩
    · exact List.nil_suffix
    · rw [leaveTerminated_of_open going] at found
      exact ends block found
  · exact (fewer.trans fewerToo).trans (Builder.sameMembers_modifyCurrentBlock _ _).functions.ge

end Elements

end IR

namespace Lowering

open IR.Build (upholding_pure upholding_bind)

/-- The address of an element of an array, from an index that has just been widened. -/
theorem elementOf_upholds {ledger : List Symbol} {id : Nat} {builder : Builder} {symbol : Symbol}
    {slot : Slot} {first last : Int64} {value index : Operand}
    (upholds : builder.Upholds ledger id) (listed : symbol ∈ ledger)
    (owner : symbol.owner = none ∨ symbol.owner = some id) (bound : symbol.slot = some slot)
    (shape : symbol.shape = .array first last) (widened : IR.Widened value builder index) :
    (elementOf slot first index builder).2.Upholds ledger id ∧
      builder.unit.functions.size ≤ (elementOf slot first index builder).2.unit.functions.size ∧
      ∃ register, (elementOf slot first index builder).1 = .reg register := by
  obtain ⟨settled, integral, code, widens, ends⟩ := widened
  unfold elementOf elementOffset
  split
  · rename_i zero
    obtain ⟨later, fewer⟩ := Build.elementAddress_upholds upholds listed owner bound shape
      settled integral (.direct widens zero) ends
    exact ⟨later, fewer, _, rfl⟩
  · rename_i nonzero
    obtain ⟨middle, fewer, _⟩ :=
      Build.binary_upholding (.int .sub) index (.int .i32 first) upholds
    obtain ⟨later, fewerToo⟩ := Build.elementAddress_upholds middle listed owner bound shape
      settled integral (.subtracted widens nonzero _)
      (.inr (Build.emit_endsIn (IR.Builder.EndsIn.freshRegister ends index.type) _))
    exact ⟨later, fewer.trans fewerToo, _, rfl⟩

/-- The block ends with the address then, right behind what has been made from the index. -/
theorem elementOf_endsIn {builder : Builder} {value index : Operand}
    (widened : IR.Widened value builder index) (slot : Slot) (first : Int64) :
    ∃ code out place, IR.Distances first value code place ∧
      (elementOf slot first index builder).1 = .reg out ∧
      (elementOf slot first index builder).2.EndsIn
        (code ++ [.elementAddress out (.slot slot) place]) := by
  obtain ⟨_, _, code, widens, ends⟩ := widened
  unfold elementOf elementOffset
  split
  · rename_i zero
    obtain ⟨out, isOut, addressed⟩ := Build.elementAddress_endsIn ends (.slot slot) index
    exact ⟨code, out, index, .direct widens zero, isOut, addressed⟩
  · rename_i nonzero
    have subtracted := Build.emit_endsIn (IR.Builder.EndsIn.freshRegister ends index.type)
      (.binary (Build.freshRegister index.type builder).1 (.int .sub) index (.int .i32 first))
    obtain ⟨out, isOut, addressed⟩ := Build.elementAddress_endsIn (.inr subtracted) (.slot slot)
      (.reg (Build.freshRegister index.type builder).1)
    exact ⟨_, out, _, .subtracted widens nonzero _, isOut, addressed⟩

/-! ### Conversions -/

theorem read_upholding {address : Operand}
    (noParam : ∀ slot, address = .slot slot → slot.storage ≠ .param) :
    (read address).Upholding IR.Settling := by
  unfold read
  cases address with
  | slot place =>
    dsimp only
    rw [if_neg (noParam place rfl)]
    exact Build.load_upholding _
  | _ => exact Build.load_upholding _

theorem resize_upholding {operand : Operand} (settled : operand.IsSettled) (target : IntType) :
    (resize operand target).Upholding fun _ made => made.IsDirect := by
  have convert (cast : IR.Cast) : (Build.convert cast operand (.int target)).Upholding
      fun _ made => made.IsDirect :=
    Build.defining_upholding _ (fun _ => trivial) fun _ _ => trivial
  unfold resize
  split
  · split
    · exact upholding_pure fun _ => settled.direct
    · split
      · exact upholding_pure fun _ => trivial
      · split <;> exact convert _
  · exact upholding_pure fun _ => settled.direct

theorem resize_widened {operand : Operand} (settled : operand.IsSettled)
    (integral : operand.type.category = .integral) :
    (resize operand .i32).Upholding (IR.Widened operand) := by
  have same : (pure operand : Build Operand).Upholding (IR.Widened operand) :=
    upholding_pure fun _ => ⟨settled, integral, [], .same, .inl rfl⟩
  have convert {cast : IR.Cast} (known : cast = .trunc ∨ cast = .sext) :
      (Build.convert cast operand (.int .i32)).Upholding (IR.Widened operand) := by
    intro ledger id builder upholds
    obtain ⟨later, fewer, _⟩ := Build.convert_upholding cast operand (.int .i32) upholds
    exact ⟨later, fewer, settled, integral, _, .converted known _,
      .inr (Build.emit_endsIn (.inl rfl) _)⟩
  unfold resize
  split
  · split
    · exact same
    · split
      · exact upholding_pure fun _ => ⟨settled, integral, [], .constant rfl, .inl rfl⟩
      · split
        · exact convert (.inl rfl)
        · exact convert (.inr rfl)
  · exact same

theorem promote_upholding (operand : Operand) : (promote operand).Upholding IR.Unasked := by
  unfold promote
  split
  · split
    · exact upholding_pure fun _ => trivial
    · split
      · exact upholding_pure fun _ => trivial
      · exact Build.defining_upholding _ (fun _ => trivial) fun _ _ => trivial
  · exact upholding_pure fun _ => trivial

end Lowering

end Pascaline
