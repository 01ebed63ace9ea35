/-
Well-formed modules. Every operand stands for something that is there and was there before it is
used, the types of operands agree, and every register is written by exactly one instruction.

What is asked of the code of a function is asked of each block on its own, so it can be asked of a
function that is still being written, and it stays true while the module grows.
-/

import Mathlib
import Pascaline.IR.Text
import Pascaline.Proofs.Site

namespace Pascaline

/-! ### Types of operands -/

/-- The types of arguments that a function takes: one for each parameter, and behind them any if
the function is variadic. -/
def Signature.Accepts (signature : Signature) (types : List Ty) : Prop :=
  if signature.variadic then signature.params <+: types else types = signature.params

/-- The type of the value that a call yields, if it yields one. -/
def Signature.result? (signature : Signature) : Option Ty :=
  if signature.hasResult then some signature.result else none

namespace IR

/-- The operations that apply to operands of a type. -/
def BinaryOp.Takes : BinaryOp → Ty → Prop
  | .int _, type => type.category = .integral
  | .float _, type => type.category = .floating
  | .and, type | .or, type | .xor, type => type = .i1
  | .unnamed _, _ => False

/-- The comparisons that apply to operands of a type. Booleans and addresses are not ordered. -/
def Predicate.Takes : Predicate → Ty → Prop
  | .signed .eq, type | .signed .ne, type =>
    type.category = .integral ∨ type.category = .logical ∨ type.category = .pointer
  | .signed _, type => type.category = .integral
  | .unordered _, type => type.category = .floating
  | .unnamed _, _ => False

/-- The conversions from one type to another. -/
def Cast.Takes : Cast → Ty → Ty → Prop
  | .trunc, .int source, .int target => target.bits < source.bits
  | .sext, .int source, .int target | .zext, .int source, .int target => source.bits < target.bits
  | _, _, _ => False

namespace Instr

/-- The register that an instruction writes. -/
def out? : Instr → Option Register
  | .alloca _ | .store _ _ => none
  | .load out _ | .elementAddress out _ _ | .binary out _ _ _ | .compare out _ _ _
  | .convert out _ _ => some out
  | .call out _ _ => out

/-- The operands that an instruction reads. The variable that is reserved counts as one. -/
def operands : Instr → List Operand
  | .alloca slot => [.slot slot]
  | .load _ address => [address]
  | .store address value => [address, value]
  | .elementAddress _ base index => [base, index]
  | .binary _ _ left right | .compare _ _ left right => [left, right]
  | .convert _ _ operand => [operand]
  | .call _ _ args => args

/-- The types in an instruction agree. -/
def Typed (unit : Module) : Instr → Prop
  | .alloca slot => slot.storage = .stack
  | .load out address => address.type = .ptr out.type
  | .store address value => address.type = .ptr value.type
  | .elementAddress out base index =>
    ∃ element length, base.type = .ptr (.array element length) ∧ out.type = .ptr element ∧
      index.type = .i32
  | .binary out op left right =>
    left.type = right.type ∧ out.type = left.type ∧ op.Takes left.type
  | .compare out predicate left right =>
    left.type = right.type ∧ out.type = .i1 ∧ predicate.Takes left.type
  | .convert out cast operand => cast.Takes operand.type out.type
  | .call out callee args =>
    ∃ function, unit.functions[callee]? = some function ∧
      function.signature.Accepts (args.map Operand.type) ∧
      out.map Register.type = function.signature.result?

end Instr

namespace Terminator

def operands : Terminator → List Operand
  | .branchIf condition _ _ => [condition]
  | .ret (some value) => [value]
  | .branch _ | .ret none | .unreachable => []

/-- A condition is a boolean, and a returned value has the type of the result. -/
def Typed (function : Function) : Terminator → Prop
  | .branch _ | .unreachable => True
  | .branchIf condition _ _ => condition.type = .i1
  | .ret value => value.map Operand.type = function.signature.result?

end Terminator

/-! ### Operands that stand for something -/

/-- A slot of the function itself or of the module, with the type that is recorded there. -/
def Slot.Resolves (unit : Module) (function : Function) (slot : Slot) : Prop :=
  match slot.storage with
  | .stack => (function.locals[slot.id]?).map Local.type = some slot.type
  | .global => (unit.globals[slot.id]?).map Variable.type = some slot.type
  | .param =>
    slot.id < function.params.length ∧ function.signature.params[slot.id]? = some slot.type

/-- An operand that stands for something, after some registers have been written. Functions are
never operands. -/
def Operand.Resolves (unit : Module) (function : Function) (written : List Register) :
    Operand → Prop
  | .int _ _ | .float _ | .null | .zeros _ => True
  | .data id => id < unit.data.size
  | .slot place => place.Resolves unit function
  | .reg register => register ∈ written
  | .function _ _ => False

/-- The registers that some instructions write. -/
def writtenBy (code : List Instr) : List Register := code.filterMap Instr.out?

/-- An instruction behind others that have written some registers. -/
structure Instr.Sound (unit : Module) (function : Function) (written : List Register)
    (instr : Instr) : Prop where
  resolves : ∀ operand ∈ instr.operands, operand.Resolves unit function written
  typed : instr.Typed unit

/-- The end of a block in which some registers have been written. -/
structure Terminator.Sound (unit : Module) (function : Function) (written : List Register)
    (terminator : Terminator) : Prop where
  resolves : ∀ operand ∈ terminator.operands, operand.Resolves unit function written
  typed : terminator.Typed function
  targets : ∀ target ∈ terminator.targets, target < function.blocks.size

/-- A block in which every instruction is right where it stands. -/
structure Block.Sound (unit : Module) (function : Function) (block : Block) : Prop where
  code : ∀ (index : Nat) (instr : Instr), block.code[index]? = some instr →
    instr.Sound unit function (writtenBy (block.code.toList.take index))
  ending : ∀ terminator, block.terminator = some terminator →
    terminator.Sound unit function (writtenBy block.code.toList)

/-- The registers that a function writes, once for each instruction that does. -/
def Function.definitions (function : Function) : List Register :=
  function.blocks.toList.flatMap fun block => writtenBy block.code.toList

/-- Every block of a function is right as far as it goes. -/
def Function.Coded (unit : Module) (function : Function) : Prop :=
  ∀ (place : Nat) (block : Block), function.blocks[place]? = some block →
    block.Sound unit function

/-- A function, maybe unfinished, that is right as far as it goes. -/
structure Function.Sound (unit : Module) (function : Function) : Prop where
  params : function.params.length = function.signature.params.length
  coded : function.Coded unit
  registers : (function.definitions.map Register.id).Perm (List.range function.registers)

/-- A finished function: it has an entry, and every block has its terminator. -/
structure Function.WellFormed (unit : Module) (function : Function) : Prop where
  sound : function.Sound unit
  entry : 0 < function.blocks.size
  ended : ∀ (place : Nat) (block : Block), function.blocks[place]? = some block →
    block.terminated = true

/-- A module whose functions are all finished, except those that are served from outside. -/
def Module.WellFormed (unit : Module) : Prop :=
  ∀ (place : Nat) (function : Function), unit.functions[place]? = some function →
    function.external = false → function.WellFormed unit

/-! ### Modules that can be written down -/

/-- Whether the name behind a slot is there. -/
def Slot.isNamed (unit : Module) (function : Function) (slot : Slot) : Bool :=
  match slot.storage with
  | .stack => slot.id < function.locals.size
  | .global => slot.id < unit.globals.size
  | .param => slot.id < function.params.length

/-- Whether the text of an operand can be told. -/
def Operand.isNamed (unit : Module) (function : Function) : Operand → Bool
  | .data id => id < unit.data.size
  | .slot place => place.isNamed unit function
  | .function id _ => id < unit.functions.size
  | .int _ _ | .float _ | .null | .zeros _ | .reg _ => true

def Instr.isNamed (unit : Module) (function : Function) (instr : Instr) : Bool :=
  instr.operands.all (Operand.isNamed unit function) &&
    match instr with
    | .call _ callee _ => callee < unit.functions.size
    | _ => true

def Terminator.isNamed (unit : Module) (function : Function) (terminator : Terminator) : Bool :=
  terminator.operands.all (Operand.isNamed unit function) &&
    terminator.targets.all fun target => target < function.blocks.size

def Block.isNamed (unit : Module) (function : Function) (block : Block) : Bool :=
  block.code.toList.all (Instr.isNamed unit function) &&
    block.terminator.all (Terminator.isNamed unit function)

/-- Whether the text of a module can be told: everything that it calls by name has one. -/
def Module.isPrintable (unit : Module) : Bool :=
  unit.functions.toList.all fun function =>
    function.external || function.blocks.toList.all (Block.isNamed unit function)

section Printable

variable {unit : Module} {function : Function} {written : List Register}

theorem Slot.Resolves.isNamed {slot : Slot} (resolves : slot.Resolves unit function) :
    slot.isNamed unit function = true := by
  unfold Slot.Resolves at resolves
  unfold Slot.isNamed
  split at resolves
  · obtain ⟨_, found, _⟩ := Option.map_eq_some_iff.mp resolves
    exact decide_eq_true (Array.getElem?_eq_some_iff.mp found).1
  · obtain ⟨_, found, _⟩ := Option.map_eq_some_iff.mp resolves
    exact decide_eq_true (Array.getElem?_eq_some_iff.mp found).1
  · exact decide_eq_true resolves.1

theorem Operand.Resolves.isNamed {operand : Operand}
    (resolves : operand.Resolves unit function written) :
    operand.isNamed unit function = true := by
  cases operand with
  | data id => exact decide_eq_true resolves
  | slot slot => exact Slot.Resolves.isNamed resolves
  | function id signature => exact resolves.elim
  | _ => rfl

theorem Instr.Sound.isNamed {instr : Instr} (sound : instr.Sound unit function written) :
    instr.isNamed unit function = true := by
  refine Bool.and_eq_true_iff.mpr ⟨List.all_eq_true.mpr fun operand member =>
    (sound.resolves operand member).isNamed, ?_⟩
  cases instr with
  | call out callee args =>
    obtain ⟨_, found, _⟩ := sound.typed
    exact decide_eq_true (Array.getElem?_eq_some_iff.mp found).1
  | _ => rfl

theorem Terminator.Sound.isNamed {terminator : Terminator}
    (sound : terminator.Sound unit function written) : terminator.isNamed unit function = true :=
  Bool.and_eq_true_iff.mpr ⟨List.all_eq_true.mpr fun operand member =>
    (sound.resolves operand member).isNamed,
    List.all_eq_true.mpr fun target member => decide_eq_true (sound.targets target member)⟩

theorem Block.Sound.isNamed {block : Block} (sound : block.Sound unit function) :
    block.isNamed unit function = true := by
  refine Bool.and_eq_true_iff.mpr ⟨List.all_eq_true.mpr fun instr member => ?_, ?_⟩
  · obtain ⟨index, found⟩ := List.getElem?_of_mem member
    exact (sound.code index instr (by rw [← found, Array.getElem?_toList])).isNamed
  · cases ended : block.terminator with
    | none => rfl
    | some terminator => exact (sound.ending terminator ended).isNamed

/-- The text of a well-formed module can be told. -/
theorem Module.WellFormed.isPrintable (wellFormed : unit.WellFormed) :
    unit.isPrintable = true := by
  refine List.all_eq_true.mpr fun function member => ?_
  obtain ⟨place, found⟩ := List.getElem?_of_mem member
  rw [Array.getElem?_toList] at found
  cases isExternal : function.external with
  | true => rfl
  | false =>
    refine List.all_eq_true.mpr fun block member => ?_
    obtain ⟨index, blockFound⟩ := List.getElem?_of_mem member
    rw [Array.getElem?_toList] at blockFound
    exact ((wellFormed place function found isExternal).sound.coded index block
      blockFound).isNamed

end Printable

/-! ### Growth -/

section Growth

variable {unit unit' : Module} {function function' : Function} {written written' : List Register}

theorem Slot.Resolves.mono {slot : Slot} (resolves : slot.Resolves unit function)
    (grows : unit.Grows unit') (functionGrows : function.Grows function') :
    slot.Resolves unit' function' := by
  unfold Slot.Resolves at resolves ⊢
  split at resolves
  · obtain ⟨«local», found, type⟩ := Option.map_eq_some_iff.mp resolves
    rw [functionGrows.locals _ _ found, Option.map_some, type]
  · obtain ⟨global, found, type⟩ := Option.map_eq_some_iff.mp resolves
    rw [grows.globals _ _ found, Option.map_some, type]
  · rw [functionGrows.params, functionGrows.signature]
    exact resolves

theorem Operand.Resolves.mono {operand : Operand}
    (resolves : operand.Resolves unit function written) (grows : unit.Grows unit')
    (functionGrows : function.Grows function') (more : written ⊆ written') :
    operand.Resolves unit' function' written' := by
  cases operand with
  | data id => exact Nat.lt_of_lt_of_le resolves grows.data.size_le
  | slot slot => exact Slot.Resolves.mono resolves grows functionGrows
  | reg register => exact more resolves
  | function id signature => exact resolves
  | int type value => trivial
  | float value => trivial
  | null => trivial
  | zeros type => trivial

theorem Instr.Typed.mono {instr : Instr} (typed : instr.Typed unit) (grows : unit.Grows unit') :
    instr.Typed unit' := by
  cases instr with
  | call out callee args =>
    obtain ⟨callee, found, accepts, result⟩ := typed
    obtain ⟨grown, grownFound, growsToo⟩ := grows.functions _ _ found
    refine ⟨grown, grownFound, ?_⟩
    rw [growsToo.signature]
    exact ⟨accepts, result⟩
  | _ => exact typed

theorem Instr.Sound.mono {instr : Instr} (sound : instr.Sound unit function written)
    (grows : unit.Grows unit') (functionGrows : function.Grows function')
    (more : written ⊆ written') : instr.Sound unit' function' written' :=
  ⟨fun operand member => (sound.resolves operand member).mono grows functionGrows more,
    sound.typed.mono grows⟩

theorem Terminator.Sound.mono {terminator : Terminator}
    (sound : terminator.Sound unit function written) (grows : unit.Grows unit')
    (functionGrows : function.Grows function') : terminator.Sound unit' function' written := by
  refine ⟨fun operand member =>
    (sound.resolves operand member).mono grows functionGrows (List.Subset.refl _), ?_,
    fun target member => Nat.lt_of_lt_of_le (sound.targets target member) functionGrows.size_le⟩
  have typed := sound.typed
  unfold Terminator.Typed at typed ⊢
  rw [functionGrows.signature]
  exact typed

theorem Block.Sound.mono {block : Block} (sound : block.Sound unit function)
    (grows : unit.Grows unit') (functionGrows : function.Grows function') :
    block.Sound unit' function' :=
  ⟨fun index instr found =>
    (sound.code index instr found).mono grows functionGrows (List.Subset.refl _),
    fun terminator ended => (sound.ending terminator ended).mono grows functionGrows⟩

/-- A function that stays the same while the module grows. -/
theorem Function.Sound.mono (sound : function.Sound unit) (grows : unit.Grows unit') :
    function.Sound unit' :=
  ⟨sound.params, fun place block found => (sound.coded place block found).mono grows (.refl _),
    sound.registers⟩

end Growth

/-! ### Building at a site -/

theorem writtenBy_append (first second : List Instr) :
    writtenBy (first ++ second) = writtenBy first ++ writtenBy second := by
  simp [writtenBy]

@[simp]
theorem Function.definitions_addBlock (function : Function) (stem : Bytes) :
    (function.addBlock stem).definitions = function.definitions := by
  simp [definitions, addBlock, nextBlock, writtenBy]

/-- Adding items to one list of many adds them to the whole, up to order. -/
theorem flatMap_modify_perm {Source Item : Type} (list : List Source) (place : Nat)
    (change : Source → Source) (items : Source → List Item) (added : List Item)
    (inside : place < list.length)
    (adds : ∀ source, list[place]? = some source → items (change source) = items source ++ added) :
    ((list.modify place change).flatMap items).Perm (list.flatMap items ++ added) := by
  induction list generalizing place with
  | nil => simp at inside
  | cons source rest step =>
    cases place with
    | zero =>
      simp only [List.modify_zero_cons, List.flatMap_cons, adds source rfl, List.append_assoc]
      exact List.Perm.append_left _ List.perm_append_comm
    | succ place =>
      simp only [List.modify_succ_cons, List.flatMap_cons, List.append_assoc]
      exact List.Perm.append_left _ (step place (by simpa using inside)
        fun source found => adds source (by simpa using found))

namespace Site

variable {unit : Module} {site : Site}

/-- The registers written so far in the current block. -/
def written (site : Site) : List Register := writtenBy site.current.code.toList

/-- An operand that can be used at a site. A register can only be used in its own block, so the
block must still be open. -/
structure Offers (unit : Module) (site : Site) (operand : Operand) : Prop where
  resolves : operand.Resolves unit site.function site.written
  going : ∀ register, operand = .reg register → site.terminated = false

theorem definitions_modifyBlock (site : Site) (change : Block → Block) (added : List Register)
    (adds : writtenBy (change site.current).code.toList =
      writtenBy site.current.code.toList ++ added) :
    (site.modifyBlock change).function.definitions.Perm (site.function.definitions ++ added) := by
  have perm := flatMap_modify_perm site.function.blocks.toList site.block change
    (fun block => writtenBy block.code.toList) added (by simpa using site.inside)
    fun source found => by
      rw [Array.getElem?_toList] at found
      rw [← current_eq found]
      exact adds
  unfold Function.definitions modifyBlock
  rw [Array.toList_modify]
  exact perm

theorem terminator_of_open (going : site.terminated = false) : site.current.terminator = none := by
  simpa [terminated, Block.terminated] using going

variable {operand : Operand} {instr : Register → Instr}

/-- What can be used at a site can be used where code is added. -/
theorem Offers.landing (offers : site.Offers unit operand) :
    operand.Resolves unit site.landing.function site.landing.written := by
  cases ended : site.terminated with
  | false =>
    rw [landing_of_open ended]
    exact offers.resolves
  | true =>
    have grows := (Confined.landing site).grows
    have resolves := offers.resolves
    cases operand with
    | reg register =>
      have going := offers.going register rfl
      rw [ended] at going
      cases going
    | slot slot => exact Slot.Resolves.mono resolves (.refl _) grows
    | _ => exact resolves

/-- An instruction adds the register that it writes. -/
theorem definitions_push (site : Site) (instr : Instr) :
    (site.push instr).function.definitions.Perm
      (site.function.definitions ++ instr.out?.toList) := by
  refine site.definitions_modifyBlock _ _ ?_
  cases out : instr.out? <;> simp [writtenBy, out]

theorem definitions_landing (site : Site) :
    site.landing.function.definitions = site.function.definitions := by
  cases ended : site.terminated with
  | true =>
    rw [landing_of_terminated ended]
    exact Function.definitions_addBlock _ _
  | false => rw [landing_of_open ended]

theorem landing_registers (site : Site) :
    site.landing.function.registers = site.function.registers := by
  cases ended : site.terminated with
  | true =>
    rw [landing_of_terminated ended]
    rfl
  | false => rw [landing_of_open ended]

theorem Offers.takeRegister (offers : site.Offers unit operand) :
    site.takeRegister.Offers unit operand := by
  refine ⟨?_, fun register same => ?_⟩
  · rw [written, takeRegister_current]
    exact offers.resolves.mono (.refl _) (Confined.takeRegister site).grows (List.Subset.refl _)
  · rw [takeRegister_terminated]
    exact offers.going register same

/-! ### Operands that stay usable -/

/-- What can be used at a site can still be used behind straight-line code. -/
theorem Offers.straight {unit' : Module} {later : Site} (offers : site.Offers unit operand)
    (straight : site.Straight later) (grows : unit.Grows unit') : later.Offers unit' operand := by
  have functionGrows := straight.confined.grows
  refine ⟨?_, fun register same => straight.open (offers.going register same)⟩
  have resolves := offers.resolves
  cases operand with
  | reg register =>
    have going := offers.going register rfl
    obtain ⟨grown, found, blockGrows⟩ := functionGrows.blocks _ _ site.current_found
    have current : later.current = grown := by
      refine current_eq ?_
      rw [straight.block_eq going]
      exact found
    obtain ⟨instr, member, out⟩ := List.mem_filterMap.mp resolves
    refine List.mem_filterMap.mpr ⟨instr, ?_, out⟩
    obtain ⟨index, instrFound⟩ := List.getElem?_of_mem member
    rw [Array.getElem?_toList] at instrFound
    rw [current]
    exact Array.mem_toList_iff.mpr
      (Array.mem_of_getElem? (blockGrows.code index instr instrFound))
  | data id => exact Nat.lt_of_lt_of_le resolves grows.data.size_le
  | slot slot => exact Slot.Resolves.mono resolves grows functionGrows
  | _ => exact resolves

/-- Adding blocks changes nothing at the current one. -/
theorem Offers.addBlocks (offers : site.Offers unit operand) (stems : Stems) :
    (site.addBlocks stems).Offers unit operand := by
  have grows := (Confined.addBlocks site stems).grows
  refine ⟨?_, fun register same => ?_⟩
  · rw [written, Site.addBlocks, addBlock_current, addBlock_current, addBlock_current]
    exact offers.resolves.mono (.refl _) grows (List.Subset.refl _)
  · rw [Site.addBlocks, addBlock_terminated, addBlock_terminated, addBlock_terminated]
    exact offers.going register same

/-- A register can be used behind the instruction that writes it. -/
theorem offers_define {type : Ty}
    (out : (instr (site.nextRegister type)).out? = some (site.nextRegister type)) :
    (site.define type instr).Offers unit (.reg (site.nextRegister type)) := by
  refine ⟨?_, fun _ _ => emit_terminated _ _⟩
  show _ ∈ writtenBy (site.takeRegister.landing.push _).current.code.toList
  rw [push_current, Array.toList_push, writtenBy_append]
  exact List.mem_append_right _ (by simp [writtenBy, out])

end Site

end IR

end Pascaline
