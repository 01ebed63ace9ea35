/-
Growth of a module under construction. Building only ever adds: what stands somewhere in a module
keeps its place, a block that has its terminator is never touched again, and a step of building
reaches no function but the one at the insertion point.

This is what makes it possible to speak of the code of a statement at the moment it is lowered.
Whatever follows, the finished module holds that code at the same place.
-/

import Mathlib
import Pascaline.IR.Builder

namespace Pascaline.IR

/-! ### Items that keep their places -/

/-- Every item of the first array stands at the same place in the second. -/
def Kept {Item : Type} (old new : Array Item) : Prop :=
  ∀ (place : Nat) (item : Item), old[place]? = some item → new[place]? = some item

namespace Kept

variable {Item : Type} {first second third : Array Item}

theorem refl (items : Array Item) : Kept items items := fun _ _ found => found

theorem trans (early : Kept first second) (late : Kept second third) : Kept first third :=
  fun place item found => late place item (early place item found)

/-- The basic step: a new item goes behind all others. -/
theorem push (items : Array Item) (item : Item) : Kept items (items.push item) := by
  intro place other found
  have inside : place < items.size := (Array.getElem?_eq_some_iff.mp found).1
  rw [Array.getElem?_push, if_neg (Nat.ne_of_lt inside)]
  exact found

/-- No item is lost, so numbers given out before remain valid. -/
theorem size_le (kept : Kept first second) : first.size ≤ second.size := by
  by_cases empty : first.size = 0
  · omega
  · have inside : first.size - 1 < first.size := by omega
    have found := kept _ _ (Array.getElem?_eq_getElem inside)
    have bound := (Array.getElem?_eq_some_iff.mp found).1
    omega

end Kept

/-! ### Blocks, functions and modules -/

/-- A later version of a block: it may have more code, unless it has its terminator. -/
structure Block.Grows (old new : Block) : Prop where
  code : Kept old.code new.code
  ended : old.terminated = true → new = old

namespace Block.Grows

variable {first second third : Block}

theorem refl (block : Block) : block.Grows block := ⟨.refl _, fun _ => rfl⟩

theorem trans (early : first.Grows second) (late : second.Grows third) : first.Grows third := by
  refine ⟨early.code.trans late.code, fun ended => ?_⟩
  have same := early.ended ended
  rw [late.ended (by rw [same]; exact ended), same]

end Block.Grows

/-- A later version of a function: everything that is there stays, and its blocks grow. -/
structure Function.Grows (old new : Function) : Prop where
  name : new.name = old.name
  signature : new.signature = old.signature
  params : new.params = old.params
  external : new.external = old.external
  blocks : ∀ (place : Nat) (block : Block), old.blocks[place]? = some block →
    ∃ grown, new.blocks[place]? = some grown ∧ block.Grows grown
  locals : Kept old.locals new.locals
  registers : old.registers ≤ new.registers

namespace Function.Grows

variable {first second third : Function}

theorem refl (function : Function) : function.Grows function :=
  ⟨rfl, rfl, rfl, rfl, fun _ block found => ⟨block, found, .refl _⟩, .refl _, Nat.le_refl _⟩

theorem trans (early : first.Grows second) (late : second.Grows third) : first.Grows third := by
  refine ⟨late.name.trans early.name, late.signature.trans early.signature,
    late.params.trans early.params, late.external.trans early.external, fun place block found => ?_,
    early.locals.trans late.locals, Nat.le_trans early.registers late.registers⟩
  obtain ⟨middle, middleFound, grows⟩ := early.blocks place block found
  obtain ⟨last, lastFound, growsMore⟩ := late.blocks place middle middleFound
  exact ⟨last, lastFound, grows.trans growsMore⟩

theorem size_le (grows : first.Grows second) : first.blocks.size ≤ second.blocks.size := by
  by_cases empty : first.blocks.size = 0
  · omega
  · have inside : first.blocks.size - 1 < first.blocks.size := by omega
    obtain ⟨_, found, _⟩ := grows.blocks _ _ (Array.getElem?_eq_getElem inside)
    have bound := (Array.getElem?_eq_some_iff.mp found).1
    omega

/-- A block that has its terminator is the same in every later version. -/
theorem ended (grows : first.Grows second) {place : Nat} {block : Block}
    (found : first.blocks[place]? = some block) (terminated : block.terminated = true) :
    second.blocks[place]? = some block := by
  obtain ⟨grown, grownFound, growsMore⟩ := grows.blocks place block found
  rw [grownFound, growsMore.ended terminated]

/-- A function with one block changed into a later version of it. -/
theorem modifyBlock (function : Function) (place : Nat) (change : Block → Block)
    (grows : ∀ block, function.blocks[place]? = some block → block.Grows (change block)) :
    function.Grows { function with blocks := function.blocks.modify place change } := by
  refine ⟨rfl, rfl, rfl, rfl, fun other block found => ?_, .refl _, Nat.le_refl _⟩
  by_cases same : place = other
  · subst same
    exact ⟨change block, by simp [Array.getElem?_modify, found], grows block found⟩
  · exact ⟨block, by simp [Array.getElem?_modify, same, found], .refl _⟩

theorem addBlock (function : Function) (stem : Bytes) : function.Grows (function.addBlock stem) :=
  ⟨rfl, rfl, rfl, rfl, fun place block found => ⟨block, Kept.push _ _ place block found, .refl _⟩,
    .refl _, Nat.le_refl _⟩

end Function.Grows

/-- A later version of a module. -/
structure Module.Grows (old new : Module) : Prop where
  data : Kept old.data new.data
  globals : Kept old.globals new.globals
  functions : ∀ (place : Nat) (function : Function), old.functions[place]? = some function →
    ∃ grown, new.functions[place]? = some grown ∧ function.Grows grown

namespace Module.Grows

variable {first second third : Module}

theorem refl (unit : Module) : unit.Grows unit :=
  ⟨.refl _, .refl _, fun _ function found => ⟨function, found, .refl _⟩⟩

theorem trans (early : first.Grows second) (late : second.Grows third) : first.Grows third := by
  refine ⟨early.data.trans late.data, early.globals.trans late.globals,
    fun place function found => ?_⟩
  obtain ⟨middle, middleFound, grows⟩ := early.functions place function found
  obtain ⟨last, lastFound, growsMore⟩ := late.functions place middle middleFound
  exact ⟨last, lastFound, grows.trans growsMore⟩

/-- A module with more functions, in which those that were there are the same. -/
theorem ofKept (data : Kept first.data second.data) (globals : Kept first.globals second.globals)
    (functions : Kept first.functions second.functions) : first.Grows second :=
  ⟨data, globals, fun place function found => ⟨function, functions place function found, .refl _⟩⟩

end Module.Grows

/-- A module with one more function that is served from outside. -/
def Module.withServed (unit : Module) (name : Bytes) (signature : Signature) : Module :=
  let function : Function := { name := freshName unit.names name, signature, external := true }
  { unit with functions := unit.functions.push function }

/-! ### Builders -/

/-- What a step of building inside one function leads to: the module has grown, the insertion
point is still in the same function, and no other function has changed. -/
structure Builder.Extends (old new : Builder) : Prop where
  unit : old.unit.Grows new.unit
  function : new.cursor.map Cursor.function = old.cursor.map Cursor.function
  others : ∀ (place : Nat) (function : Function), old.unit.functions[place]? = some function →
    old.cursor.map Cursor.function ≠ some place → new.unit.functions[place]? = some function

namespace Builder

theorem Extends.refl (builder : Builder) : builder.Extends builder :=
  ⟨.refl _, rfl, fun _ _ found _ => found⟩

theorem Extends.trans {first second third : Builder} (early : first.Extends second)
    (late : second.Extends third) : first.Extends third := by
  refine ⟨early.unit.trans late.unit, late.function.trans early.function,
    fun place function found other => ?_⟩
  exact late.others place function (early.others place function found other)
    (by rw [early.function]; exact other)

/-- A builder whose module has the same functions and variables as before, up to the contents of
functions. -/
structure SameMembers (old new : Builder) : Prop where
  functions : new.unit.functions.size = old.unit.functions.size
  globals : new.unit.globals = old.unit.globals

theorem SameMembers.refl (builder : Builder) : builder.SameMembers builder := ⟨rfl, rfl⟩

/-- Data and variables of the module are not part of any function. -/
theorem sameMembers_modifyFunction (builder : Builder) (id : Nat) (change : Function → Function) :
    builder.SameMembers (builder.modifyFunction id change) :=
  ⟨Array.size_modify, rfl⟩

theorem sameMembers_modifyCurrentFunction (builder : Builder) (change : Function → Function) :
    builder.SameMembers (builder.modifyCurrentFunction change) := by
  unfold modifyCurrentFunction
  split
  · exact .refl builder
  · exact sameMembers_modifyFunction _ _ _

theorem sameMembers_modifyCurrentBlock (builder : Builder) (change : Block → Block) :
    builder.SameMembers (builder.modifyCurrentBlock change) := by
  unfold modifyCurrentBlock
  split
  · exact .refl builder
  · exact sameMembers_modifyFunction _ _ _

end Builder

namespace Build

variable {builder : Builder} {name : Bytes}

/-- Steps that leave the functions and the insertion point alone. -/
theorem extends_withUnit (builder : Builder) (unit : Module)
    (data : Kept builder.unit.data unit.data) (globals : Kept builder.unit.globals unit.globals)
    (functions : Kept builder.unit.functions unit.functions) :
    builder.Extends { builder with unit } :=
  ⟨.ofKept data globals functions, rfl,
    fun place function found _ => functions place function found⟩

theorem declareFunction_of_some {id : Nat} (found : builder.unit.findFunction? name = some id)
    (signature : Signature) : declareFunction name signature builder = (id, builder) := by
  simp only [declareFunction, modifyGet, MonadStateOf.modifyGet, StateT.modifyGet, found]
  rfl

theorem declareFunction_of_none (missing : builder.unit.findFunction? name = none)
    (signature : Signature) :
    declareFunction name signature builder = (builder.unit.functions.size,
      { builder with unit := builder.unit.withServed name signature }) := by
  simp only [declareFunction, modifyGet, MonadStateOf.modifyGet, StateT.modifyGet, missing]
  rfl

/-- Either the function is there and nothing changes, or it is added at the end. -/
theorem declareFunction_extends (name : Bytes) (signature : Signature) (builder : Builder) :
    builder.Extends (declareFunction name signature builder).2 := by
  cases found : builder.unit.findFunction? name with
  | some _ =>
    rw [declareFunction_of_some found]
    exact .refl builder
  | none =>
    rw [declareFunction_of_none found]
    exact extends_withUnit builder _ (.refl _) (.refl _) (.push _ _)

theorem newBlock_of_none (missing : builder.currentFunction? = none) (stem : Bytes) :
    newBlock stem builder = (0, builder) := by
  simp only [newBlock, modifyGet, MonadStateOf.modifyGet, StateT.modifyGet, missing]
  rfl

theorem newBlock_of_some {function : Function} (found : builder.currentFunction? = some function)
    (stem : Bytes) :
    newBlock stem builder = (function.blocks.size,
      builder.modifyCurrentFunction fun function => function.addBlock stem) := by
  simp only [newBlock, modifyGet, MonadStateOf.modifyGet, StateT.modifyGet, found]
  rfl

/-- After a block with its terminator has been left, the current block has none. -/
theorem terminated_leaveTerminated (builder : Builder) :
    (leaveTerminated builder).2.terminated = false := by
  cases ended : builder.terminated with
  | false =>
    have same : (leaveTerminated builder).2 = builder := by
      show ((if builder.terminated = true then _ else _ : Build PUnit) builder).2 = builder
      rw [ended]
      rfl
    rw [same, ended]
  | true =>
    have left : (leaveTerminated builder).2 =
        (moveTo ((newBlock "dead" builder).1) (newBlock "dead" builder).2).2 := by
      show ((if builder.terminated = true then _ else _ : Build PUnit) builder).2 = _
      rw [ended]
      rfl
    rw [left]
    obtain ⟨unit, position⟩ := builder
    cases position with
    | none => simp [Builder.terminated, Builder.currentBlock?] at ended
    | some cursor =>
      cases found : unit.functions[cursor.function]? with
      | none => simp [Builder.terminated, Builder.currentBlock?, Builder.function?, found] at ended
      | some function =>
        have created : newBlock "dead" ⟨unit, some cursor⟩ = (function.blocks.size,
            Builder.modifyFunction ⟨unit, some cursor⟩ cursor.function
              fun function => function.addBlock "dead") := by
          have current : Builder.currentFunction? ⟨unit, some cursor⟩ = some function := by
            simp [Builder.currentFunction?, Builder.function?, found]
          rw [newBlock_of_some current]
          simp [Builder.modifyCurrentFunction]
        rw [created]
        simp [moveTo, modify, modifyGet, MonadStateOf.modifyGet, StateT.modifyGet, pure,
          Builder.terminated, Builder.currentBlock?, Builder.function?, Builder.modifyFunction,
          Array.getElem?_modify, found, Function.addBlock, Function.nextBlock, Block.terminated]

end Build

end Pascaline.IR
