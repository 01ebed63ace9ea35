/-
Building sites. A site is a function under construction together with the block at whose end code
is added. Every step of building that stays inside a function is a plain operation on its site,
and this file says which.

Two relations between sites matter later. Straight-line steps add code to the current block, or to
a fresh one when the current block is finished; they never end a block. Any other step is at least
confined: it leaves the finished part of the function and all blocks that wait for their code
alone.
-/

import Pascaline.Proofs.Growth
import Pascaline.Proofs.Numerals

namespace Pascaline.IR

/-- The stems of the three blocks of a construct, which do not end in digits. -/
structure Stems where
  first : Bytes
  second : Bytes
  third : Bytes
  whole : first.trunk = first ∧ second.trunk = second ∧ third.trunk = third

/-- The stems and numbers of the blocks of a function. -/
def Function.marks (function : Function) : List (Bytes × Nat) :=
  function.blocks.toList.map fun block => (block.stem, block.copy)

/-- A function under construction and the block that is being written. -/
structure Site where
  function : Function
  block : Nat
  inside : block < function.blocks.size

namespace Site

/-- The block that is being written. -/
def current (site : Site) : Block :=
  have := site.inside
  site.function.blocks[site.block]

theorem current_found (site : Site) :
    site.function.blocks[site.block]? = some site.current :=
  Array.getElem?_eq_getElem site.inside

variable {site later : Site} {block : Block} {place : Nat}

theorem current_eq (found : site.function.blocks[site.block]? = some block) :
    site.current = block :=
  Option.some.inj (site.current_found.symm.trans found)

/-- Whether the current block has its terminator. -/
def terminated (site : Site) : Bool := site.current.terminated

/-! ### Operations -/

/-- The site in another block, if there is such a block. -/
def moveTo (site : Site) (block : Nat) : Site :=
  if inside : block < site.function.blocks.size then ⟨site.function, block, inside⟩ else site

theorem inside_addBlock {function : Function} {block : Nat} (stem : Bytes)
    (inside : block < function.blocks.size) : block < (function.addBlock stem).blocks.size := by
  simp only [Function.addBlock, Array.size_push]
  omega

/-- The site with one more block in its function. -/
def addBlock (site : Site) (stem : Bytes) : Site :=
  ⟨site.function.addBlock stem, site.block, inside_addBlock stem site.inside⟩

/-- The site in a new block. -/
def enterNew (site : Site) (stem : Bytes) : Site :=
  ⟨site.function.addBlock stem, site.function.blocks.size, by simp [Function.addBlock]⟩

/-- The site with its current block changed. -/
def modifyBlock (site : Site) (change : Block → Block) : Site :=
  ⟨{ site.function with blocks := site.function.blocks.modify site.block change }, site.block, by
    simpa using site.inside⟩

/-- Where code goes to: the current block, or a fresh one if that is finished. -/
def landing (site : Site) : Site := if site.terminated then site.enterNew "dead" else site

/-- The site with an instruction added. -/
def push (site : Site) (instr : Instr) : Site :=
  site.modifyBlock fun block => { block with code := block.code.push instr }

/-- The site with its block ended. -/
def close (site : Site) (terminator : Terminator) : Site :=
  site.modifyBlock fun block => { block with terminator := some terminator }

def emit (site : Site) (instr : Instr) : Site := site.landing.push instr

def finish (site : Site) (terminator : Terminator) : Site := site.landing.close terminator

/-- The site with its block ended, unless it has ended already. -/
def endWith (site : Site) (terminator : Terminator) : Site :=
  if site.terminated then site else site.close terminator

/-- The site with its block ended by a branch, unless it has ended already. -/
def branchTo (site : Site) (target : Nat) : Site := site.endWith (.branch target)

/-- The site with three more blocks. -/
def addBlocks (site : Site) (stems : Stems) : Site :=
  ((site.addBlock stems.first).addBlock stems.second).addBlock stems.third

/-- A way out of a block: it is ended, or it is left for another one unless it has ended. -/
inductive Way where
  | finish (terminator : Terminator)
  | leave (target : Nat)

/-- The terminator of a block that is left. -/
def Way.terminator : Way → Terminator
  | .finish terminator => terminator
  | .leave target => .branch target

/-- The site with its block left. -/
def exit (site : Site) : Way → Site
  | .finish terminator => site.finish terminator
  | .leave target => site.branchTo target

/-- The site in another block, after its own has been left. -/
def go (site : Site) (way : Way) (block : Nat) : Site := (site.exit way).moveTo block

/-- The site in the first of three more blocks. -/
def fork (site : Site) (stems : Stems) (terminator : Terminator) : Site :=
  (site.addBlocks stems).go (.finish terminator) site.function.blocks.size

/-- The site with one more register taken. -/
def takeRegister (site : Site) : Site :=
  ⟨{ site.function with registers := site.function.registers + 1 }, site.block, site.inside⟩

/-- The site with one more stack variable. -/
def addLocal (site : Site) (name : Bytes) (type : Ty) : Site :=
  ⟨{ site.function with locals := site.function.locals.push { name, type } }, site.block,
    site.inside⟩

/-- The next stack variable. -/
def nextSlot (site : Site) (type : Ty) : Slot := ⟨site.function.locals.size, .stack, type⟩

/-- The site with a stack variable that is reserved. -/
def reserve (site : Site) (name : Bytes) (type : Ty) : Site :=
  (site.addLocal name type).emit (.alloca (site.nextSlot type))

/-- The next register. -/
def nextRegister (site : Site) (type : Ty) : Register := ⟨site.function.registers, type⟩

/-- The site with an instruction that writes the next register. -/
def define (site : Site) (type : Ty) (instr : Register → Instr) : Site :=
  site.takeRegister.emit (instr (site.nextRegister type))

/-- The start of a function: one empty block. -/
def entry (name : Bytes) (signature : Signature) (params : List Bytes) : Site :=
  ⟨Function.addBlock { name, signature, params } "entry", 0, by simp [Function.addBlock]⟩

/-! ### What the operations do to blocks -/

/-- Only the place of insertion changes, whether or not there is such a block. -/
@[simp]
theorem moveTo_function (site : Site) (block : Nat) :
    (site.moveTo block).function = site.function := by
  unfold moveTo
  split <;> rfl

theorem moveTo_block (site : Site) {block : Nat} (inside : block < site.function.blocks.size) :
    (site.moveTo block).block = block := by
  simp [moveTo, inside]

/-- The block is found first, so that the fallback of `moveTo` plays no part. -/
theorem moveTo_current (site : Site) (found : site.function.blocks[place]? = some block) :
    (site.moveTo place).current = block := by
  have inside := (Array.getElem?_eq_some_iff.mp found).1
  refine current_eq ?_
  rw [moveTo_function, site.moveTo_block inside]
  exact found

@[simp]
theorem modifyBlock_current (site : Site) (change : Block → Block) :
    (site.modifyBlock change).current = change site.current :=
  current_eq (by simp [modifyBlock, Array.getElem?_modify, site.current_found])

@[simp]
theorem push_current (site : Site) (instr : Instr) :
    (site.push instr).current =
      { site.current with code := site.current.code.push instr } :=
  site.modifyBlock_current _

@[simp]
theorem close_current (site : Site) (terminator : Terminator) :
    (site.close terminator).current = { site.current with terminator := some terminator } :=
  site.modifyBlock_current _

@[simp]
theorem enterNew_current (site : Site) (stem : Bytes) :
    (site.enterNew stem).current = site.function.nextBlock stem :=
  current_eq (by simp [enterNew, Function.addBlock])

/-- A new block stands behind all others, so no other block changes its number. -/
theorem addBlock_found (function : Function) (stem : Bytes) (place : Nat) :
    (function.addBlock stem).blocks[place]? =
      if place = function.blocks.size then some (function.nextBlock stem)
      else function.blocks[place]? := by
  simp [Function.addBlock, Array.getElem?_push]

@[simp]
theorem addBlock_current (site : Site) (stem : Bytes) :
    (site.addBlock stem).current = site.current := by
  refine current_eq ?_
  show (site.function.addBlock stem).blocks[site.block]? = _
  rw [addBlock_found, if_neg (Nat.ne_of_lt site.inside), site.current_found]

@[simp]
theorem takeRegister_current (site : Site) : site.takeRegister.current = site.current :=
  current_eq site.current_found

@[simp]
theorem addLocal_current (site : Site) (name : Bytes) (type : Ty) :
    (site.addLocal name type).current = site.current :=
  current_eq site.current_found

/-- Blocks other than the current one are the frame of every change. -/
theorem modifyBlock_found_of_ne (site : Site) (change : Block → Block)
    (other : place ≠ site.block) :
    (site.modifyBlock change).function.blocks[place]? = site.function.blocks[place]? := by
  simp [modifyBlock, Array.getElem?_modify, Ne.symm other]

theorem landing_of_terminated (ended : site.terminated = true) :
    site.landing = site.enterNew "dead" := if_pos ended

theorem landing_of_open (going : site.terminated = false) : site.landing = site := by
  simp [landing, going]

/-- A landing is open: this is why an instruction never stands behind a terminator. -/
@[simp]
theorem landing_terminated (site : Site) : site.landing.terminated = false := by
  cases ended : site.terminated with
  | true =>
    rw [landing_of_terminated ended]
    simp [terminated, Function.nextBlock, Block.terminated]
  | false => rw [landing_of_open ended, ended]

@[simp]
theorem push_terminated (site : Site) (instr : Instr) :
    (site.push instr).terminated = site.terminated := by
  simp [terminated, Block.terminated]

@[simp]
theorem close_terminated (site : Site) (terminator : Terminator) :
    (site.close terminator).terminated = true := by
  simp [terminated, Block.terminated]

/-- Emitting opens a fresh block where it has to, so the block it leaves is open in any case. -/
@[simp]
theorem emit_terminated (site : Site) (instr : Instr) :
    (site.emit instr).terminated = false := by
  simp [emit]

@[simp]
theorem finish_terminated (site : Site) (terminator : Terminator) :
    (site.finish terminator).terminated = true := by
  simp [finish]

@[simp]
theorem addBlock_terminated (site : Site) (stem : Bytes) :
    (site.addBlock stem).terminated = site.terminated := by
  simp [terminated]

@[simp]
theorem takeRegister_terminated (site : Site) :
    site.takeRegister.terminated = site.terminated := by
  simp [terminated]

@[simp]
theorem addLocal_terminated (site : Site) (name : Bytes) (type : Ty) :
    (site.addLocal name type).terminated = site.terminated := by
  simp [terminated]

/-- An end that is already there wins; the second one would be in a dead block. -/
theorem endWith_of_terminated (ended : site.terminated = true) (terminator : Terminator) :
    site.endWith terminator = site := if_pos ended

theorem endWith_of_open (going : site.terminated = false) (terminator : Terminator) :
    site.endWith terminator = site.close terminator := by
  simp [endWith, going]

theorem finish_of_open (going : site.terminated = false) (terminator : Terminator) :
    site.finish terminator = site.close terminator := by
  rw [finish, landing_of_open going]

/-- The three blocks of a branch are added before any of them is filled. -/
@[simp]
theorem addBlocks_size (site : Site) (stems : Stems) :
    (site.addBlocks stems).function.blocks.size = site.function.blocks.size + 3 := by
  simp [addBlocks, addBlock, Function.addBlock]

/-! ### Straight-line steps -/

/-- The sites that straight-line code leads to: instructions are added, which may write the next
register or reserve a stack variable. -/
inductive Straight (site : Site) : Site → Prop
  | refl : Straight site site
  | emit {later : Site} (straight : Straight site later) (instr : Instr) :
      Straight site (later.emit instr)
  | define {later : Site} (straight : Straight site later) (type : Ty) (instr : Register → Instr) :
      Straight site (later.define type instr)
  | reserve {later : Site} (straight : Straight site later) (name : Bytes) (type : Ty) :
      Straight site (later.reserve name type)

/-- Straight code may be cut anywhere, which lets one instruction at a time be looked at. -/
theorem Straight.trans {first second third : Site} (early : first.Straight second)
    (late : second.Straight third) : first.Straight third := by
  induction late with
  | refl => exact early
  | emit _ instr straight => exact straight.emit instr
  | define _ type instr straight => exact straight.define type instr
  | reserve _ name type straight => exact straight.reserve name type

/-! ### Confined steps -/

/-- A later site of a function: the function has grown, no block except the current one was
touched, and the new current block is the old one or did not exist before. -/
structure Confined (site later : Site) : Prop where
  grows : site.function.Grows later.function
  untouched : ∀ (place : Nat) (block : Block), place ≠ site.block →
    site.function.blocks[place]? = some block → later.function.blocks[place]? = some block
  block : later.block = site.block ∨ site.function.blocks.size ≤ later.block

namespace Confined

variable {first second third : Site}

theorem refl (site : Site) : site.Confined site := ⟨.refl _, fun _ _ _ found => found, .inl rfl⟩

/-- Blocks that the first step adds may be touched by the second; they did not exist before the
first. -/
theorem trans (early : first.Confined second) (late : second.Confined third) :
    first.Confined third := by
  refine ⟨early.grows.trans late.grows, fun place block other found => ?_, ?_⟩
  · have inside := (Array.getElem?_eq_some_iff.mp found).1
    refine late.untouched place block ?_ (early.untouched place block other found)
    rcases early.block with same | new
    · rw [same]
      exact other
    · omega
  · have size := early.grows.size_le
    rcases late.block with same | new
    · rw [same]
      exact early.block
    · exact .inr (Nat.le_trans size new)

/-- A step to a block that did not exist at the first site. -/
theorem moveTo (early : first.Confined second) {block : Nat}
    (new : first.function.blocks.size ≤ block) (inside : block < second.function.blocks.size) :
    first.Confined (second.moveTo block) := by
  refine ⟨?_, ?_, .inr ?_⟩
  · rw [moveTo_function]
    exact early.grows
  · rw [moveTo_function]
    exact early.untouched
  · rw [second.moveTo_block inside]
    exact new

theorem addBlock (site : Site) (stem : Bytes) : site.Confined (site.addBlock stem) :=
  ⟨.addBlock _ _, fun place block _ found => Kept.push _ _ place block found, .inl rfl⟩

theorem landing (site : Site) : site.Confined site.landing := by
  cases ended : site.terminated with
  | true =>
    rw [landing_of_terminated ended]
    have added := addBlock site "dead"
    exact ⟨added.grows, added.untouched, .inr (Nat.le_refl _)⟩
  | false =>
    rw [landing_of_open ended]
    exact refl site

/-- Changing the current block, which has no terminator, into a later version of it. -/
theorem modifyBlock (site : Site) (going : site.terminated = false) (change : Block → Block)
    (code : Kept site.current.code (change site.current).code) :
    site.Confined (site.modifyBlock change) := by
  refine ⟨.modifyBlock _ _ _ fun block found => ?_, fun place block other found => ?_, .inl rfl⟩
  · rw [← current_eq found]
    refine ⟨code, fun ended => ?_⟩
    rw [terminated, ended] at going
    cases going
  · rw [site.modifyBlock_found_of_ne change other]
    exact found

theorem emit (site : Site) (instr : Instr) : site.Confined (site.emit instr) :=
  (landing site).trans (modifyBlock _ site.landing_terminated _ (.push _ _))

theorem finish (site : Site) (terminator : Terminator) :
    site.Confined (site.finish terminator) :=
  (landing site).trans (modifyBlock _ site.landing_terminated _ (.refl _))

theorem addBlocks (site : Site) (stems : Stems) : site.Confined (site.addBlocks stems) :=
  ((addBlock site stems.first).trans (addBlock _ stems.second)).trans (addBlock _ stems.third)

theorem endWith (site : Site) (terminator : Terminator) :
    site.Confined (site.endWith terminator) := by
  cases ended : site.terminated with
  | true =>
    rw [endWith_of_terminated ended]
    exact refl site
  | false =>
    rw [endWith_of_open ended]
    exact modifyBlock site ended _ (.refl _)

theorem exit (site : Site) (way : Way) : site.Confined (site.exit way) := by
  cases way with
  | finish terminator => exact finish site terminator
  | leave target => exact endWith site _

/-- Leaving a block for one that did not exist at the first site. -/
theorem go (early : first.Confined second) (way : Way) {block : Nat}
    (new : first.function.blocks.size ≤ block) (inside : block < second.function.blocks.size) :
    first.Confined (second.go way block) :=
  (early.trans (exit second way)).moveTo new
    (Nat.lt_of_lt_of_le inside (exit second way).grows.size_le)

theorem fork (site : Site) (stems : Stems) (terminator : Terminator) :
    site.Confined (site.fork stems terminator) :=
  (addBlocks site stems).go _ (Nat.le_refl _) (by simp)

theorem takeRegister (site : Site) : site.Confined site.takeRegister :=
  ⟨⟨rfl, rfl, rfl, rfl, fun _ block found => ⟨block, found, .refl _⟩, .refl _, Nat.le_succ _⟩,
    fun _ _ _ found => found, .inl rfl⟩

theorem addLocal (site : Site) (name : Bytes) (type : Ty) :
    site.Confined (site.addLocal name type) :=
  ⟨⟨rfl, rfl, rfl, rfl, fun _ block found => ⟨block, found, .refl _⟩, .push _ _, Nat.le_refl _⟩,
    fun _ _ _ found => found, .inl rfl⟩

end Confined

theorem Confined.define (site : Site) (type : Ty) (instr : Register → Instr) :
    site.Confined (site.define type instr) :=
  (Confined.takeRegister site).trans (.emit _ _)

theorem Confined.reserve (site : Site) (name : Bytes) (type : Ty) :
    site.Confined (site.reserve name type) :=
  (Confined.addLocal site name type).trans (.emit _ _)

/-- Straight steps touch the current block and dead blocks that they add themselves. -/
theorem Straight.confined (straight : site.Straight later) : site.Confined later := by
  induction straight with
  | refl => exact .refl site
  | emit _ instr confined => exact confined.trans (.emit _ instr)
  | define _ type instr confined => exact confined.trans (.define _ type instr)
  | reserve _ name type confined => exact confined.trans (.reserve _ name type)

/-- Straight-line code never ends a block. -/
theorem Straight.open (straight : site.Straight later) (going : site.terminated = false) :
    later.terminated = false := by
  cases straight with
  | refl => exact going
  | emit | define | reserve => exact emit_terminated _ _

/-- Straight-line code stays in a block that is open. -/
theorem Straight.block_eq (straight : site.Straight later) (going : site.terminated = false) :
    later.block = site.block := by
  have stays (middle : Site) (instr : Instr) (isOpen : middle.terminated = false) :
      (middle.emit instr).block = middle.block := by
    show middle.landing.block = _
    rw [landing_of_open isOpen]
  induction straight with
  | refl => rfl
  | emit straight instr same => exact (stays _ _ (straight.open going)).trans same
  | define straight type instr same =>
    exact (stays _ _ ((takeRegister_terminated _).trans (straight.open going))).trans same
  | reserve straight name type same =>
    exact (stays _ _ ((addLocal_terminated _ _ _).trans (straight.open going))).trans same

end Site

/-! ### Builders at a site -/

/-- The builder writes the function with a number, at a site. -/
structure Builder.Holds (builder : Builder) (id : Nat) (site : Site) : Prop where
  cursor : builder.cursor = some ⟨id, site.block⟩
  function : builder.unit.functions[id]? = some site.function

namespace Builder.Holds

variable {builder : Builder} {id : Nat} {site : Site}

theorem currentFunction (holds : builder.Holds id site) :
    builder.currentFunction? = some site.function := by
  simp [currentFunction?, holds.cursor, function?, holds.function]

theorem currentBlock (holds : builder.Holds id site) :
    builder.currentBlock? = some site.current := by
  simp [currentBlock?, holds.cursor, function?, holds.function, site.current_found]

theorem terminated (holds : builder.Holds id site) : builder.terminated = site.terminated := by
  simp [Builder.terminated, holds.currentBlock, Site.terminated]

theorem inside (holds : builder.Holds id site) : id < builder.unit.functions.size :=
  (Array.getElem?_eq_some_iff.mp holds.function).1

/-- A module with more members keeps the functions that it has. -/
theorem withUnit (holds : builder.Holds id site) {unit : Module}
    (kept : Kept builder.unit.functions unit.functions) :
    Builder.Holds { builder with unit } id site :=
  ⟨holds.cursor, kept _ _ holds.function⟩

end Builder.Holds

/-- The builder with a function as it is at a site, and the insertion point there. -/
def Builder.place (builder : Builder) (id : Nat) (site : Site) : Builder where
  unit := { builder.unit with functions := builder.unit.functions.setIfInBounds id site.function }
  cursor := some ⟨id, site.block⟩

section Place

variable {builder : Builder} {id : Nat} {site later : Site}

theorem Builder.Holds.place (holds : builder.Holds id site) (later : Site) :
    (builder.place id later).Holds id later :=
  ⟨rfl, by simp [Builder.place, holds.inside]⟩

/-- A step that changes nothing can be written as one that puts its own site back. -/
theorem Builder.Holds.place_self (holds : builder.Holds id site) :
    builder.place id site = builder := by
  obtain ⟨isCursor, found⟩ := holds
  have same : builder.unit.functions.setIfInBounds id site.function = builder.unit.functions := by
    refine Array.ext_getElem? fun place => ?_
    rw [Array.getElem?_setIfInBounds]
    split
    · rename_i isPlace
      rw [← isPlace, found, if_pos (Array.getElem?_eq_some_iff.mp found).1]
    · rfl
  rw [Builder.place, same, ← isCursor]

/-- Only the last of several sites counts, which is what lets steps be composed. -/
@[simp]
theorem Builder.place_place (builder : Builder) (id : Nat) (site later : Site) :
    (builder.place id site).place id later = builder.place id later := by
  simp [Builder.place]

theorem Builder.place_members (builder : Builder) (id : Nat) (site : Site) :
    builder.SameMembers (builder.place id site) :=
  ⟨Array.size_setIfInBounds, rfl⟩

theorem Builder.place_others (builder : Builder) (id : Nat) (site : Site) {place : Nat}
    (other : place ≠ id) :
    (builder.place id site).unit.functions[place]? = builder.unit.functions[place]? :=
  Array.getElem?_setIfInBounds_ne other.symm

/-- What was there before stays where it was as long as the function itself only grows. -/
theorem Builder.Holds.extends_place (holds : builder.Holds id site)
    (grows : site.function.Grows later.function) : builder.Extends (builder.place id later) := by
  refine ⟨⟨.refl _, .refl _, fun place function found => ?_⟩, by rw [holds.cursor]; rfl,
    fun place function found other => ?_⟩
  · by_cases same : place = id
    · subst same
      cases holds.function.symm.trans found
      exact ⟨_, (holds.place later).function, grows⟩
    · exact ⟨function, (builder.place_others id later same).trans found, .refl _⟩
  · rw [builder.place_others id later fun same => other (by rw [holds.cursor, same]; rfl), found]

end Place

namespace Build

variable {Result : Type} {builder : Builder} {id : Nat} {site : Site}

/-- Data are kept apart from functions, so the insertion point does not notice. -/
theorem string_holds (holds : builder.Holds id site) (name bytes : Bytes) :
    (string name bytes builder).2.Holds id site :=
  holds.withUnit (.refl _)

theorem globalVariable_holds (holds : builder.Holds id site) (name : Bytes) (type : Ty) :
    (globalVariable name type builder).2.Holds id site :=
  holds.withUnit (.refl _)

/-- A function that is added stands behind all others, so the current one keeps its number. -/
theorem declareFunction_holds (holds : builder.Holds id site) (name : Bytes)
    (signature : Signature) : (declareFunction name signature builder).2.Holds id site := by
  cases found : builder.unit.findFunction? name with
  | some _ => rwa [declareFunction_of_some found]
  | none =>
    rw [declareFunction_of_none found]
    exact holds.withUnit (.push _ _)

/-- A function that is defined is written from its start. -/
theorem defineFunction_holds (builder : Builder) (name : Bytes) (signature : Signature)
    (params : List Bytes) :
    (defineFunction name signature params builder).2.Holds builder.unit.functions.size
      (.entry (freshName builder.unit.names name) signature params) :=
  ⟨rfl, Array.getElem?_push_size⟩

/-- Changes through the cursor and changes of the site are the same; the rules below follow from
this. -/
theorem modifyCurrentFunction_eq (holds : builder.Holds id site) (later : Site)
    {change : Function → Function} (function : later.function = change site.function)
    (block : later.block = site.block) :
    builder.modifyCurrentFunction change = builder.place id later := by
  have same : builder.unit.functions.modify id change =
      builder.unit.functions.setIfInBounds id later.function := by
    refine Array.ext_getElem? fun place => ?_
    rw [Array.getElem?_modify, Array.getElem?_setIfInBounds, function]
    split
    · rename_i isPlace
      rw [← isPlace, holds.function, if_pos holds.inside, Option.map_some]
    · rfl
  simp only [Builder.modifyCurrentFunction, holds.cursor, Builder.modifyFunction, Builder.place,
    same, block]

theorem moveTo_eq (holds : builder.Holds id site) {block : Nat}
    (inside : block < site.function.blocks.size) :
    moveTo block builder = ((), builder.place id (site.moveTo block)) := by
  have placed := holds.place_self
  rw [Builder.place] at placed
  simp only [Builder.place, Site.moveTo_function, site.moveTo_block inside]
  conv_lhs => rw [← placed]
  rfl

/-- A new block gets the next number. -/
theorem newBlock_eq (holds : builder.Holds id site) (stem : Bytes) :
    newBlock stem builder =
      (site.function.blocks.size, builder.place id (site.addBlock stem)) := by
  rw [newBlock_of_some holds.currentFunction,
    modifyCurrentFunction_eq holds (site.addBlock stem) rfl rfl]

/-- Whether the block has ended is asked only here; from here on `landing` has the answer. -/
theorem leaveTerminated_eq (holds : builder.Holds id site) :
    leaveTerminated builder = ((), builder.place id site.landing) := by
  show (if builder.terminated = true then _ else _ : Build PUnit) builder = _
  rw [holds.terminated]
  cases ended : site.terminated with
  | false =>
    rw [Site.landing_of_open ended, holds.place_self]
    rfl
  | true =>
    rw [Site.landing_of_terminated ended]
    have inside : site.function.blocks.size < (site.addBlock "dead").function.blocks.size :=
      (site.enterNew "dead").inside
    show moveTo (newBlock "dead" builder).1 (newBlock "dead" builder).2 = _
    rw [newBlock_eq holds, moveTo_eq (holds.place _) inside, Builder.place_place]
    congr 2
    exact dif_pos inside

theorem modifyCurrentBlock_eq (holds : builder.Holds id site) (change : Block → Block) :
    builder.modifyCurrentBlock change = builder.place id (site.modifyBlock change) := by
  have asFunction : builder.modifyCurrentBlock change =
      builder.modifyCurrentFunction fun function =>
        { function with blocks := function.blocks.modify site.block change } := by
    simp only [Builder.modifyCurrentBlock, Builder.modifyCurrentFunction, holds.cursor]
  rw [asFunction, modifyCurrentFunction_eq holds (site.modifyBlock change) rfl rfl]

theorem emit_eq (holds : builder.Holds id site) (instr : Instr) :
    emit instr builder = ((), builder.place id (site.emit instr)) := by
  show ((), (leaveTerminated builder).2.modifyCurrentBlock _) = _
  rw [leaveTerminated_eq holds, modifyCurrentBlock_eq (holds.place _), Builder.place_place]
  rfl

theorem finish_eq (holds : builder.Holds id site) (terminator : Terminator) :
    finish terminator builder = ((), builder.place id (site.finish terminator)) := by
  show ((), (leaveTerminated builder).2.modifyCurrentBlock _) = _
  rw [leaveTerminated_eq holds, modifyCurrentBlock_eq (holds.place _), Builder.place_place]
  rfl

/-- An instruction that writes a fresh register. -/
theorem define_eq (holds : builder.Holds id site) (type : Ty) (instr : Register → Instr)
    (value : Register → Result) :
    (do
      let out ← freshRegister type
      emit (instr out)
      return value out : Build Result) builder =
      (value (site.nextRegister type), builder.place id (site.define type instr)) := by
  have taken : freshRegister type builder =
      (site.nextRegister type, builder.place id site.takeRegister) := by
    show (Register.mk ((builder.currentFunction?.map Function.registers).getD 0) type, _) = _
    rw [holds.currentFunction, modifyCurrentFunction_eq holds site.takeRegister rfl rfl]
    rfl
  show (value (freshRegister type builder).1, (emit (instr (freshRegister type builder).1)
    (freshRegister type builder).2).2) = _
  rw [taken, emit_eq (holds.place _), Builder.place_place]
  rfl

theorem alloca_eq (holds : builder.Holds id site) (name : Bytes) (type : Ty) :
    alloca name type builder = (site.nextSlot type, builder.place id (site.reserve name type)) := by
  have slot : Slot.mk ((builder.currentFunction?.map fun function => function.locals.size).getD 0)
      .stack type = site.nextSlot type := by
    rw [holds.currentFunction]
    rfl
  show (Slot.mk _ .stack type, (emit (.alloca (Slot.mk _ .stack type))
    (builder.modifyCurrentFunction _)).2) = _
  rw [slot, modifyCurrentFunction_eq holds (site.addLocal name type) rfl rfl,
    emit_eq (holds.place _), Builder.place_place]
  rfl

/-- A call of a function with a result. -/
theorem call_eq_of_result (holds : builder.Holds id site) {callee : Nat} {function : Function}
    (found : builder.unit.functions[callee]? = some function)
    (result : function.signature.hasResult = true) (args : List Operand) :
    call callee args builder = (some (.reg (site.nextRegister function.signature.result)),
      builder.place id
        (site.define function.signature.result fun out => .call (some out) callee args)) := by
  refine .trans ?_ (define_eq holds function.signature.result
    (fun out => .call (some out) callee args) fun out => some (Operand.reg out))
  simp only [call, bind, StateT.bind, get, getThe, MonadStateOf.get, StateT.get, pure, StateT.pure,
    Builder.function?, found, Option.map_some, result, if_true]

/-- A call of a function with a result is like any other instruction with a register. -/
theorem call_holds (holds : builder.Holds id site) {callee : Nat} {function : Function}
    (found : builder.unit.functions[callee]? = some function)
    (result : function.signature.hasResult = true) (args : List Operand) :
    (call callee args builder).2.Holds id
      (site.define function.signature.result fun out => .call (some out) callee args) := by
  rw [call_eq_of_result holds found result]
  exact holds.place _

/-- A call of a function without a result. -/
theorem call_eq_of_noResult (holds : builder.Holds id site) {callee : Nat}
    (result : ∀ function, builder.unit.functions[callee]? = some function →
      function.signature.hasResult = false) (args : List Operand) :
    call callee args builder = (none, builder.place id (site.emit (.call none callee args))) := by
  cases found : builder.unit.functions[callee]? with
  | none =>
    simp only [call, bind, StateT.bind, get, getThe, MonadStateOf.get, StateT.get, pure,
      StateT.pure, Builder.function?, found, Option.map_none, emit_eq holds]
  | some function =>
    simp only [call, bind, StateT.bind, get, getThe, MonadStateOf.get, StateT.get, pure,
      StateT.pure, Builder.function?, found, Option.map_some, result function found,
      Bool.false_eq_true, if_false, emit_eq holds]

end Build

end Pascaline.IR
