/-
Charts of functions under construction. A chart tells for each block what is known whenever control
comes to its start: which stack variables are reserved, or that control never comes there at all. A
branch only leads to blocks of whose start nothing is said that is not known at the branch.

While code is added, a chart is kept up at the site: nothing changes for the blocks that were there,
and new blocks are charted at will. Blocks that wait for their code are kept track of as well.
-/

import Pascaline.Proofs.Guards
import Pascaline.Proofs.Reachability

namespace Pascaline.IR

/-! ### Paths in growing functions -/

namespace Function

/-- A branch stays when a function grows. -/
theorem Grows.successors {first second : Function} (grows : first.Grows second)
    {place target : Nat} (branch : target ∈ first.successors place) :
    target ∈ second.successors place := by
  obtain ⟨block, terminator, found, ended, listed⟩ := mem_successors.mp branch
  refine mem_successors.mpr ⟨block, terminator, grows.ended found ?_, ended, listed⟩
  simp [Block.terminated, ended]

theorem Grows.reaches {first second : Function} (grows : first.Grows second) {source target : Nat}
    (path : first.Reaches source target) : second.Reaches source target := by
  induction path with
  | refl => exact .refl
  | tail _ branch path => exact .tail path (grows.successors branch)

end Function

/-! ### Charts -/

/-- What may be known of a place in the code: control never comes there, or a stack variable is
reserved whenever it does. -/
inductive Fact where
  | dead
  | reserved (slot : Nat)

/-- The facts for some reserved variables. -/
def Fact.In (slots : Set Nat) (dead : Prop) : Fact → Prop
  | .dead => dead
  | .reserved slot => slot ∈ slots

theorem Fact.In.mono {slots more : Set Nat} {dead deader : Prop} (fewer : slots ⊆ more)
    (implies : dead → deader) {fact : Fact} (isIn : fact.In slots dead) : fact.In more deader := by
  cases fact with
  | dead => exact implies isIn
  | reserved slot => exact fewer isIn

/-- What is known behind code, if some facts are known before it. -/
def Fact.Behind (code : List Instr) (entered : Fact → Prop) : Fact → Prop
  | .dead => entered .dead
  | .reserved slot => entered (.reserved slot) ∨ slot ∈ reservedBy code

theorem Fact.Behind.start {code : List Instr} {entered : Fact → Prop} {fact : Fact}
    (isKnown : entered fact) : fact.Behind code entered := by
  cases fact with
  | dead => exact isKnown
  | reserved slot => exact .inl isKnown

theorem Fact.Behind.append {code more : List Instr} {entered : Fact → Prop} {fact : Fact}
    (behind : fact.Behind code entered) : fact.Behind (code ++ more) entered := by
  cases fact with
  | dead => exact behind
  | reserved slot =>
    refine behind.imp_right fun member => ?_
    rw [reservedBy_append]
    exact List.mem_append_left _ member

/-- An instruction that is right behind others. -/
structure Instr.Right (unit : Module) (function : Function) (entered : Fact → Prop)
    (before : List Instr) (instr : Instr) : Prop where
  sound : instr.Sound unit function (writtenBy before)
  guarded : instr.Guarded unit function fun slot => (Fact.reserved slot).Behind before entered

/-- The end of a block, behind its code. A branch only leads to blocks of whose start nothing is
said that is not known at the branch. -/
structure Terminator.Right (unit? : Option Module) (chart : Nat → Fact → Prop) (function : Function)
    (entered : Fact → Prop) (before : List Instr) (terminator : Terminator) : Prop where
  typed : ∀ unit ∈ unit?, terminator.Typed function ∧ ∀ operand ∈ terminator.operands,
    operand.Resolves unit function (writtenBy before) ∧ operand.IsValue function
  targets : ∀ target ∈ terminator.targets, target < function.blocks.size ∧
    ∀ fact, chart target fact → fact.Behind before entered
  dead : terminator = .unreachable → entered .dead

/-- A chart of a function: what is known at the start of each block. -/
structure Function.Charted (unit? : Option Module) (chart : Nat → Fact → Prop)
    (function : Function) : Prop where
  code : ∀ unit ∈ unit?, ∀ (place index : Nat) (block : Block) (instr : Instr),
    function.blocks[place]? = some block → block.code[index]? = some instr →
      instr.Right unit function (chart place) (block.code.toList.take index)
  ending : ∀ (place : Nat) (block : Block) (terminator : Terminator),
    function.blocks[place]? = some block → block.terminator = some terminator →
      terminator.Right unit? chart function (chart place) block.code.toList

section Growth

variable {unit? : Option Module} {unit : Module} {chart : Nat → Fact → Prop}
  {function grown : Function}

theorem Instr.Right.mono {entered : Fact → Prop} {before : List Instr} {instr : Instr}
    (right : instr.Right unit function entered before) (grows : function.Grows grown) :
    instr.Right unit grown entered before :=
  ⟨right.sound.mono (.refl _) grows (List.Subset.refl _),
    right.guarded.mono (.refl _) grows fun _ => id⟩

theorem Terminator.Right.mono {entered : Fact → Prop} {before : List Instr}
    {terminator : Terminator} (right : terminator.Right unit? chart function entered before)
    (grows : function.Grows grown) : terminator.Right unit? chart grown entered before := by
  refine ⟨fun unit member => ⟨?_, fun operand listed => ?_⟩, fun target member =>
    ⟨Nat.lt_of_lt_of_le (right.targets target member).1 grows.size_le,
      (right.targets target member).2⟩, right.dead⟩
  · have typed := (right.typed unit member).1
    unfold Terminator.Typed at typed ⊢
    rwa [grows.signature]
  · obtain ⟨resolves, isValue⟩ := (right.typed unit member).2 operand listed
    exact ⟨resolves.mono (.refl _) grows (List.Subset.refl _), isValue.mono grows⟩

namespace Function.Charted

/-- A chart depends on the blocks only. -/
theorem of_blocks (charted : function.Charted unit? chart) (grows : function.Grows grown)
    (same : grown.blocks = function.blocks) : grown.Charted unit? chart := by
  refine ⟨fun unit member place index block instr found there => ?_,
    fun place block terminator found ended => ?_⟩
  · rw [same] at found
    exact (charted.code unit member place index block instr found there).mono grows
  · rw [same] at found
    exact (charted.ending place block terminator found ended).mono grows

/-- Only what is said of blocks that are there matters. -/
theorem remark {other : Nat → Fact → Prop} (charted : function.Charted unit? chart)
    (agree : ∀ place < function.blocks.size, other place = chart place) :
    function.Charted unit? other := by
  refine ⟨fun unit member place index block instr found => ?_,
    fun place block terminator found ended => ?_⟩
  · rw [agree place (Array.getElem?_eq_some_iff.mp found).1]
    exact charted.code unit member place index block instr found
  · rw [agree place (Array.getElem?_eq_some_iff.mp found).1]
    obtain ⟨typed, targets, dead⟩ := charted.ending place block terminator found ended
    refine ⟨typed, fun target member => ?_, dead⟩
    rw [agree target (targets target member).1]
    exact targets target member

theorem addBlock (charted : function.Charted unit? chart) (stem : Bytes) :
    (function.addBlock stem).Charted unit? chart := by
  refine ⟨fun unit member place index block instr found there => ?_,
    fun place block terminator found ended => ?_⟩
  all_goals
    rw [Site.addBlock_found] at found
    split at found
  · cases found
    simp [nextBlock] at there
  · exact (charted.code unit member place index block instr found there).mono (.addBlock _ _)
  · cases found
    cases ended
  · exact (charted.ending place block terminator found ended).mono (.addBlock _ _)

theorem closed (charted : function.Charted unit? chart) : function.Closed := by
  intro place target branch
  obtain ⟨block, terminator, found, ended, listed⟩ := mem_successors.mp branch
  exact ((charted.ending place block terminator found ended).targets target listed).1

/-- Where control never comes, it never comes on any path. -/
theorem not_dead (charted : function.Charted unit? chart) {source target : Nat}
    (alive : ¬ chart source .dead) (path : function.Reaches source target) :
    ¬ chart target .dead := by
  induction path with
  | refl => exact alive
  | tail _ branch isAlive =>
    obtain ⟨block, terminator, found, ended, listed⟩ := mem_successors.mp branch
    exact fun isDead => isAlive
      (((charted.ending _ block terminator found ended).targets _ listed).2 _ isDead)

theorem coded (charted : function.Charted (some unit) chart) : function.Coded unit := by
  refine fun place block found => ⟨fun index instr there =>
    (charted.code unit rfl place index block instr found there).sound, fun terminator ended => ?_⟩
  have right := charted.ending place block terminator found ended
  exact ⟨fun operand listed => ((right.typed unit rfl).2 operand listed).1,
    (right.typed unit rfl).1,
    fun target member => (right.targets target member).1⟩

theorem secure (charted : function.Charted (some unit) chart)
    (start : ∀ slot, ¬ chart 0 (.reserved slot)) : function.Secure unit := by
  refine ⟨fun place slot => chart place (.reserved slot), start,
    fun place index block instr found there =>
      (charted.code unit rfl place index block instr found there).guarded,
    fun place block terminator found ended => ?_⟩
  have right := charted.ending place block terminator found ended
  exact ⟨fun operand listed => ((right.typed unit rfl).2 operand listed).2, fun target member =>
    ⟨(right.targets target member).1, fun slot => (right.targets target member).2 (.reserved slot)⟩⟩

end Function.Charted

end Growth

/-! ### Charts at a site -/

namespace Site

variable {unit? : Option Module} {unit : Module} {chart : Nat → Fact → Prop} {site later : Site}
  {place : Nat} {block : Block} {terminator : Terminator}

/-- What is known at the end of the current block. Code behind its terminator is never executed. -/
def Knows (site : Site) (chart : Nat → Fact → Prop) (fact : Fact) : Prop :=
  site.terminated = true ∨ fact.Behind site.current.code.toList (chart site.block)

theorem Knows.behind {fact : Fact} (knows : site.Knows chart fact)
    (going : site.terminated = false) :
    fact.Behind site.current.code.toList (chart site.block) := by
  rcases knows with ended | behind
  · rw [going] at ended
    cases ended
  · exact behind

theorem modifyBlock_cases {change : Block → Block}
    (found : (site.modifyBlock change).function.blocks[place]? = some block) :
    (place = site.block ∧ block = change site.current) ∨
      (place ≠ site.block ∧ site.function.blocks[place]? = some block) := by
  by_cases same : place = site.block
  · subst same
    have current : (site.modifyBlock change).current = block := current_eq found
    exact .inl ⟨rfl, by rw [← current, modifyBlock_current]⟩
  · rw [site.modifyBlock_found_of_ne change same] at found
    exact .inr ⟨same, found⟩

/-- Adding an instruction at an open site. -/
theorem charted_push {instr : Instr} (charted : site.function.Charted unit? chart)
    (going : site.terminated = false)
    (right : ∀ unit ∈ unit?, instr.Right unit site.function (chart site.block)
      site.current.code.toList) : (site.push instr).function.Charted unit? chart := by
  have grows := (Confined.modifyBlock site going
    (fun block => { block with code := block.code.push instr }) (.push _ _)).grows
  refine ⟨fun unit member place index block other found there => ?_,
    fun place block terminator found ended => ?_⟩
  all_goals rcases modifyBlock_cases found with ⟨rfl, rfl⟩ | ⟨_, found⟩
  · rw [Array.getElem?_push] at there
    rw [Array.toList_push]
    split at there
    · rename_i last
      cases there
      rw [last, List.take_append_of_le_length (by simp), List.take_of_length_le (by simp)]
      exact (right unit member).mono grows
    · have inside := (Array.getElem?_eq_some_iff.mp there).1
      rw [List.take_append_of_le_length (by simpa using Nat.le_of_lt inside)]
      exact (charted.code unit member _ index _ other site.current_found there).mono grows
  · exact (charted.code unit member place index block other found there).mono grows
  · rw [terminator_of_open going] at ended
    cases ended
  · exact (charted.ending place block terminator found ended).mono grows

/-- Ending the current block. -/
theorem charted_close (charted : site.function.Charted unit? chart)
    (going : site.terminated = false)
    (right : terminator.Right unit? chart site.function (chart site.block)
      site.current.code.toList) : (site.close terminator).function.Charted unit? chart := by
  have grows := (Confined.modifyBlock site going
    (fun block => { block with terminator := some terminator }) (.refl _)).grows
  refine ⟨fun unit member place index block other found there => ?_,
    fun place block other found ended => ?_⟩
  all_goals rcases modifyBlock_cases found with ⟨rfl, rfl⟩ | ⟨_, found⟩
  · exact (charted.code unit member _ index _ other site.current_found there).mono grows
  · exact (charted.code unit member place index block other found there).mono grows
  · cases ended
    exact right.mono grows
  · exact (charted.ending place block other found ended).mono grows

/-- Two charts say the same of the first blocks. -/
def Agree (count : Nat) (chart other : Nat → Fact → Prop) : Prop :=
  ∀ place < count, other place = chart place

theorem Agree.trans {count countToo : Nat} {first second third : Nat → Fact → Prop}
    (early : Agree count first second) (late : Agree countToo second third)
    (fewer : count ≤ countToo) : Agree count first third :=
  fun place inside => (late place (Nat.lt_of_lt_of_le inside fewer)).trans (early place inside)

/-- A fresh block behind a terminator is never executed, so everything is known of it. -/
theorem charted_landing (charted : site.function.Charted unit? chart) :
    ∃ chartToo, Agree site.function.blocks.size chart chartToo ∧
      site.landing.function.Charted unit? chartToo ∧ ∀ fact, site.Knows chart fact →
        fact.Behind site.landing.current.code.toList (chartToo site.landing.block) := by
  cases ended : site.terminated with
  | true =>
    have agree : Agree site.function.blocks.size chart
        (Function.update chart site.function.blocks.size fun _ => True) :=
      fun place inside => Function.update_of_ne (Nat.ne_of_lt inside) _ _
    rw [landing_of_terminated ended]
    refine ⟨_, agree, (charted.remark agree).addBlock "dead", fun fact _ => .start ?_⟩
    show Function.update chart _ (fun _ => True) site.function.blocks.size fact
    rw [Function.update_self]
    trivial
  | false =>
    rw [landing_of_open ended]
    exact ⟨chart, fun _ _ => rfl, charted, fun fact knows => knows.behind ended⟩

/-! ### Open blocks -/

/-- A block without a terminator that is not the current one. -/
def Waiting (site : Site) (place : Nat) : Prop :=
  place ≠ site.block ∧ ∃ block, site.function.blocks[place]? = some block ∧
    block.terminated = false

theorem Waiting.inside (waiting : site.Waiting place) : place < site.function.blocks.size := by
  obtain ⟨_, block, found, _⟩ := waiting
  exact (Array.getElem?_eq_some_iff.mp found).1

/-- An open block that is not written to stays as it is. -/
theorem Confined.waiting (confined : site.Confined later) (waiting : site.Waiting place) :
    later.Waiting place := by
  have inside := waiting.inside
  obtain ⟨other, block, found, going⟩ := waiting
  refine ⟨fun same => ?_, block, confined.untouched place block other found, going⟩
  rcases confined.block with old | new
  · exact other (same.trans old)
  · omega

theorem waiting_landing (waiting : site.landing.Waiting place) : site.Waiting place := by
  cases ended : site.terminated with
  | false => rwa [landing_of_open ended] at waiting
  | true =>
    rw [landing_of_terminated ended] at waiting
    obtain ⟨other, block, found, going⟩ := waiting
    have found : (site.function.addBlock "dead").blocks[place]? = some block := found
    rw [addBlock_found, if_neg (show place ≠ site.function.blocks.size from other)] at found
    refine ⟨fun same => ?_, block, found, going⟩
    rw [same] at found
    rw [terminated, current_eq found, going] at ended
    cases ended

theorem waiting_emit {instr : Instr} (waiting : (site.emit instr).Waiting place) :
    site.Waiting place := by
  obtain ⟨other, block, found, going⟩ := waiting
  rcases modifyBlock_cases found with ⟨same, _⟩ | ⟨_, found⟩
  · exact (other same).elim
  · exact waiting_landing ⟨other, block, found, going⟩

/-- Behind the end of a block, the open blocks are those that were waiting. -/
theorem waiting_endWith (found : (site.endWith terminator).function.blocks[place]? = some block)
    (going : block.terminated = false) : site.Waiting place := by
  cases ended : site.terminated with
  | true =>
    rw [endWith_of_terminated ended] at found
    refine ⟨fun same => ?_, block, found, going⟩
    rw [same] at found
    rw [terminated, current_eq found, going] at ended
    cases ended
  | false =>
    rw [endWith_of_open ended] at found
    rcases modifyBlock_cases found with ⟨_, rfl⟩ | ⟨other, found⟩
    · cases going
    · exact ⟨other, block, found, going⟩

theorem waiting_exit {way : Way} (found : (site.exit way).function.blocks[place]? = some block)
    (going : block.terminated = false) : site.Waiting place := by
  cases way with
  | finish terminator =>
    rw [exit, finish, ← endWith_of_open site.landing_terminated] at found
    exact waiting_landing (waiting_endWith found going)
  | leave target => exact waiting_endWith found going

/-! ### Ways from block to block -/

section Ways

variable {way : Way} {target : Nat} {stems : Stems}

theorem go_block (inside : target < site.function.blocks.size) :
    (site.go way target).block = target :=
  moveTo_block _ (Nat.lt_of_lt_of_le inside (Confined.exit site way).grows.size_le)

theorem go_grows (site : Site) (way : Way) (target : Nat) :
    site.function.Grows (site.go way target).function := by
  rw [go, moveTo_function]
  exact (Confined.exit site way).grows

theorem fork_block : (site.fork stems terminator).block = site.function.blocks.size :=
  go_block (by simp)

theorem fork_size :
    site.function.blocks.size + 3 ≤ (site.fork stems terminator).function.blocks.size := by
  have size := (go_grows (site.addBlocks stems) (.finish terminator)
    site.function.blocks.size).size_le
  rwa [addBlocks_size] at size

/-- A block that waits is open when it is entered. -/
theorem go_open (waiting : site.Waiting target) : (site.go way target).terminated = false := by
  obtain ⟨_, block, found, going⟩ := (Confined.exit site way).waiting waiting
  rw [go, terminated, moveTo_current _ found, going]

theorem waiting_go (inside : target < site.function.blocks.size)
    (waiting : (site.go way target).Waiting place) : place ≠ target ∧ site.Waiting place := by
  obtain ⟨other, block, found, going⟩ := waiting
  rw [go_block inside] at other
  rw [go, moveTo_function] at found
  exact ⟨other, waiting_exit found going⟩

theorem go_waiting (inside : target < site.function.blocks.size) (waiting : site.Waiting place)
    (other : place ≠ target) : (site.go way target).Waiting place := by
  obtain ⟨_, block, found, going⟩ := (Confined.exit site way).waiting waiting
  refine ⟨by rwa [go_block inside], block, ?_, going⟩
  rw [go, moveTo_function]
  exact found

theorem addBlocks_found (site : Site) (stems : Stems) (place : Nat) :
    ((site.addBlocks stems).function.blocks[place]? = site.function.blocks[place]?) ∨
      (site.function.blocks.size ≤ place ∧ place < site.function.blocks.size + 3 ∧
        ∃ block, (site.addBlocks stems).function.blocks[place]? = some block ∧
          block.terminated = false) := by
  have size : ((site.function.addBlock stems.first).addBlock stems.second).blocks.size =
      site.function.blocks.size + 2 := by simp [Function.addBlock]
  have sizeToo : (site.function.addBlock stems.first).blocks.size =
      site.function.blocks.size + 1 := by
    simp [Function.addBlock]
  show (((site.function.addBlock stems.first).addBlock stems.second).addBlock
      stems.third).blocks[place]? = _ ∨
    _ ∧ _ ∧ ∃ block, (((site.function.addBlock stems.first).addBlock stems.second).addBlock
      stems.third).blocks[place]? =
      some block ∧ _
  rw [addBlock_found, addBlock_found, addBlock_found, size, sizeToo]
  repeat' split
  all_goals first
    | exact .inl rfl
    | exact .inr ⟨by omega, by omega, _, rfl, rfl⟩

/-- New blocks wait for their code. -/
theorem addBlocks_waiting (new : site.function.blocks.size ≤ place)
    (inside : place < site.function.blocks.size + 3) :
    (site.addBlocks stems).Waiting place := by
  rcases addBlocks_found site stems place with same | ⟨_, _, opened⟩
  · have gained : place < (site.addBlocks stems).function.blocks.size := by
      rwa [addBlocks_size]
    rw [Array.getElem?_eq_getElem gained, Array.getElem?_eq_none new] at same
    cases same
  · exact ⟨Nat.ne_of_gt (Nat.lt_of_lt_of_le site.inside new), opened⟩

theorem fork_waiting (new : site.function.blocks.size < place)
    (inside : place < site.function.blocks.size + 3) :
    (site.fork stems terminator).Waiting place :=
  go_waiting (by simp) (addBlocks_waiting (Nat.le_of_lt new) inside) (Nat.ne_of_gt new)

theorem fork_open : (site.fork stems terminator).terminated = false :=
  go_open (addBlocks_waiting (Nat.le_refl _) (by omega))

theorem waiting_fork (waiting : (site.fork stems terminator).Waiting place) :
    place = site.function.blocks.size + 1 ∨ place = site.function.blocks.size + 2 ∨
      site.Waiting place := by
  obtain ⟨other, isOther, block, found, going⟩ := waiting_go (by simp) waiting
  rcases addBlocks_found site stems place with same | ⟨low, high, _⟩
  · exact .inr (.inr ⟨isOther, block, same ▸ found, going⟩)
  · omega

/-- A block that is open has its branches once it is left. -/
theorem go_reaches (going : site.terminated = false) {next : Nat}
    (listed : next ∈ way.terminator.targets) :
    (site.go way target).function.Reaches site.block next := by
  have closed : site.exit way = site.close way.terminator := by
    cases way with
    | finish terminator => exact finish_of_open going terminator
    | leave target => exact endWith_of_open going _
  rw [go, moveTo_function, closed]
  exact .single (Function.mem_successors.mpr ⟨_, way.terminator,
    (site.close way.terminator).current_found, by rw [close_current], listed⟩)

end Ways

/-! ### Ends of blocks -/

/-- An operand that can be used for its value at a site. -/
structure Known (unit : Module) (site : Site) (operand : Operand) : Prop where
  offers : site.Offers unit operand
  value : operand.IsValue site.function

theorem Known.mono {grown : Module} {operand : Operand} (known : site.Known unit operand)
    (grows : unit.Grows grown) : site.Known grown operand :=
  ⟨known.offers.straight .refl grows, known.value⟩

/-- An end that is right for the current block. -/
structure Ends (unit? : Option Module) (site : Site) (chart : Nat → Fact → Prop)
    (terminator : Terminator) : Prop where
  typed : ∀ unit ∈ unit?, terminator.Typed site.function ∧
    ∀ operand ∈ terminator.operands, site.Known unit operand
  targets : ∀ target ∈ terminator.targets, target < site.function.blocks.size ∧
    ∀ fact, chart target fact → site.Knows chart fact
  dead : terminator = .unreachable → site.Knows chart .dead

theorem Ends.close (ends : Ends unit? site chart terminator)
    (charted : site.function.Charted unit? chart) (going : site.terminated = false) :
    (site.close terminator).function.Charted unit? chart :=
  charted_close charted going ⟨fun unit member => ⟨(ends.typed unit member).1,
    fun operand listed =>
      have known := (ends.typed unit member).2 operand listed
      ⟨known.offers.resolves, known.value⟩⟩,
    fun target listed => ⟨(ends.targets target listed).1, fun fact marked =>
      ((ends.targets target listed).2 fact marked).behind going⟩,
    fun isUnreachable => (ends.dead isUnreachable).behind going⟩

theorem Ends.endWith (ends : Ends unit? site chart terminator)
    (charted : site.function.Charted unit? chart) :
    (site.endWith terminator).function.Charted unit? chart := by
  cases ended : site.terminated with
  | true => rwa [endWith_of_terminated ended]
  | false =>
    rw [endWith_of_open ended]
    exact ends.close charted ended

theorem Ends.exit {way : Way} (ends : Ends unit? site chart way.terminator)
    (charted : site.function.Charted unit? chart) :
    ∃ chartToo, Agree site.function.blocks.size chart chartToo ∧
      (site.exit way).function.Charted unit? chartToo := by
  cases way with
  | leave target => exact ⟨chart, fun _ _ => rfl, ends.endWith charted⟩
  | finish terminator =>
    obtain ⟨chartToo, agree, landed, keeps⟩ := charted_landing charted
    have grows := (Confined.landing site).grows
    refine ⟨chartToo, agree, Ends.close ⟨fun unit member => ?_, fun target listed => ?_, fun dead =>
      .inr (keeps _ (ends.dead dead))⟩ landed site.landing_terminated⟩
    · obtain ⟨typed, known⟩ := ends.typed unit member
      refine ⟨?_, fun operand listed => ⟨⟨(known operand listed).offers.landing,
        fun _ _ => site.landing_terminated⟩, (known operand listed).value.mono grows⟩⟩
      unfold Terminator.Typed at typed ⊢
      rwa [grows.signature]
    · obtain ⟨inside, known⟩ := ends.targets target listed
      rw [agree target inside]
      exact ⟨Nat.lt_of_lt_of_le inside grows.size_le, fun fact marked =>
        .inr (keeps fact (known fact marked))⟩

/-- A block that is entered starts with what its chart says. -/
theorem Ends.go {way : Way} {block : Nat} (ends : Ends unit? site chart way.terminator)
    (charted : site.function.Charted unit? chart) (inside : block < site.function.blocks.size) :
    ∃ chartToo, Agree site.function.blocks.size chart chartToo ∧
      (site.go way block).function.Charted unit? chartToo ∧
      ∀ fact, chart block fact → (site.go way block).Knows chartToo fact := by
  obtain ⟨chartToo, agree, left⟩ := ends.exit charted
  refine ⟨chartToo, agree, by rwa [Site.go, moveTo_function], fun fact marked => .inr (.start ?_)⟩
  rwa [go_block inside, agree block inside]

end Site

end Pascaline.IR
