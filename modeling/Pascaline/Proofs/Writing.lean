/-
How code is written. A body becomes instructions, branches and loops, one behind the other, and a
derivation says which. What holds of the finished function follows by induction on it: code stays
inside the current block and new ones, no block is left open behind a construct, and the function
has a chart.

A derivation may ask for code that is typed and guarded in a module, or for nothing at all. Even
then the chart says where control cannot come, and a path leads everywhere else.
-/

import Pascaline.Proofs.Charts

namespace Pascaline.IR.Site

/-- An instruction that can be added at a site, where some stack variables are reserved. -/
structure Admits (unit : Module) (site : Site) (slots : Set Nat) (instr : Instr) : Prop where
  typed : instr.Typed unit
  offers : ∀ operand ∈ instr.operands, site.Offers unit operand
  guarded : instr.Guarded unit site.function (· ∈ slots)

/-- What is said of the three blocks of a construct: the stack variables that are reserved in each,
and whether control comes to the second and to the third if it comes to the first. -/
structure Marks where
  first : Set Nat
  second : Set Nat
  third : Set Nat
  secondLive : Bool
  thirdLive : Bool

/-- Blocks numbered from `base` can be branched to where some variables are reserved and control
comes or not. -/
def Marks.Allow (marks : Marks) (base : Nat) (slots : Set Nat) (live : Bool)
    (terminator : Terminator) : Prop :=
  ∀ target ∈ terminator.targets,
    (target = base ∧ marks.first ⊆ slots) ∨
    (target = base + 1 ∧ marks.second ⊆ slots ∧ (live = true → marks.secondLive = true)) ∨
    (target = base + 2 ∧ marks.third ⊆ slots ∧ (live = true → marks.thirdLive = true))

/-- A terminator whose operands can be used at a site. -/
def Closes (unit : Module) (site : Site) (terminator : Terminator) : Prop :=
  terminator.Typed site.function ∧ ∀ operand ∈ terminator.operands, site.Known unit operand

/-- The code between two sites. Before and behind it some stack variables are reserved, and control
comes through it or never does. Nothing is asked of the instructions unless there is a module that
they are meant for.

A construct adds three blocks. It writes the first, leaves it, writes the second, leaves it and
goes on in the third. -/
inductive Writes (unit? : Option Module) : Site → Set Nat → Site → Set Nat → Bool → Prop
  | refl {site : Site} {slots : Set Nat} : Writes unit? site slots site slots true
  | emit {site : Site} {slots : Set Nat} (instr : Instr)
      (admits : ∀ unit ∈ unit?, instr.out? = none ∧ site.Admits unit slots instr) :
      Writes unit? site slots (site.emit instr) slots true
  | define {site : Site} {slots : Set Nat} (type : Ty) (instr : Register → Instr)
      (admits : ∀ unit ∈ unit?,
        (instr (site.nextRegister type)).out? = some (site.nextRegister type) ∧
          site.Admits unit slots (instr (site.nextRegister type))) :
      Writes unit? site slots (site.define type instr) slots true
  | reserve {site : Site} {slots : Set Nat} (name : Bytes) (type : Ty) :
      Writes unit? site slots (site.reserve name type) (insert site.function.locals.size slots) true
  | ret {site : Site} {slots : Set Nat} (value : Option Operand) (more : Set Nat)
      (closes : ∀ unit ∈ unit?, site.Closes unit (.ret value)) :
      Writes unit? site slots (site.finish (.ret value)) more false
  | construct {site middle last : Site} {one two : Set Nat} {through throughToo : Bool}
      (names : Stems) (marks : Marks) (entry : Terminator) (way wayToo : Way)
      (enters : site.function.blocks.size ∈ entry.targets)
      (closes : ∀ unit ∈ unit?, site.Closes unit entry ∧ middle.Closes unit way.terminator ∧
        last.Closes unit wayToo.terminator)
      (dead : entry ≠ .unreachable ∧ way.terminator ≠ .unreachable ∧
        wayToo.terminator ≠ .unreachable)
      (early : Writes unit? (site.fork names entry) marks.first middle one
        through)
      (late : Writes unit? (middle.go way (site.function.blocks.size + 1)) marks.second last two
        throughToo)
      (allows : marks.Allow site.function.blocks.size marks.first true entry ∧
        marks.Allow site.function.blocks.size one through way.terminator ∧
        marks.Allow site.function.blocks.size two (marks.secondLive && throughToo)
          wayToo.terminator)
      (second : marks.secondLive = true →
        site.function.blocks.size + 1 ∈ entry.targets ∨
        through = true ∧ site.function.blocks.size + 1 ∈ way.terminator.targets)
      (third : marks.thirdLive = true →
        through = true ∧ site.function.blocks.size + 2 ∈ way.terminator.targets ∨
        (marks.secondLive && throughToo) = true ∧
          site.function.blocks.size + 2 ∈ wayToo.terminator.targets) :
      Writes unit? site marks.first (last.go wayToo (site.function.blocks.size + 2)) marks.third
        marks.thirdLive
  | trans {first second third : Site} {one two three : Set Nat} {through throughToo : Bool}
      (early : Writes unit? first one second two through)
      (late : Writes unit? second two third three throughToo) :
      Writes unit? first one third three (through && throughToo)
  | weaken {site later : Site} {slots more fewer : Set Nat} {through : Bool}
      (writes : Writes unit? site slots later more through) (less : fewer ⊆ more) :
      Writes unit? site slots later fewer through

variable {unit? : Option Module} {unit : Module} {site later : Site} {slots more : Set Nat}
  {through : Bool} {chart : Nat → Fact → Prop}

/-! ### Charts of code -/

theorem Admits.mono {grown : Module} {instr : Instr} (admits : site.Admits unit slots instr)
    (grows : unit.Grows grown) : site.Admits grown slots instr :=
  ⟨admits.typed.mono grows,
    fun operand member => (admits.offers operand member).straight .refl grows,
    admits.guarded.mono grows (.refl _) fun _ => id⟩

theorem Admits.right {instr : Instr} (admits : site.Admits unit slots instr)
    {entered : Fact → Prop} {code : List Instr} {landed : Site}
    (grows : site.function.Grows landed.function)
    (offers : ∀ operand ∈ instr.operands, operand.Resolves unit landed.function (writtenBy code))
    (knows : ∀ slot ∈ slots, (Fact.reserved slot).Behind code entered) :
    instr.Right unit landed.function entered code :=
  ⟨⟨offers, admits.typed⟩, admits.guarded.mono (.refl _) grows knows⟩

/-- Adding an instruction keeps what is known, and a variable that it reserves is known as well. -/
theorem charted_emit (instr : Instr) (charted : site.function.Charted unit? chart)
    (right : ∀ unit ∈ unit?, ∀ entered : Fact → Prop,
      (∀ fact, site.Knows chart fact → fact.Behind site.landing.current.code.toList entered) →
      instr.Right unit site.landing.function entered site.landing.current.code.toList) :
    ∃ chartToo, Agree site.function.blocks.size chart chartToo ∧
      (site.emit instr).function.Charted unit? chartToo ∧
      (∀ fact, site.Knows chart fact → (site.emit instr).Knows chartToo fact) ∧
      ∀ slot ∈ reservedBy [instr], (site.emit instr).Knows chartToo (.reserved slot) := by
  obtain ⟨chartToo, agree, landed, keeps⟩ := charted_landing charted
  have code : (site.emit instr).current.code.toList =
      site.landing.current.code.toList ++ [instr] := by
    rw [emit, push_current, Array.toList_push]
  refine ⟨chartToo, agree, charted_push landed site.landing_terminated fun unit member =>
    right unit member _ keeps, fun fact knows => .inr ?_, fun slot member => .inr ?_⟩
  · rw [code]
    exact (keeps fact knows).append
  · rw [code]
    refine .inr ?_
    rw [reservedBy_append]
    exact List.mem_append_right _ member

/-- The charts of the three blocks of a construct. -/
def Marks.onto (marks : Marks) (base : Nat) (dead : Prop) (chart : Nat → Fact → Prop)
    (place : Nat) : Fact → Prop :=
  if place < base then chart place
  else if place = base then Fact.In marks.first dead
  else if place = base + 1 then Fact.In marks.second (dead ∨ marks.secondLive = false)
  else Fact.In marks.third (dead ∨ marks.thirdLive = false)

/-- Where branches are allowed, the block can be left for one of the three. -/
theorem Marks.Allow.go {charts : Nat → Fact → Prop} {marks : Marks} {base : Nat} {dead : Prop}
    {live : Bool} (way : Way) (block : Nat) (allows : marks.Allow base slots live way.terminator)
    (closes : ∀ unit ∈ unit?, site.Closes unit way.terminator)
    (isNot : way.terminator ≠ .unreachable) (charted : site.function.Charted unit? charts)
    (agree : Agree (base + 3) (marks.onto base dead chart) charts)
    (size : base + 3 ≤ site.function.blocks.size) (inside : block < base + 3)
    (knows : ∀ fact, fact.In slots (dead ∨ live = false) → site.Knows charts fact) :
    ∃ chartToo, Agree (base + 3) (marks.onto base dead chart) chartToo ∧
      (site.go way block).function.Charted unit? chartToo ∧
      ∀ fact, marks.onto base dead chart block fact → (site.go way block).Knows chartToo fact := by
  have deader {mark : Bool} (follows : live = true → mark = true)
      (isDead : dead ∨ mark = false) : dead ∨ live = false := by
    cases live <;> simp_all
  have ends : Ends unit? site charts way.terminator := by
    refine ⟨closes, fun target listed => ?_, fun isUnreachable => (isNot isUnreachable).elim⟩
    rcases allows target listed with ⟨rfl, less⟩ | ⟨rfl, less, follows⟩ | ⟨rfl, less, follows⟩
    all_goals
      refine ⟨by omega, fun fact marked => knows fact ?_⟩
      rw [agree _ (by omega), Marks.onto] at marked
    · rw [if_neg (Nat.lt_irrefl _), if_pos rfl] at marked
      exact marked.mono less .inl
    · rw [if_neg (by omega), if_neg (by omega), if_pos rfl] at marked
      exact marked.mono less (deader follows)
    · rw [if_neg (by omega), if_neg (by omega), if_neg (by omega)] at marked
      exact marked.mono less (deader follows)
  obtain ⟨chartToo, agreeToo, charted, enters⟩ := ends.go charted (Nat.lt_of_lt_of_le inside size)
  refine ⟨chartToo, agree.trans agreeToo size, charted, fun fact marked => enters fact ?_⟩
  rwa [agree block inside]

theorem Closes.addBlocks {terminator : Terminator} (closes : site.Closes unit terminator)
    (stems : Stems) : (site.addBlocks stems).Closes unit terminator :=
  ⟨closes.1, fun operand listed => ⟨(closes.2 operand listed).offers.addBlocks stems,
    (closes.2 operand listed).value.mono (Confined.addBlocks site stems).grows⟩⟩

namespace Writes

/-! ### What code leaves alone -/

theorem confined (writes : Writes unit? site slots later more through) : site.Confined later := by
  induction writes with
  | refl => exact .refl _
  | emit instr => exact .emit _ instr
  | define type instr => exact .define _ type instr
  | reserve name type => exact .reserve _ name type
  | ret value => exact .finish _ _
  | @construct site middle last _ _ _ _ names marks entry way wayToo _ _ _ _ _ _ _ _ early late =>
    have size := @fork_size site entry names
    have earlySize := early.grows.size_le
    have waySize := (go_grows middle way (site.function.blocks.size + 1)).size_le
    have lateSize := late.grows.size_le
    have toMiddle := (Confined.fork site names entry).trans early
    exact ((toMiddle.go way (Nat.le_succ _) (by omega)).trans late).go wayToo (Nat.le_add_right _ _)
      (by omega)
  | trans _ _ early late => exact early.trans late
  | weaken _ _ confined => exact confined

/-- Blocks that wait behind the code have waited before it. -/
theorem waiting (writes : Writes unit? site slots later more through) {place : Nat}
    (waiting : later.Waiting place) : site.Waiting place := by
  induction writes generalizing place with
  | refl => exact waiting
  | emit => exact waiting_emit waiting
  | define => exact @waiting_emit (takeRegister _) _ _ waiting
  | reserve => exact @waiting_emit (addLocal _ _ _) _ _ waiting
  | ret value =>
    obtain ⟨_, block, found, going⟩ := waiting
    exact @waiting_exit _ _ _ (.finish _) found going
  | @construct site middle last _ _ _ _ names marks entry way wayToo _ _ _ early late _ _ _ inner
      innerToo =>
    have size := @fork_size site entry names
    have earlySize := early.confined.grows.size_le
    have waySize := (go_grows middle way (site.function.blocks.size + 1)).size_le
    have lateSize := late.confined.grows.size_le
    obtain ⟨notThird, waits⟩ := waiting_go (by omega) waiting
    obtain ⟨notSecond, waits⟩ := waiting_go (by omega) (innerToo waits)
    rcases waiting_fork (inner waits) with second | third | waits
    · exact (notSecond second).elim
    · exact (notThird third).elim
    · exact waits
  | trans _ _ early late => exact early (late waiting)
  | weaken _ _ inner => exact inner waiting

/-! ### Charts of code -/

/-- Code extends every chart, and what is reserved or cannot be reached behind it is known. -/
theorem charted (writes : Writes unit? site slots later more through) (dead : Prop)
    (charted : site.function.Charted unit? chart)
    (knows : ∀ fact, fact.In slots dead → site.Knows chart fact) :
    ∃ chartToo, Agree site.function.blocks.size chart chartToo ∧
      later.function.Charted unit? chartToo ∧
      ∀ fact, fact.In more (dead ∨ through = false) → later.Knows chartToo fact := by
  induction writes generalizing chart dead with
  | refl => exact ⟨chart, fun _ _ => rfl, charted, by simpa using knows⟩
  | @emit site slots instr admits =>
    obtain ⟨chartToo, agree, chartedToo, keeps, _⟩ := charted_emit instr charted
      fun unit member entered behind => (admits unit member).2.right (Confined.landing site).grows
        (fun operand listed => ((admits unit member).2.offers operand listed).landing)
        fun slot reserved => behind _ (knows _ reserved)
    exact ⟨chartToo, agree, chartedToo,
      fun fact isIn => keeps fact (knows fact (by simpa using isIn))⟩
  | @define site slots type instr admits =>
    have taken := (Confined.takeRegister site).grows
    have knowsToo : ∀ fact, fact.In slots dead → site.takeRegister.Knows chart fact := by
      unfold Knows
      rw [takeRegister_terminated, takeRegister_current]
      exact knows
    obtain ⟨chartToo, agree, chartedToo, keeps, _⟩ := charted_emit _ (charted.of_blocks taken rfl)
      fun unit member entered behind => (admits unit member).2.right
        (taken.trans (Confined.landing site.takeRegister).grows)
        (fun operand listed => ((admits unit member).2.offers operand listed).takeRegister.landing)
        fun slot reserved => behind _ (knowsToo _ reserved)
    exact ⟨chartToo, agree, chartedToo, fun fact isIn =>
      keeps fact (knowsToo fact (by simpa using isIn))⟩
  | @reserve site slots name type =>
    have added := (Confined.addLocal site name type).grows
    have knowsToo : ∀ fact, fact.In slots dead → (site.addLocal name type).Knows chart fact := by
      unfold Knows
      rw [addLocal_terminated, addLocal_current]
      exact knows
    obtain ⟨chartToo, agree, chartedToo, keeps, gains⟩ :=
      charted_emit (.alloca (site.nextSlot type))
      (charted.of_blocks added rfl) fun unit member entered behind => by
        refine ⟨⟨fun operand listed => ?_, rfl⟩, trivial⟩
        rw [List.mem_singleton.mp listed]
        have landed := (Confined.landing (site.addLocal name type)).grows
        have found := landed.locals _ _ (Array.getElem?_push_size : (site.function.locals.push
          ⟨name, type⟩)[site.function.locals.size]? = some ⟨name, type⟩)
        exact congrArg (Option.map Local.type) found
    refine ⟨chartToo, agree, chartedToo, fun fact isIn => ?_⟩
    cases fact with
    | dead => exact keeps _ (knowsToo .dead (isIn.resolve_right nofun))
    | reserved slot =>
      rcases isIn with rfl | old
      · exact gains _ (List.mem_singleton_self _)
      · exact keeps _ (knowsToo _ old)
  | @ret site slots value more closes =>
    obtain ⟨chartToo, agree, left⟩ := @Ends.exit _ _ _ (.finish (.ret value))
      ⟨closes, by simp [Terminator.targets, Way.terminator], nofun⟩ charted
    exact ⟨chartToo, agree, left, fun fact _ => .inl (finish_terminated _ _)⟩
  | @construct site middle last one two through throughToo names marks entry way wayToo _ closes
      dead' early late allows _ _ inner innerToo =>
    have size := @fork_size site entry names
    have earlySize := early.confined.grows.size_le
    have waySize := (go_grows middle way (site.function.blocks.size + 1)).size_le
    have lateSize := late.confined.grows.size_le
    -- The new blocks are charted before they are there.
    have agree : Agree site.function.blocks.size chart
        (marks.onto site.function.blocks.size dead chart) := fun place inside => if_pos inside
    have added := (((charted.remark agree).addBlock names.first).addBlock names.second).addBlock
      names.third
    have start : ∀ fact, fact.In marks.first (dead ∨ true = false) →
        (site.addBlocks names).Knows
          (marks.onto site.function.blocks.size dead chart) fact := by
      intro fact isIn
      unfold Knows
      rw [addBlocks, addBlock_terminated, addBlock_terminated, addBlock_terminated,
        addBlock_current,
        addBlock_current, addBlock_current]
      show _ ∨ fact.Behind _ (marks.onto _ dead chart site.block)
      rw [agree site.block site.inside]
      exact knows fact (by simpa using isIn)
    obtain ⟨first, agreeFirst, charted, entered⟩ := Marks.Allow.go (.finish entry)
      site.function.blocks.size allows.1
      (fun unit member => (closes unit member).1.addBlocks names) dead'.1 added
      (fun _ _ => rfl) (by simp) (by omega) start
    rw [Marks.onto, if_neg (Nat.lt_irrefl _), if_pos rfl] at entered
    obtain ⟨second, agreeSecond, charted, known⟩ := inner _ charted entered
    obtain ⟨third, agreeThird, charted, entered⟩ := allows.2.1.go way
      (site.function.blocks.size + 1) (fun unit member => (closes unit member).2.1)
      dead'.2.1 charted
      (agreeFirst.trans agreeSecond size) (by omega) (by omega) known
    rw [Marks.onto, if_neg (by omega), if_neg (by omega), if_pos rfl] at entered
    obtain ⟨fourth, agreeFourth, charted, known⟩ := innerToo _ charted entered
    obtain ⟨last, agreeLast, charted, entered⟩ := allows.2.2.go wayToo
      (site.function.blocks.size + 2) (fun unit member => (closes unit member).2.2)
      dead'.2.2 charted
      (agreeThird.trans agreeFourth (by omega)) (by omega) (by omega)
      (fun fact isIn => known fact (isIn.mono (fun _ => id) (by
        rw [Bool.and_eq_false_iff, or_assoc]
        exact id)))
    rw [Marks.onto, if_neg (by omega), if_neg (by omega), if_neg (by omega)] at entered
    exact ⟨last, agree.trans agreeLast (by omega), charted, entered⟩
  | trans early late inner innerToo =>
    obtain ⟨chartToo, agree, charted, knows⟩ := inner _ charted knows
    obtain ⟨chartThird, agreeToo, charted, knows⟩ := innerToo _ charted knows
    refine ⟨chartThird, agree.trans agreeToo early.confined.grows.size_le, charted,
      fun fact isIn => knows fact (isIn.mono (fun _ => id) ?_)⟩
    rw [Bool.and_eq_false_iff, or_assoc]
    exact id
  | weaken _ less inner =>
    obtain ⟨chartToo, agree, charted, knows⟩ := inner _ charted knows
    exact ⟨chartToo, agree, charted, fun fact isIn => knows fact (isIn.mono less id)⟩

/-- Where control comes through code, a path leads to its end. -/
theorem reaches (writes : Writes unit? site slots later more through) (isThrough : through = true)
    (going : site.terminated = false) :
    later.terminated = false ∧ later.function.Reaches site.block later.block := by
  have straight {site later : Site} (straight : site.Straight later)
      (going : site.terminated = false) : later.terminated = false ∧
        later.function.Reaches site.block later.block :=
    ⟨straight.open going, by rw [straight.block_eq going]; exact .refl⟩
  induction writes with
  | refl => exact ⟨going, .refl⟩
  | emit instr => exact straight (.emit .refl instr) going
  | define type instr => exact straight (.define .refl type instr) going
  | reserve name type => exact straight (.reserve .refl name type) going
  | ret => cases isThrough
  | @construct site middle last _ _ through throughToo names marks entry way wayToo enters _ _ early
      late _ second third inner innerToo =>
    have size := @fork_size site entry names
    have earlySize := early.confined.grows.size_le
    have waySize := (go_grows middle way (site.function.blocks.size + 1)).size_le
    have lateSize := late.confined.grows.size_le
    have grows := go_grows last wayToo (site.function.blocks.size + 2)
    have lateGrows := late.confined.grows.trans grows
    have wayGrows := (go_grows middle way (site.function.blocks.size + 1)).trans lateGrows
    have waits : middle.Waiting (site.function.blocks.size + 2) :=
      early.confined.waiting (fork_waiting (by omega) (by omega))
    have waitsToo : last.Waiting (site.function.blocks.size + 2) :=
      late.confined.waiting (go_waiting (by omega) waits (by omega))
    rw [go_block (by omega)]
    refine ⟨go_open waitsToo, ?_⟩
    -- Every path goes through the first block or leaves the site for the second.
    have leaves (target : Nat) (listed : target ∈ entry.targets) :
        (site.fork names entry).function.Reaches site.block target :=
      @go_reaches (site.addBlocks names) (.finish entry) _
        (by simpa [addBlocks] using going) target listed
    have toFirst := leaves _ enters
    have toMiddle (isThrough : through = true) : middle.terminated = false ∧
        middle.function.Reaches site.block middle.block := by
      obtain ⟨going, path⟩ := inner isThrough fork_open
      rw [fork_block] at path
      exact ⟨going, (early.confined.grows.reaches toFirst).trans path⟩
    rcases third isThrough with ⟨isThrough, listed⟩ | ⟨both, listed⟩
    · obtain ⟨going, path⟩ := toMiddle isThrough
      exact (wayGrows.reaches path).trans (lateGrows.reaches (go_reaches going listed))
    · obtain ⟨isLive, isThroughToo⟩ := Bool.and_eq_true_iff.mp both
      obtain ⟨going, path⟩ := innerToo isThroughToo
        (go_open (early.confined.waiting (fork_waiting (by omega) (by omega))))
      rw [go_block (by omega)] at path
      have toSecond : (middle.go way (site.function.blocks.size + 1)).function.Reaches site.block
          (site.function.blocks.size + 1) := by
        rcases second isLive with listed | ⟨isThrough, listed⟩
        · exact ((early.confined.grows.trans (go_grows _ _ _)).reaches (leaves _ listed))
        · obtain ⟨going, path⟩ := toMiddle isThrough
          exact ((go_grows _ _ _).reaches path).trans (go_reaches going listed)
      exact (grows.reaches ((late.confined.grows.reaches toSecond).trans path)).trans
        (go_reaches going listed)
  | trans early late inner innerToo =>
    obtain ⟨isThrough, isThroughToo⟩ := Bool.and_eq_true_iff.mp isThrough
    obtain ⟨going, path⟩ := inner isThrough going
    obtain ⟨going, pathToo⟩ := innerToo isThroughToo going
    exact ⟨going, (late.confined.grows.reaches path).trans pathToo⟩
  | weaken _ _ inner => exact inner isThrough going

end Writes

/-! ### Registers of code -/

/-- Every register is written once. -/
def Numbered (site : Site) : Prop :=
  (site.function.definitions.map Register.id).Perm (List.range site.function.registers)

theorem Numbered.addBlock (numbered : site.Numbered) (stem : Bytes) :
    (site.addBlock stem).Numbered := by
  unfold Numbered at numbered ⊢
  rwa [Site.addBlock, Function.definitions_addBlock]

theorem Numbered.landing (numbered : site.Numbered) : site.landing.Numbered := by
  unfold Numbered at numbered ⊢
  rwa [definitions_landing, landing_registers]

theorem Numbered.close (numbered : site.Numbered) (terminator : Terminator) :
    (site.close terminator).Numbered := by
  have perm := site.definitions_modifyBlock
    (fun block => { block with terminator := some terminator }) [] (List.append_nil _).symm
  rw [List.append_nil] at perm
  exact (perm.map _).trans numbered

theorem Numbered.endWith (numbered : site.Numbered) (terminator : Terminator) :
    (site.endWith terminator).Numbered := by
  cases ended : site.terminated with
  | true => rwa [endWith_of_terminated ended]
  | false =>
    rw [endWith_of_open ended]
    exact numbered.close terminator

theorem Numbered.exit (numbered : site.Numbered) (way : Way) : (site.exit way).Numbered := by
  cases way with
  | finish terminator => exact numbered.landing.close terminator
  | leave target => exact numbered.endWith _

theorem Numbered.go (numbered : site.Numbered) (way : Way) (block : Nat) :
    (site.go way block).Numbered := by
  unfold Numbered
  rw [Site.go, moveTo_function]
  exact numbered.exit way

theorem Numbered.emit (numbered : site.Numbered) {instr : Instr} (noOut : instr.out? = none) :
    (site.emit instr).Numbered := by
  have perm := site.landing.definitions_push instr
  rw [noOut, Option.toList_none, List.append_nil] at perm
  exact (perm.map _).trans numbered.landing

theorem Numbered.define (numbered : site.Numbered) {type : Ty} {instr : Register → Instr}
    (out : (instr (site.nextRegister type)).out? = some (site.nextRegister type)) :
    (site.define type instr).Numbered := by
  have perm := site.takeRegister.landing.definitions_push (instr (site.nextRegister type))
  rw [out, definitions_landing] at perm
  refine (perm.map _).trans ?_
  show List.Perm _ (List.range site.takeRegister.landing.function.registers)
  rw [landing_registers, List.map_append]
  show List.Perm _ (List.range (site.function.registers + 1))
  rw [List.range_succ]
  exact numbered.append_right _

namespace Writes

theorem numbered (writes : Writes (some unit) site slots later more through)
    (numbered : site.Numbered) : later.Numbered := by
  induction writes with
  | refl => exact numbered
  | emit instr admits => exact numbered.emit (admits unit rfl).1
  | define type instr admits => exact numbered.define (admits unit rfl).1
  | reserve name type => exact @Numbered.emit (addLocal _ name type) numbered _ rfl
  | ret value => exact numbered.exit (.finish _)
  | construct names marks entry way wayToo _ _ _ _ _ _ _ _ inner innerToo =>
    have passed := inner ((((numbered.addBlock _).addBlock _).addBlock _).go _ _)
    exact (innerToo (passed.go _ _)).go _ _
  | trans _ _ inner innerToo => exact innerToo (inner numbered)
  | weaken _ _ inner => exact inner numbered

end Writes

/-! ### Blocks are counted -/

/-- The blocks with a stem are counted, and no stem ends in a digit. -/
def Marked (site : Site) : Prop := Counted site.function.marks

theorem Marked.addBlock (marked : site.Marked) {stem : Bytes} (whole : stem.trunk = stem) :
    (site.addBlock stem).Marked := by
  have isMark : (site.function.addBlock stem).marks =
      site.function.marks ++ [(stem, site.function.marks.countP (·.1 = stem))] := by
    simp [Function.addBlock, Function.marks, Function.nextBlock, List.countP_map, Function.comp_def]
  show Counted (site.function.addBlock stem).marks
  rw [isMark]
  exact marked.snoc whole

theorem Marked.modifyBlock (marked : site.Marked) {change : Block → Block}
    (same : ∀ block, ((change block).stem, (change block).copy) = (block.stem, block.copy)) :
    (site.modifyBlock change).Marked := by
  have unchanged : (site.modifyBlock change).function.marks = site.function.marks := by
    refine List.ext_getElem? fun index => ?_
    simp only [Function.marks, Site.modifyBlock, List.getElem?_map, Array.getElem?_toList,
      Array.getElem?_modify]
    split
    · simp [Function.comp_def, same]
    · rfl
  unfold Marked
  rwa [unchanged]

theorem Marked.landing (marked : site.Marked) : site.landing.Marked := by
  unfold Site.landing
  split
  · exact marked.addBlock (by decide)
  · exact marked

theorem Marked.endWith (marked : site.Marked) (terminator : Terminator) :
    (site.endWith terminator).Marked := by
  unfold Site.endWith
  split
  · exact marked
  · exact marked.modifyBlock fun _ => rfl

theorem Marked.go (marked : site.Marked) (way : Way) (block : Nat) :
    (site.go way block).Marked := by
  unfold Marked
  rw [Site.go, moveTo_function]
  cases way with
  | finish terminator => exact marked.landing.modifyBlock fun _ => rfl
  | leave target => exact marked.endWith _

theorem Writes.marked (writes : Writes unit? site slots later more through) (marked : site.Marked) :
    later.Marked := by
  induction writes with
  | refl => exact marked
  | emit instr => exact marked.landing.modifyBlock fun _ => rfl
  | define type instr => exact (@Marked.landing (takeRegister _) marked).modifyBlock fun _ => rfl
  | reserve name type => exact (@Marked.landing (addLocal _ _ _) marked).modifyBlock fun _ => rfl
  | ret value => exact marked.landing.modifyBlock fun _ => rfl
  | construct names marks entry way wayToo _ _ _ _ _ _ _ _ inner innerToo =>
    have added := ((marked.addBlock names.whole.1).addBlock names.whole.2.1).addBlock
      names.whole.2.2
    exact (innerToo ((inner (added.go _ _)).go _ _)).go _ _
  | trans _ _ inner innerToo => exact innerToo (inner marked)
  | weaken _ _ inner => exact inner marked

namespace Writes

/-! ### Branches and loops -/

theorem straight_none (straight : site.Straight later) : Writes none site ∅ later ∅ true := by
  induction straight with
  | refl => exact .refl
  | emit _ instr writes => exact writes.trans (.emit instr nofun)
  | define _ type instr writes => exact writes.trans (.define type instr nofun)
  | reserve _ name type writes =>
    exact writes.trans ((reserve name type).weaken (Set.empty_subset _))

variable {atTest atThen atElse atBody : Site} {one two : Bool} {test : Operand}

/-- A test by which a block can be left. -/
theorem closes_branchIf (isTest : test.type = .i1) (known : site.Known unit test)
    (consequent alternative : Nat) :
    site.Closes unit (.branchIf test consequent alternative) :=
  ⟨isTest, by simpa [Terminator.operands] using known⟩

theorem closes_branch (unit : Module) (site : Site) (target : Nat) :
    site.Closes unit (.branch target) :=
  ⟨trivial, nofun⟩

/-- A conditional: each of its branches leads to the third block. -/
theorem branch (names : Stems)
    (tests : ∀ unit ∈ unit?, test.type = .i1 ∧ site.Known unit test)
    (consequent : Writes unit? (site.fork names (.branchIf test
      site.function.blocks.size (site.function.blocks.size + 1))) slots atThen slots one)
    (alternative : Writes unit? (atThen.go (.leave (site.function.blocks.size + 2))
      (site.function.blocks.size + 1)) slots atElse slots two) :
    Writes unit? site slots (atElse.go (.leave (site.function.blocks.size + 2))
      (site.function.blocks.size + 2)) slots (one || two) :=
  .construct names ⟨slots, slots, slots, true, one || two⟩ _ (.leave _) (.leave _)
    (by simp [Terminator.targets])
    (fun unit member => ⟨closes_branchIf (tests unit member).1 (tests unit member).2 _ _,
      closes_branch _ _ _, closes_branch _ _ _⟩)
    ⟨nofun, nofun, nofun⟩ consequent alternative
    ⟨by simp [Marks.Allow, Terminator.targets],
      by simp +contextual [Marks.Allow, Terminator.targets, Way.terminator],
      by simp +contextual [Marks.Allow, Terminator.targets, Way.terminator]⟩
    (by simp [Terminator.targets])
    (by simp [Terminator.targets, Way.terminator])

/-- A loop that tests before its body. -/
theorem loop (names : Stems)
    (testing : Writes unit? (site.fork names
      (.branch site.function.blocks.size)) slots atTest slots true)
    (tests : ∀ unit ∈ unit?, test.type = .i1 ∧ atTest.Known unit test)
    (body : Writes unit? (atTest.go (.finish (.branchIf test (site.function.blocks.size + 1)
      (site.function.blocks.size + 2))) (site.function.blocks.size + 1)) slots atBody slots one) :
    Writes unit? site slots (atBody.go (.leave site.function.blocks.size)
      (site.function.blocks.size + 2)) slots true :=
  .construct names ⟨slots, slots, slots, true, true⟩ _ (.finish _) (.leave _)
    (by simp [Terminator.targets])
    (fun unit member => ⟨closes_branch _ _ _,
      closes_branchIf (tests unit member).1 (tests unit member).2 _ _, closes_branch _ _ _⟩)
    ⟨nofun, nofun, nofun⟩ testing body
    ⟨by simp [Marks.Allow, Terminator.targets],
      by simp [Marks.Allow, Terminator.targets, Way.terminator],
      by simp [Marks.Allow, Terminator.targets, Way.terminator]⟩
    (by simp [Terminator.targets, Way.terminator])
    (by simp [Terminator.targets, Way.terminator])

/-- A loop that tests behind its body, in the same scope. -/
theorem loopUntil (names : Stems) (less : slots ⊆ more)
    (body : Writes unit? (site.fork names
      (.branch site.function.blocks.size)) slots atBody more one)
    (testing : Writes unit? (atBody.go (.leave (site.function.blocks.size + 1))
      (site.function.blocks.size + 1)) more atTest more true)
    (tests : ∀ unit ∈ unit?, test.type = .i1 ∧ atTest.Known unit test) :
    Writes unit? site slots (atTest.go (.finish (.branchIf test (site.function.blocks.size + 2)
      site.function.blocks.size)) (site.function.blocks.size + 2)) more one :=
  .construct names ⟨slots, more, more, one, one⟩ _ (.leave _) (.finish _)
    (by simp [Terminator.targets])
    (fun unit member => ⟨closes_branch _ _ _, closes_branch _ _ _,
      closes_branchIf (tests unit member).1 (tests unit member).2 _ _⟩)
    ⟨nofun, nofun, nofun⟩ body testing
    ⟨by simp [Marks.Allow, Terminator.targets],
      by simp [Marks.Allow, Terminator.targets, Way.terminator],
      by simp [Marks.Allow, Terminator.targets, Way.terminator, less]⟩
    (by simp [Terminator.targets, Way.terminator])
    (by simp [Terminator.targets, Way.terminator])

end Writes

end Pascaline.IR.Site
