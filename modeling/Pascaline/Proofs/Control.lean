/-
Branches and loops as they are written. There are three constructs: a branch, a loop that tests
first and a loop that tests last. Each adds three blocks, whose numbers are the next three, and
then writes its parts one after the other; the statements here say at which site every part starts
and where the construct leaves the builder.

Together with straight-line code this shows that lowering any node writes code behind the insertion
point, and adds names to the innermost scope only.
-/

import Pascaline.Proofs.Extension
import Pascaline.Proofs.Writing

namespace Pascaline

open IR (Build Operand Slot Site)

variable {Result Next : Type}

/-! ### Scopes that gain symbols -/

namespace Table

/-- The scopes with symbols added to the innermost one. -/
def widen (added : Scope) : List Scope → List Scope
  | [] => []
  | scope :: outer => (added ++ scope) :: outer

/-- The second table has the names of the first and more in the innermost scope. -/
def Widens (first second : Table) : Prop := ∃ added, second.scopes = widen added first.scopes

theorem Widens.refl (table : Table) : table.Widens table :=
  ⟨[], by cases table.scopes <;> rfl⟩

theorem Widens.trans {first second third : Table} (early : first.Widens second)
    (late : second.Widens third) : first.Widens third := by
  obtain ⟨added, widened⟩ := early
  obtain ⟨addedLater, widenedLater⟩ := late
  refine ⟨addedLater ++ added, ?_⟩
  rw [widenedLater, widened]
  cases first.scopes with
  | nil => rfl
  | cons scope outer => simp [widen]

/-- A scope that is left takes everything with it that was declared inside. -/
theorem Widens.exit {first second : Table} (widens : first.enter.Widens second) :
    second.exit = first := by
  obtain ⟨added, widened⟩ := widens
  show Table.mk second.scopes.tail = first
  rw [widened]
  rfl

/-- A declaration only adds to the innermost scope; the scopes around it stay. -/
theorem Widens.cons (symbol : Symbol) {table : Table} {scope : Scope} {outer : List Scope}
    (scopes : table.scopes = scope :: outer) : table.Widens ⟨(symbol :: scope) :: outer⟩ :=
  ⟨[symbol], by rw [scopes]; rfl⟩

end Table

namespace Lowering

variable {before middle after tested : Workspace} {id : Nat} {site later : Site}
  {table : Table} {step : Lower Result} {result : Unit} {condition : Lower Operand}
  {body start : Lower Unit} {names : IR.Stems}

/-- The workspace with the builder at another site of the function that it writes. -/
def Workspace.place (workspace : Workspace) (id : Nat) (site : Site) : Workspace :=
  { workspace with builder := workspace.builder.place id site }

theorem Workspace.extends_place (holds : before.builder.Holds id site)
    (grows : site.function.Grows later.function) : before.Extends (before.place id later) :=
  .of_builder (holds.extends_place grows) rfl

/-- An external stays declared as long as functions only grow. -/
theorem Workspace.Coherent.place (coherent : before.Coherent) (holds : before.builder.Holds id site)
    (grows : site.function.Grows later.function) : (before.place id later).Coherent :=
  (Workspace.extends_place holds grows).coherent coherent

theorem bind_of_ok {value : Result} (lowered : step before = .ok value middle)
    (next : Result → Lower Next) : (step >>= next) before = next value middle := by
  simp only [bind, EStateM.bind, lowered]

/-! ### Ways from block to block -/

theorem finish_ok (holds : before.builder.Holds id site) (terminator : IR.Terminator) :
    build (Build.finish terminator) before = .ok () (before.place id (site.finish terminator)) := by
  simp only [build, Build.finish_eq holds]
  rfl

theorem moveTo_ok (holds : before.builder.Holds id site) {block : Nat}
    (inside : block < site.function.blocks.size) :
    build (Build.moveTo block) before = .ok () (before.place id (site.moveTo block)) := by
  simp only [build, Build.moveTo_eq holds inside]
  rfl

theorem newBlock_ok (holds : before.builder.Holds id site) (stem : Bytes) :
    build (Build.newBlock stem) before =
      .ok site.function.blocks.size (before.place id (site.addBlock stem)) := by
  simp only [build, Build.newBlock_eq holds]
  rfl

/-- A block that has ended keeps its end, which is what `branchTo` of a site says as well. -/
theorem branchTo_ok (holds : before.builder.Holds id site) (target : Nat) :
    branchTo target before = .ok () (before.place id (site.branchTo target)) := by
  show (if !before.builder.terminated then build (Build.branch target) else pure () : Lower Unit)
    before = _
  rw [holds.terminated, Site.branchTo]
  cases ended : site.terminated with
  | true =>
    rw [Site.endWith_of_terminated ended, Workspace.place, holds.place_self]
    rfl
  | false =>
    rw [Site.endWith_of_open ended, ← Site.finish_of_open ended]
    exact finish_ok holds _

theorem place_place (workspace : Workspace) (id : Nat) (site later : Site) :
    (workspace.place id site).place id later = workspace.place id later := by
  simp [Workspace.place]

/-- A block is left for another one. -/
theorem go_ok (holds : before.builder.Holds id site) (way : Site.Way) {leaving : Lower Unit}
    (leaves : leaving before = .ok () (before.place id (site.exit way))) {block : Nat}
    (inside : block < site.function.blocks.size) (next : Unit → Lower Result) :
    (do leaving; next (← build (Build.moveTo block))) before =
      next () (before.place id (site.go way block)) := by
  have size := (Site.Confined.exit site way).grows.size_le
  rw [bind_of_ok leaves, bind_of_ok (moveTo_ok (holds.place _) (Nat.lt_of_lt_of_le inside size)),
    place_place]
  rfl

/-- Three blocks are added, and the first one is entered. -/
theorem fork_ok (holds : before.builder.Holds id site) (names : IR.Stems)
    (entry : Nat → Nat → Nat → IR.Terminator) (next : Nat → Nat → Nat → Lower Result) :
    (do
      let one ← build (Build.newBlock names.first)
      let two ← build (Build.newBlock names.second)
      let three ← build (Build.newBlock names.third)
      build (Build.finish (entry one two three))
      build (Build.moveTo one)
      next one two three) before =
      next site.function.blocks.size (site.function.blocks.size + 1) (site.function.blocks.size + 2)
        (before.place id (site.fork names (entry site.function.blocks.size
          (site.function.blocks.size + 1) (site.function.blocks.size + 2)))) := by
  rw [bind_of_ok (newBlock_ok holds _), bind_of_ok (newBlock_ok (holds.place _) _), place_place,
    bind_of_ok (newBlock_ok (holds.place _) _), place_place]
  refine (go_ok (holds.place _) (.finish _) (finish_ok (holds.place _) _)
    (by simp only [Site.addBlock, IR.Function.addBlock, Array.size_push]; omega)
    fun _ => next _ _ _).trans ?_
  simp only [place_place, Site.fork, Site.addBlocks, Site.addBlock, IR.Function.addBlock,
    Array.size_push]

/-! ### The constructs -/

def branchStems : IR.Stems := ⟨"if.then", "if.else", "if.end", by decide⟩

def whileStems : IR.Stems := ⟨"while.cond", "while.body", "while.end", by decide⟩

def forStems : IR.Stems := ⟨"for.cond", "for.body", "for.end", by decide⟩

def repeatStems : IR.Stems := ⟨"repeat.body", "repeat.cond", "repeat.end", by decide⟩

/-- A branch. -/
def branching (condition : Lower Operand) (consequent alternative : Lower Unit) : Lower Unit := do
  let test ← lowerCondition condition
  let whenTrue ← build (Build.newBlock branchStems.first)
  let whenFalse ← build (Build.newBlock branchStems.second)
  let after ← build (Build.newBlock branchStems.third)
  build (Build.branchIf test whenTrue whenFalse)
  build (Build.moveTo whenTrue)
  consequent
  branchTo after
  build (Build.moveTo whenFalse)
  alternative
  branchTo after
  build (Build.moveTo after)

/-- A loop that tests first. -/
def looping (names : IR.Stems) (condition : Lower Operand) (body : Lower Unit) :
    Lower Unit := do
  let testing ← build (Build.newBlock names.first)
  let running ← build (Build.newBlock names.second)
  let after ← build (Build.newBlock names.third)
  build (Build.branch testing)
  build (Build.moveTo testing)
  let test ← lowerCondition condition
  build (Build.branchIf test running after)
  build (Build.moveTo running)
  body
  branchTo testing
  build (Build.moveTo after)

/-- A loop that tests last. -/
def loopingUntil (names : IR.Stems) (body : Lower Unit) (condition : Lower Operand) :
    Lower Unit := do
  let running ← build (Build.newBlock names.first)
  let testing ← build (Build.newBlock names.second)
  let after ← build (Build.newBlock names.third)
  build (Build.branch running)
  build (Build.moveTo running)
  body
  branchTo testing
  build (Build.moveTo testing)
  let test ← lowerCondition condition
  build (Build.branchIf test after running)
  build (Build.moveTo after)

theorem lowerConditional_eq (condition : Lower Operand) (consequent alternative : Lower Unit) :
    lowerConditional condition consequent alternative = branching condition
      (within .consequent (inScope consequent)) (within .alternative (inScope alternative)) := rfl

theorem lowerWhile_eq (condition : Lower Operand) (body : Lower Unit) :
    lowerWhile condition body = looping whileStems condition
      (within .body (inScope body)) := rfl

/-- A counting loop is a loop whose body ends with the step, in a scope of its own. -/
theorem lowerFor_eq (start : Lower Unit) (condition : Lower Operand) (step body : Lower Unit) :
    lowerFor start condition step body = inScope (do
      within .start start
      looping forStems condition (do
        within .body body
        within .step step)) := by
  simp only [lowerFor, looping, forStems, bind_assoc]

/-- Adding blocks does not touch the names in scope. -/
theorem lowerRepeat_eq (body : Lower Unit) (condition : Lower Operand) :
    lowerRepeat body condition = inScope
      (loopingUntil repeatStems (within .body body) condition) := rfl

/-- How a branch is written: the condition, then one block for each part, both of which lead to the
third block. -/
theorem branching_cases {consequent alternative : Lower Unit} (id : Nat)
    (lowered : branching condition consequent alternative before = .ok result after) :
    ∃ test tested, lowerCondition condition before = .ok test tested ∧
      ∀ atTest, tested.builder.Holds id atTest →
      ∃ thenDone, consequent (tested.place id (atTest.fork branchStems (.branchIf
        test atTest.function.blocks.size (atTest.function.blocks.size + 1)))) = .ok () thenDone ∧
      ∀ atThen, thenDone.builder.Holds id atThen →
        atTest.function.blocks.size + 3 ≤ atThen.function.blocks.size →
      ∃ elseDone, alternative (thenDone.place id (atThen.go (.leave
        (atTest.function.blocks.size + 2)) (atTest.function.blocks.size + 1))) = .ok () elseDone ∧
      ∀ atElse, elseDone.builder.Holds id atElse →
        atTest.function.blocks.size + 3 ≤ atElse.function.blocks.size →
      after = elseDone.place id (atElse.go (.leave (atTest.function.blocks.size + 2))
        (atTest.function.blocks.size + 2)) := by
  obtain ⟨test, tested, tests, lowered⟩ := (bind_eq_ok _ _ _ _ _).mp lowered
  refine ⟨test, tested, tests, fun atTest holds => ?_⟩
  have lowered := (fork_ok holds branchStems
    (fun one two _ => .branchIf test one two) _).symm.trans lowered
  obtain ⟨_, thenDone, runs, lowered⟩ := (bind_eq_ok _ _ _ _ _).mp lowered
  refine ⟨thenDone, runs, fun atThen holds size => ?_⟩
  have lowered := (go_ok holds (.leave _) (branchTo_ok holds _)
    (Nat.lt_of_lt_of_le (by omega) size) _).symm.trans lowered
  obtain ⟨_, elseDone, runs, lowered⟩ := (bind_eq_ok _ _ _ _ _).mp lowered
  refine ⟨elseDone, runs, fun atElse holds size => ?_⟩
  have left := (go_ok holds (.leave _) (branchTo_ok holds _)
    (Nat.lt_of_lt_of_le (by omega) size) pure).symm.trans lowered
  cases left
  rfl

/-- How a loop that tests first is written. -/
theorem looping_cases (lowered : looping names condition body before = .ok result after)
    (holds : before.builder.Holds id site) :
    ∃ test tested, lowerCondition condition (before.place id (site.fork names
        (.branch site.function.blocks.size))) = .ok test tested ∧
      ∀ atTest, tested.builder.Holds id atTest →
        site.function.blocks.size + 3 ≤ atTest.function.blocks.size →
      ∃ done, body (tested.place id (atTest.go (.finish (.branchIf test
        (site.function.blocks.size + 1) (site.function.blocks.size + 2)))
        (site.function.blocks.size + 1))) = .ok () done ∧
      ∀ atBody, done.builder.Holds id atBody →
        site.function.blocks.size + 3 ≤ atBody.function.blocks.size →
      after = done.place id (atBody.go (.leave site.function.blocks.size)
        (site.function.blocks.size + 2)) := by
  have lowered := (fork_ok holds names (fun one _ _ => .branch one) _).symm.trans lowered
  obtain ⟨test, tested, tests, lowered⟩ := (bind_eq_ok _ _ _ _ _).mp lowered
  refine ⟨test, tested, tests, fun atTest holds size => ?_⟩
  have lowered := (go_ok holds (.finish _) (finish_ok holds _)
    (Nat.lt_of_lt_of_le (by omega) size) _).symm.trans lowered
  obtain ⟨_, done, runs, lowered⟩ := (bind_eq_ok _ _ _ _ _).mp lowered
  refine ⟨done, runs, fun atBody holds size => ?_⟩
  have left := (go_ok holds (.leave _) (branchTo_ok holds _)
    (Nat.lt_of_lt_of_le (by omega) size) pure).symm.trans lowered
  cases left
  rfl

/-- How a loop that tests last is written. -/
theorem loopingUntil_cases (lowered : loopingUntil names body condition before = .ok result after)
    (holds : before.builder.Holds id site) :
    ∃ done, body (before.place id (site.fork names
        (.branch site.function.blocks.size))) = .ok () done ∧
      ∀ atBody, done.builder.Holds id atBody →
        site.function.blocks.size + 3 ≤ atBody.function.blocks.size →
      ∃ test tested, lowerCondition condition (done.place id (atBody.go (.leave
        (site.function.blocks.size + 1)) (site.function.blocks.size + 1))) = .ok test tested ∧
      ∀ atTest, tested.builder.Holds id atTest →
        site.function.blocks.size + 3 ≤ atTest.function.blocks.size →
      after = tested.place id (atTest.go (.finish (.branchIf test (site.function.blocks.size + 2)
        site.function.blocks.size)) (site.function.blocks.size + 2)) := by
  have lowered := (fork_ok holds names (fun one _ _ => .branch one) _).symm.trans lowered
  obtain ⟨_, done, runs, lowered⟩ := (bind_eq_ok _ _ _ _ _).mp lowered
  refine ⟨done, runs, fun atBody holds size => ?_⟩
  have lowered := (go_ok holds (.leave _) (branchTo_ok holds _)
    (Nat.lt_of_lt_of_le (by omega) size) _).symm.trans lowered
  obtain ⟨test, tested, tests, lowered⟩ := (bind_eq_ok _ _ _ _ _).mp lowered
  refine ⟨test, tested, tests, fun atTest holds size => ?_⟩
  have left := (go_ok holds (.finish _) (finish_ok holds _)
    (Nat.lt_of_lt_of_le (by omega) size) pure).symm.trans lowered
  cases left
  rfl

/-! ### Steps that extend a workspace -/

/-- What lowering a node at a site leads to, where control comes through or never does. -/
structure Extended (before : Workspace) (id : Nat) (site : Site) (through : Bool)
    (after : Workspace) (later : Site) : Prop extends before.Extends after where
  holds : after.builder.Holds id later
  writes : Site.Writes none site ∅ later ∅ through
  table : before.table.Allocated → after.table.Allocated ∧ before.table.Widens after.table

variable {through throughToo : Bool}

theorem Extended.confined (extended : Extended before id site through after later) :
    site.Confined later := extended.writes.confined

/-- Control comes through both parts only if it comes through each. -/
theorem Extended.trans {third : Workspace} {siteToo : Site}
    (early : Extended before id site through middle siteToo)
    (late : Extended middle id siteToo throughToo third later) :
    Extended before id site (through && throughToo) third later := by
  refine ⟨early.toExtends.trans late.toExtends, late.holds, early.writes.trans late.writes,
    fun allocated => ?_⟩
  obtain ⟨stillAllocated, widens⟩ := early.table allocated
  obtain ⟨allocatedAfter, widensMore⟩ := late.table stillAllocated
  exact ⟨allocatedAfter, widens.trans widensMore⟩

theorem Written.extended (written : Written before id site after later) :
    Extended before id site true after later := by
  refine ⟨written.toExtends, written.holds, .straight_none written.straight, fun allocated => ?_⟩
  rw [written.table allocated]
  exact ⟨allocated, .refl _⟩

/-- A step of lowering that extends the workspace whenever it succeeds. -/
def Extending (through : Bool) (step : Lower Result) : Prop :=
  ∀ ⦃before : Workspace⦄ ⦃result : Result⦄ ⦃after : Workspace⦄, step before = .ok result after →
    ∀ ⦃id : Nat⦄ ⦃site : Site⦄, before.builder.Holds id site →
      ∃ later, Extended before id site through after later

/-- Straight code has one way on. -/
theorem Straight.extending (straight : Straight step) : Extending true step := by
  intro before result after lowered id site holds
  obtain ⟨later, written⟩ := straight lowered holds
  exact ⟨later, written.extended⟩

namespace Extending

theorem bind {next : Result → Lower Next} (first : Extending through step)
    (second : ∀ result, Extending throughToo (next result)) :
    Extending (through && throughToo) (step >>= next) := by
  intro before result after lowered id site holds
  obtain ⟨value, middle, early, late⟩ := (bind_eq_ok _ _ _ _ _).mp lowered
  obtain ⟨between, early⟩ := first early holds
  obtain ⟨later, late⟩ := second value late early.holds
  exact ⟨later, early.trans late⟩

theorem failWith {diagnostic : Diagnostic} :
    Extending through (failWith diagnostic : Lower Result) := by
  intro before result after lowered
  exact ((failWith_eq_ok _ _ _ _).mp lowered).elim

theorem statement {step : Lower Unit} (extending : Extending through step) :
    Extending through (statement step) := by
  intro before result after lowered
  exact extending ((statement_eq_ok _ _ _ _).mp lowered).1

theorem discarding {node : Node} {lowered : Lower (Option Operand)}
    (extending : Extending through lowered) : Extending through (discarding node lowered) := by
  intro before result after step
  obtain ⟨value, step⟩ := (discarding_eq_ok _ _ _ _ _).mp step
  exact extending step

theorem within {stage : Stage} (extending : Extending through step) :
    Extending through (within stage step) :=
  fun _ _ _ lowered => extending ((within_eq_ok _ _ _ _ _).mp lowered)

/-- What was declared in a scope of its own is gone behind it. -/
theorem inScope (extending : Extending through step) : Extending through (inScope step) := by
  intro before result after lowered id site holds
  obtain ⟨inner, entered, rfl⟩ := (inScope_eq_ok _ _ _ _).mp lowered
  obtain ⟨later, extended⟩ := @extending _ _ _ entered id site holds
  refine ⟨later, ⟨extended.builder, extended.coherent⟩, extended.holds, extended.writes,
    fun allocated => ?_⟩
  rw [(extended.table allocated.enter).2.exit]
  exact ⟨allocated, .refl _⟩

/-- Nothing behind a return is reached; what follows goes to a dead block. -/
theorem ret {value : Option Operand} : Extending false (build (Build.ret value)) := by
  intro before result after lowered id site holds
  cases (finish_ok holds (.ret value)).symm.trans lowered
  exact ⟨_, Workspace.extends_place holds (Site.Confined.finish _ _).grows, holds.place _,
    .ret value _ nofun, fun allocated => ⟨allocated, .refl _⟩⟩

/-- Control comes through a branch if it comes through one of its arms. -/
theorem branching {consequent alternative : Lower Unit} (straight : Straight condition)
    (first : Extending through consequent) (second : Extending throughToo alternative) :
    Extending (through || throughToo) (branching condition consequent alternative) := by
  intro before result after lowered id site holds
  obtain ⟨test, tested, tests, rest⟩ := branching_cases id lowered
  obtain ⟨atTest, written⟩ := straight.lowerCondition tests holds
  have written := written.extended
  obtain ⟨thenDone, runs, rest⟩ := rest atTest written.holds
  obtain ⟨atThen, consequents⟩ := first runs (written.holds.place _)
  have size := Nat.le_trans Site.fork_size consequents.confined.grows.size_le
  obtain ⟨elseDone, runs, rest⟩ := rest atThen consequents.holds size
  obtain ⟨atElse, alternatives⟩ := second runs (consequents.holds.place _)
  have grows := (Site.go_grows _ _ _).trans alternatives.confined.grows
  obtain rfl := rest atElse alternatives.holds (Nat.le_trans size grows.size_le)
  have branch := Site.Writes.branch branchStems (by simp)
    consequents.writes alternatives.writes
  refine ⟨_, ?_, alternatives.holds.place _, written.writes.trans branch, fun allocated => ?_⟩
  · exact written.toExtends.trans ((Workspace.extends_place written.holds
      (Site.Confined.fork atTest _ _).grows).trans (consequents.toExtends.trans
        ((Workspace.extends_place consequents.holds (Site.go_grows _ _ _)).trans
          (alternatives.toExtends.trans
            (Workspace.extends_place alternatives.holds (Site.go_grows _ _ _))))))
  · obtain ⟨allocated, widens⟩ := written.table allocated
    obtain ⟨allocated, widensToo⟩ := consequents.table allocated
    obtain ⟨allocated, widensMore⟩ := alternatives.table allocated
    exact ⟨allocated, (widens.trans widensToo).trans widensMore⟩

/-- A loop that is tested first may be left at once, so its body does not matter. -/
theorem looping (straight : Straight condition) (extending : Extending through body) :
    Extending true (looping names condition body) := by
  intro before result after lowered id site holds
  obtain ⟨test, tested, tests, rest⟩ := looping_cases lowered holds
  obtain ⟨atTest, written⟩ := straight.lowerCondition tests (holds.place _)
  have written := written.extended
  have size := Nat.le_trans Site.fork_size written.confined.grows.size_le
  obtain ⟨done, runs, rest⟩ := rest atTest written.holds size
  obtain ⟨atBody, extended⟩ := extending runs (written.holds.place _)
  have grows := (Site.go_grows _ _ _).trans extended.confined.grows
  obtain rfl := rest atBody extended.holds (Nat.le_trans size grows.size_le)
  refine ⟨_, ?_, extended.holds.place _, .loop names written.writes (by simp)
    extended.writes, fun allocated => ?_⟩
  · exact (Workspace.extends_place holds (Site.Confined.fork site _ _).grows).trans
      (written.toExtends.trans ((Workspace.extends_place written.holds (Site.go_grows _ _ _)).trans
        (extended.toExtends.trans
          (Workspace.extends_place extended.holds (Site.go_grows _ _ _)))))
  · obtain ⟨allocated, widens⟩ := written.table allocated
    obtain ⟨allocated, widensToo⟩ := extended.table allocated
    exact ⟨allocated, widens.trans widensToo⟩

/-- A loop that is tested last is left only through its body. -/
theorem loopingUntil (extending : Extending through body) (straight : Straight condition) :
    Extending through (loopingUntil names body condition) := by
  intro before result after lowered id site holds
  obtain ⟨done, runs, rest⟩ := loopingUntil_cases lowered holds
  obtain ⟨atBody, extended⟩ := extending runs (holds.place _)
  have size := Nat.le_trans Site.fork_size extended.confined.grows.size_le
  obtain ⟨test, tested, tests, rest⟩ := rest atBody extended.holds size
  obtain ⟨atTest, written⟩ := straight.lowerCondition tests (extended.holds.place _)
  have written := written.extended
  have grows := (Site.go_grows _ _ _).trans written.confined.grows
  obtain rfl := rest atTest written.holds (Nat.le_trans size grows.size_le)
  refine ⟨_, ?_, written.holds.place _, .loopUntil names (Set.Subset.refl _) extended.writes
    written.writes (by simp), fun allocated => ?_⟩
  · exact (Workspace.extends_place holds (Site.Confined.fork site _ _).grows).trans
      (extended.toExtends.trans ((Workspace.extends_place extended.holds
        (Site.go_grows _ _ _)).trans
        (written.toExtends.trans
          (Workspace.extends_place written.holds (Site.go_grows _ _ _)))))
  · obtain ⟨allocated, widens⟩ := extended.table allocated
    obtain ⟨allocated, widensToo⟩ := written.table allocated
    exact ⟨allocated, widens.trans widensToo⟩

theorem lowerConditional {consequent alternative : Lower Unit} (straight : Straight condition)
    (first : Extending through consequent) (second : Extending throughToo alternative) :
    Extending (through || throughToo) (lowerConditional condition consequent alternative) := by
  rw [lowerConditional_eq]
  exact branching straight first.inScope.within second.inScope.within

theorem lowerWhile (straight : Straight condition) (extending : Extending through body) :
    Extending true (lowerWhile condition body) := by
  rw [lowerWhile_eq]
  exact looping straight extending.inScope.within

theorem lowerRepeat (extending : Extending through body) (straight : Straight condition) :
    Extending through (lowerRepeat body condition) := by
  rw [lowerRepeat_eq]
  exact (loopingUntil extending.within straight).inScope

theorem lowerFor {step : Lower Unit} {throughStart : Bool} (starts : Extending throughStart start)
    (straight : Straight condition) (steps : Extending throughToo step)
    (extending : Extending through body) :
    Extending throughStart (lowerFor start condition step body) := by
  rw [lowerFor_eq, ← Bool.and_true throughStart]
  exact (starts.within.bind fun _ =>
    looping straight (extending.within.bind fun _ => steps.within)).inScope

end Extending

end Lowering

end Pascaline
